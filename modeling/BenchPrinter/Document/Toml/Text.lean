import BenchPrinter.Document.Reader

/-!
Texts in TOML. There are four forms: between quotes with escapes or between apostrophes without
them, each on one line or as a block over several lines.
-/

namespace BenchPrinter.Toml

/-- Of the control characters only the tab may stand in a text or a comment. -/
def isPrintable (character : Char) : Bool :=
  character = '\t' || (0x20 ≤ character.toNat && character.toNat ≠ 0x7F)

def isSpace (character : Char) : Bool := character = ' ' || character = '\t'

def skipSpace (text : List Char) : List Char := text.dropWhile isSpace

/-- The character that a one-letter escape stands for. -/
def shortEscape? : Char → Option Char
  | '"' => some '"'
  | '\\' => some '\\'
  | 'b' => some '\x08'
  | 'f' => some '\x0c'
  | 'n' => some '\n'
  | 'r' => some '\r'
  | 't' => some '\t'
  | _ => none

/-- A hexadecimal escape names a character; surrogates are none. -/
def codePoint? (digits : List Char) : Option Char :=
  match readHex 0 digits with
  | some code => if code.isValidChar then some (Char.ofNat code) else none
  | none => none

/-- The rest of a quoted text on one line. -/
def quoted? : Reader (List Char)
  | [] => none
  | '"' :: rest => some ([], rest)
  | '\\' :: 'u' :: a :: b :: c :: d :: rest =>
      match codePoint? [a, b, c, d] with
      | some character => Reader.prepend character (quoted? rest)
      | none => none
  | '\\' :: 'U' :: a :: b :: c :: d :: e :: f :: g :: h :: rest =>
      match codePoint? [a, b, c, d, e, f, g, h] with
      | some character => Reader.prepend character (quoted? rest)
      | none => none
  | '\\' :: letter :: rest =>
      match shortEscape? letter with
      | some character => Reader.prepend character (quoted? rest)
      | none => none
  | character :: rest =>
      if character ≠ '\\' ∧ isPrintable character then Reader.prepend character (quoted? rest)
      else none

/-- The rest of a literal text on one line; it has no escapes. -/
def literal? : Reader (List Char)
  | [] => none
  | '\x27' :: rest => some ([], rest)
  | character :: rest =>
      if isPrintable character then Reader.prepend character (literal? rest) else none

/-- A line ends with a line feed, which may follow a carriage return. -/
def lineBreak? : List Char → Option (List Char)
  | '\n' :: rest => some rest
  | '\r' :: '\n' :: rest => some rest
  | _ => none

/-- A backslash in front of a line end joins the lines. -/
def endsLine (text : List Char) : Bool := (lineBreak? (skipSpace text)).isSome

/-- The rest of a quoted block. After joined lines all blanks and line ends are skipped. One or two
quotes may stand in the text, also just before the closing three. -/
def quotedBlock? : Bool → Reader (List Char)
  | _, [] => none
  | _, '"' :: '"' :: '"' :: '"' :: '"' :: rest => some (['"', '"'], rest)
  | _, '"' :: '"' :: '"' :: '"' :: rest => some (['"'], rest)
  | _, '"' :: '"' :: '"' :: rest => some ([], rest)
  | joining, '\r' :: '\n' :: rest =>
      if joining then quotedBlock? true rest else Reader.prepend '\n' (quotedBlock? false rest)
  | _, '\\' :: 'u' :: a :: b :: c :: d :: rest =>
      match codePoint? [a, b, c, d] with
      | some character => Reader.prepend character (quotedBlock? false rest)
      | none => none
  | _, '\\' :: 'U' :: a :: b :: c :: d :: e :: f :: g :: h :: rest =>
      match codePoint? [a, b, c, d, e, f, g, h] with
      | some character => Reader.prepend character (quotedBlock? false rest)
      | none => none
  | _, '\\' :: letter :: rest =>
      match shortEscape? letter with
      | some character => Reader.prepend character (quotedBlock? false rest)
      | none => if endsLine (letter :: rest) then quotedBlock? true rest else none
  | joining, character :: rest =>
      if joining ∧ (isSpace character ∨ character = '\n') then quotedBlock? true rest
      else if character ≠ '\\' ∧ (isPrintable character ∨ character = '\n') then
        Reader.prepend character (quotedBlock? false rest)
      else none

/-- The rest of a literal block. -/
def literalBlock? : Reader (List Char)
  | [] => none
  | '\x27' :: '\x27' :: '\x27' :: '\x27' :: '\x27' :: rest => some (['\x27', '\x27'], rest)
  | '\x27' :: '\x27' :: '\x27' :: '\x27' :: rest => some (['\x27'], rest)
  | '\x27' :: '\x27' :: '\x27' :: rest => some ([], rest)
  | '\r' :: '\n' :: rest => Reader.prepend '\n' (literalBlock? rest)
  | character :: rest =>
      if isPrintable character ∨ character = '\n' then
        Reader.prepend character (literalBlock? rest)
      else none

/-- A line end right after the opening of a block does not belong to the text. -/
def dropLineBreak (text : List Char) : List Char := (lineBreak? text).getD text

/-- A text in any of the four forms. -/
def text? : Reader (List Char)
  | '"' :: '"' :: '"' :: rest => quotedBlock? false (dropLineBreak rest)
  | '"' :: rest => quoted? rest
  | '\x27' :: '\x27' :: '\x27' :: rest => literalBlock? (dropLineBreak rest)
  | '\x27' :: rest => literal? rest
  | _ => none

end BenchPrinter.Toml
