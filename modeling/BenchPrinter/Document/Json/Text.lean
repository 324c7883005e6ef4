import BenchPrinter.Document.Reader
import BenchPrinter.Number.Fixed

/-!
Texts in JSON. Reading has two stages: the first finds the end of the text and splits it into
characters and code units, the second pairs the surrogates. Only the second can fail on a
well-formed text.
-/

namespace BenchPrinter.Json

/-- A character stands for itself; a code unit was written as an escape of four hexadecimal
digits. -/
inductive Piece where
  | character (character : Char)
  | unit (code : Nat)
deriving DecidableEq

/-- The character that a one-letter escape stands for. -/
def shortEscape? : Char → Option Char
  | '"' => some '"'
  | '\\' => some '\\'
  | '/' => some '/'
  | 'b' => some '\x08'
  | 'f' => some '\x0c'
  | 'n' => some '\n'
  | 'r' => some '\r'
  | 't' => some '\t'
  | _ => none

/-- The pieces up to the closing quote, and what follows it. Control characters must be escaped. -/
def pieces? : Reader (List Piece)
  | [] => none
  | '"' :: rest => some ([], rest)
  | '\\' :: 'u' :: a :: b :: c :: d :: rest =>
      match readHex 0 [a, b, c, d] with
      | some code => Reader.prepend (.unit code) (pieces? rest)
      | none => none
  | '\\' :: letter :: rest =>
      match shortEscape? letter with
      | some character => Reader.prepend (.character character) (pieces? rest)
      | none => none
  | character :: rest =>
      if character = '\\' ∨ character.toNat < 0x20 then none
      else Reader.prepend (.character character) (pieces? rest)

def isHighSurrogate (code : Nat) : Bool := 0xD800 ≤ code && code < 0xDC00

def isLowSurrogate (code : Nat) : Bool := 0xDC00 ≤ code && code < 0xE000

/-- A high surrogate must be followed by a low one, and a low one must not stand alone. -/
def joined? : List Piece → Option (List Char)
  | [] => some []
  | .character character :: rest => (joined? rest).map (character :: ·)
  | .unit high :: .unit low :: rest =>
      if isHighSurrogate high then
        if isLowSurrogate low then
          let code := 0x10000 + (high - 0xD800) * 0x400 + (low - 0xDC00)
          (joined? rest).map (Char.ofNat code :: ·)
        else none
      else if isLowSurrogate high then none
      else (joined? (.unit low :: rest)).map (Char.ofNat high :: ·)
  | .unit code :: rest =>
      if isHighSurrogate code || isLowSurrogate code then none
      else (joined? rest).map (Char.ofNat code :: ·)

/-- Quotes, backslashes and control characters are escaped, the common ones by a letter. -/
def escape (character : Char) : List Char :=
  match character with
  | '"' => ['\\', '"']
  | '\\' => ['\\', '\\']
  | '\x08' => ['\\', 'b']
  | '\x0c' => ['\\', 'f']
  | '\n' => ['\\', 'n']
  | '\r' => ['\\', 'r']
  | '\t' => ['\\', 't']
  | other =>
      if other.toNat < 0x20 then '\\' :: 'u' :: lastDigits 16 4 other.toNat else [other]

def writeText (text : String) : List Char :=
  '"' :: text.toList.flatMap escape ++ ['"']

end BenchPrinter.Json
