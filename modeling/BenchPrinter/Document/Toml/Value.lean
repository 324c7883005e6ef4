import BenchPrinter.Document.Toml.Moment
import BenchPrinter.Document.Toml.Number
import BenchPrinter.Document.Toml.Table

/-!
Values in TOML. A list may run over several lines; a table in braces stays on one line.
-/

namespace BenchPrinter.Toml

/-- Blanks, line ends and comments between the items of a list. -/
def skipBetween : Bool → List Char → List Char
  | _, '\r' :: '\n' :: rest => skipBetween false rest
  | _, '\n' :: rest => skipBetween false rest
  | true, character :: rest =>
      if isPrintable character then skipBetween true rest else character :: rest
  | false, character :: rest =>
      if isSpace character then skipBetween false rest
      else if character = '#' then skipBetween true rest
      else character :: rest
  | _, [] => []

/-- The rest of a list. A comma may follow the last item. -/
def items? (value? : Reader Data) : Nat → Reader (List Data)
  | 0, _ => none
  | fuel + 1, text =>
      match skipBetween false text with
      | ']' :: rest => some ([], rest)
      | text =>
          match value? text with
          | none => none
          | some (item, rest) =>
              match skipBetween false rest with
              | ',' :: rest => Reader.prepend item (items? value? fuel rest)
              | ']' :: rest => some ([item], rest)
              | _ => none

/-- A path, an equals sign and a value. -/
def assignment? (value? : Reader Data) : Reader Assignment :=
  fun text =>
    match path? depthLimit text with
    | some (path, '=' :: rest) =>
        (value? (skipSpace rest)).map fun (data, rest) => (⟨path, data⟩, rest)
    | _ => none

/-- The rest of a table in braces that is not empty. -/
def assignments? (value? : Reader Data) : Nat → Reader (List Assignment)
  | 0, _ => none
  | fuel + 1, text =>
      match assignment? value? text with
      | none => none
      | some (item, rest) =>
          match skipSpace rest with
          | ',' :: rest => Reader.prepend item (assignments? value? fuel rest)
          | '}' :: rest => some ([item], rest)
          | _ => none

def braced? (value? : Reader Data) (fuel : Nat) : Reader Data :=
  fun text =>
    match skipSpace text with
    | '}' :: rest => some (.record [], rest)
    | text =>
        match assignments? value? fuel text with
        | none => none
        | some (assignments, rest) =>
            (Entries.assignAll assignments []).map fun entries => (entries.data, rest)

/-- A value that holds no others. A moment is told from a number by its first digits. -/
def scalar? : Reader Data :=
  fun text =>
    match text with
    | 't' :: 'r' :: 'u' :: 'e' :: rest => some (.boolean true, rest)
    | 'f' :: 'a' :: 'l' :: 's' :: 'e' :: rest => some (.boolean false, rest)
    | _ =>
        match text? text with
        | some (characters, rest) => some (.text (String.ofList characters), rest)
        | none =>
            match moment? text with
            | some rest => some (.moment, rest)
            | none => number? text

/-- Lists and tables may be nested so deep. -/
def value? : Nat → Reader Data
  | 0, text => scalar? text
  | depth + 1, text =>
      match text with
      | '[' :: rest =>
          (items? (value? depth) (rest.length + 1) rest).map fun (items, rest) =>
            (.list items, rest)
      | '{' :: rest => braced? (value? depth) (rest.length + 1) rest
      | _ => scalar? text

end BenchPrinter.Toml
