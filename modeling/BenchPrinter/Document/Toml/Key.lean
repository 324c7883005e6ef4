import BenchPrinter.Document.Toml.Text

/-!
Keys in TOML. A key is a bare word or a text on one line; a path is a sequence of keys with points
between them.
-/

namespace BenchPrinter.Toml

def isBare (character : Char) : Bool :=
  character.isAlphanum || character = '-' || character = '_'

def key? : Reader String
  | '"' :: rest => (quoted? rest).map fun (name, rest) => (String.ofList name, rest)
  | '\x27' :: rest => (literal? rest).map fun (name, rest) => (String.ofList name, rest)
  | text =>
      if (text.takeWhile isBare).isEmpty then none
      else some (String.ofList (text.takeWhile isBare), text.dropWhile isBare)

/-- The tables on the way, and the name in the last of them. -/
structure Path where
  tables : List String
  name : String
deriving DecidableEq

/-- Blanks may stand around each key. The path has so many keys at most. -/
def path? : Nat → Reader Path
  | 0, _ => none
  | limit + 1, text =>
      match key? (skipSpace text) with
      | none => none
      | some (name, rest) =>
          match skipSpace rest with
          | '.' :: rest =>
              (path? limit rest).map fun (path, rest) =>
                (⟨name :: path.tables, path.name⟩, rest)
          | rest => some (⟨[], name⟩, rest)

/-- A path has at most so many keys, and values are nested at most so deep. -/
def depthLimit : Nat := 79

end BenchPrinter.Toml
