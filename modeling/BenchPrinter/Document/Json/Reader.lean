import BenchPrinter.Document.Json.Number
import BenchPrinter.Document.Json.Text

/-!
Reading JSON. The reader checks the whole text against the grammar; what a number or a text means is
looked at only where a value is used.
-/

namespace BenchPrinter.Json

def isSpace (character : Char) : Bool :=
  character = ' ' || character = '\t' || character = '\n' || character = '\r'

def skipSpace (text : List Char) : List Char := text.dropWhile isSpace

/-- The rest of a non-empty list, after its opening bracket. -/
def items? {β : Type} (item? : Reader β) (closing : Char) : Nat → Reader (List β)
  | 0, _ => none
  | fuel + 1, text =>
      match item? text with
      | none => none
      | some (item, rest) =>
          match skipSpace rest with
          | mark :: rest =>
              if mark = ',' then
                Reader.prepend item (items? item? closing fuel rest)
              else if mark = closing then some ([item], rest)
              else none
          | [] => none

/-- A list may be empty, but a comma is always followed by an item. -/
def enclosed? {β : Type} (item? : Reader β) (closing : Char) (fuel : Nat) : Reader (List β) :=
  fun text =>
    match skipSpace text with
    | [] => none
    | mark :: rest =>
        if mark = closing then some ([], rest) else items? item? closing fuel (mark :: rest)

def textValue (pieces : List Piece) : Data :=
  match joined? pieces with
  | some characters => .text (String.ofList characters)
  | none => .unreadable

/-- The name of a field is a text; the field has no value when the name cannot be read. -/
def field? (value? : Reader Data) : Reader (Option (String × Data)) :=
  fun text =>
    match skipSpace text with
    | '"' :: rest =>
        match pieces? rest with
        | none => none
        | some (pieces, rest) =>
            match skipSpace rest with
            | ':' :: rest =>
                match value? rest with
                | some (value, rest) =>
                    some ((joined? pieces).map fun name => (String.ofList name, value), rest)
                | none => none
            | _ => none
    | _ => none

/-- A record with an unreadable name is itself unreadable. -/
def recordValue (fields : List (Option (String × Data))) : Data :=
  match fields.mapM id with
  | some fields => .record fields
  | none => .unreadable

/-- Each level of nesting uses up one character at least, so the length of the text is fuel
enough. -/
def value? : Nat → Reader Data
  | 0, _ => none
  | fuel + 1, text =>
      match skipSpace text with
      | 'n' :: 'u' :: 'l' :: 'l' :: rest => some (.null, rest)
      | 't' :: 'r' :: 'u' :: 'e' :: rest => some (.boolean true, rest)
      | 'f' :: 'a' :: 'l' :: 's' :: 'e' :: rest => some (.boolean false, rest)
      | '"' :: rest => (pieces? rest).map fun (pieces, rest) => (textValue pieces, rest)
      | '[' :: rest =>
          (enclosed? (value? fuel) ']' fuel rest).map fun (items, rest) => (.list items, rest)
      | '{' :: rest =>
          (enclosed? (field? (value? fuel)) '}' fuel rest).map fun (fields, rest) =>
            (recordValue fields, rest)
      | other => (numberText? other).map fun (number, rest) => (number.value, rest)

/-- Nothing but blanks may follow the value. -/
def read? (text : String) : Option Data :=
  let characters := text.toList
  match value? (characters.length + 1) characters with
  | some (data, rest) => if (skipSpace rest).isEmpty then some data else none
  | none => none

/-- A list of fields has at most the fields of the record, and only a null is empty content. -/
def dialect : Dialect where
  allowsLongLists := false
  isEmptyContent
    | .null => true
    | _ => false

end BenchPrinter.Json
