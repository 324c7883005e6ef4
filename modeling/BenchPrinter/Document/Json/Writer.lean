import BenchPrinter.Document.Data
import BenchPrinter.Document.Json.Text
import BenchPrinter.Number.Shortest

/-!
Writing JSON, on one line or with one value on each line.
-/

namespace BenchPrinter.Json

/-- Doubles between a hundred-thousandth and ten to the sixteenth have no exponent. -/
def doubleStyle : DoubleStyle where
  undefined := "null"
  infinite _ := "null"
  wholeSuffix := ".0"
  evenTies := true
  isPositional exponent := -5 ≤ exponent ∧ exponent ≤ 15

/-- What stands between the values; the depth is the count of open brackets. -/
structure Layout where
  lineBreak : Nat → List Char
  colon : List Char

namespace Layout

def compact : Layout := ⟨fun _ => [], [':']⟩

/-- Each level is indented by two blanks. -/
def pretty : Layout := ⟨fun depth => '\n' :: List.replicate (2 * depth) ' ', [':', ' ']⟩

/-- Brackets with nothing between them stay together. -/
def bracket (layout : Layout) (opening closing : Char) (depth : Nat) (items : List (List Char)) :
    List Char :=
  match items with
  | [] => [opening, closing]
  | _ =>
      opening :: layout.lineBreak (depth + 1) ++
        List.intercalate (',' :: layout.lineBreak (depth + 1)) items ++
        layout.lineBreak depth ++ [closing]

mutual

def value (layout : Layout) (depth : Nat) : Data → List Char
  | .null => "null".toList
  | .unreadable => "null".toList
  | .moment => "null".toList
  | .boolean true => "true".toList
  | .boolean false => "false".toList
  | .integer value => (toString value).toList
  | .decimal value => (doubleStyle.write value).toList
  | .text value => writeText value
  | .list items => layout.bracket '[' ']' depth (values layout (depth + 1) items)
  | .record fields => layout.bracket '{' '}' depth (entries layout (depth + 1) fields)

def values (layout : Layout) (depth : Nat) : List Data → List (List Char)
  | [] => []
  | item :: rest => value layout depth item :: values layout depth rest

def entries (layout : Layout) (depth : Nat) : List (String × Data) → List (List Char)
  | [] => []
  | (name, content) :: rest =>
      (writeText name ++ layout.colon ++ value layout depth content) :: entries layout depth rest

end

end Layout

def write (layout : Layout) (data : Data) : String :=
  String.ofList (layout.value 0 data)

end BenchPrinter.Json
