/-!
Documents of either format as one tree, and the reading of typed values from it. A document that is
well formed may still hold a value that names no number or text; such a value is harmless where it
is ignored.
-/

namespace BenchPrinter

inductive Data where
  | null
  | boolean (value : Bool)
  | integer (value : Int)
  | decimal (value : Float)
  | text (value : String)
  | moment
  | unreadable
  | list (items : List Data)
  | record (fields : List (String × Data))

/-- What the two formats read differently. -/
structure Dialect where
  /-- A list of the fields of a record may be longer than the record. -/
  allowsLongLists : Bool
  /-- The value that a choice without content may carry. -/
  isEmptyContent : Data → Bool

namespace Data

def natural? (bound : Nat) : Data → Option Nat
  | integer value => if 0 ≤ value ∧ value < bound then some value.toNat else none
  | _ => none

def word32? (data : Data) : Option UInt32 :=
  (data.natural? UInt32.size).map (·.toUInt32)

def word64? (data : Data) : Option UInt64 :=
  (data.natural? UInt64.size).map (·.toUInt64)

/-- An integer is read as the double nearest to it. -/
def double? : Data → Option Float
  | integer value => some (Float.ofInt value)
  | decimal value => some value
  | _ => none

def text? : Data → Option String
  | text value => some value
  | _ => none

/-- A null stands for a value that is not there. -/
def optional? {β : Type} (read? : Data → Option β) : Data → Option (Option β)
  | null => some none
  | data => (read? data).map some

/-- A choice is given by its name, or by a record whose only field is the name. -/
def choice? {β : Type} (dialect : Dialect) (choices : List (String × β)) : Data → Option β
  | text name => choices.lookup name
  | record [(name, content)] =>
      if dialect.isEmptyContent content then choices.lookup name else none
  | _ => none

/-- The value of each named field. A record names its fields in any order, none of them twice, and
may have other fields; a list gives them in order and may stop early. -/
def fields? (dialect : Dialect) (names : List String) : Data → Option (String → Option Data)
  | record fields =>
      if names.all fun name => fields.countP (·.1 == name) ≤ 1 then
        some fun name => fields.lookup name
      else none
  | list items =>
      if items.length ≤ names.length || dialect.allowsLongLists then
        some fun name => items[names.idxOf name]?
      else none
  | moment => some fun _ => none
  | _ => none

/-- A field that is missing has a default. -/
def orDefault {β : Type} (read? : Data → Option β) (default : β) : Option Data → Option β
  | none => some default
  | some data => read? data

/-- A field that must be there. -/
def required? {β : Type} (read? : Data → Option β) : Option Data → Option β
  | none => none
  | some data => read? data

end Data

end BenchPrinter
