import BenchPrinter.Document.Data
import BenchPrinter.Document.Toml.Key

/-!
Tables under construction. A table remembers how it came about, because a table may be extended
later only in the way in which it was begun.
-/

namespace BenchPrinter.Toml

/-- A table has a heading of its own, or lies on the way to a heading, or on the way of a dotted
key. -/
inductive Origin where
  | headed
  | implied
  | dotted
deriving DecidableEq

/-- A name stands for a value, a table, or a list of tables of which only the last can still
change. -/
inductive Node where
  | value (data : Data)
  | table (origin : Origin) (entries : List (String × Node))
  | tables (earlier : List Data) (last : List (String × Node))

abbrev Entries := List (String × Node)

mutual

def Node.data : Node → Data
  | .value data => data
  | .table _ entries => .record (fieldsOf entries)
  | .tables earlier last => .list (earlier ++ [.record (fieldsOf last)])

def fieldsOf : List (String × Node) → List (String × Data)
  | [] => []
  | (name, node) :: rest => (name, node.data) :: fieldsOf rest

end

namespace Entries

def data (entries : Entries) : Data := .record (fieldsOf entries)

/-- The entry keeps its place. -/
def replace (name : String) (node : Node) (entries : Entries) : Entries :=
  entries.map fun entry => if entry.1 = name then (name, node) else entry

def append (name : String) (node : Node) (entries : Entries) : Entries :=
  entries ++ [(name, node)]

/-- A name is given a value once. A dotted key ends in a table that was begun by a dotted key; on
the way to it lie such tables, implied ones, and the last tables of lists. -/
def assign (data : Data) : List String → String → Entries → Option Entries
  | [], name, entries =>
      match entries.lookup name with
      | none => some (append name (.value data) entries)
      | some _ => none
  | step :: path, name, entries =>
      match entries.lookup step with
      | none =>
          (assign data path name []).map fun inner => append step (.table .dotted inner) entries
      | some (.table .dotted inner) =>
          (assign data path name inner).map fun inner =>
            replace step (.table .dotted inner) entries
      | some (.table .implied inner) =>
          if path.isEmpty then none
          else
            (assign data path name inner).map fun inner =>
              replace step (.table .implied inner) entries
      | some (.tables earlier last) =>
          if path.isEmpty then none
          else
            (assign data path name last).map fun last =>
              replace step (.tables earlier last) entries
      | some (.table .headed _) => none
      | some (.value _) => none

/-- A change in the table at the end of a path. Tables that are missing on the way are implied. -/
def within (change : Entries → Option Entries) : List String → Entries → Option Entries
  | [], entries => change entries
  | step :: path, entries =>
      match entries.lookup step with
      | none => (within change path []).map fun inner => append step (.table .implied inner) entries
      | some (.table origin inner) =>
          (within change path inner).map fun inner => replace step (.table origin inner) entries
      | some (.tables earlier last) =>
          (within change path last).map fun last => replace step (.tables earlier last) entries
      | some (.value _) => none

/-- A table gets a heading once; before that it may have been implied. -/
def headTable (fill : Entries → Option Entries) (name : String) (entries : Entries) :
    Option Entries :=
  match entries.lookup name with
  | none => (fill []).map fun inner => append name (.table .headed inner) entries
  | some (.table .implied inner) =>
      (fill inner).map fun inner => replace name (.table .headed inner) entries
  | some _ => none

/-- Each such heading adds a table to the list. -/
def headItem (fill : Entries → Option Entries) (name : String) (entries : Entries) :
    Option Entries :=
  match entries.lookup name with
  | none => (fill []).map fun inner => append name (.tables [] inner) entries
  | some (.tables earlier last) =>
      (fill []).map fun inner => replace name (.tables (earlier ++ [data last]) inner) entries
  | some _ => none

end Entries

/-- An assignment gives the name at the end of a path a value. -/
structure Assignment where
  path : Path
  data : Data

def Entries.assignAll (assignments : List Assignment) (entries : Entries) : Option Entries :=
  assignments.foldlM (fun entries item => entries.assign item.data item.path.tables item.path.name)
    entries

end BenchPrinter.Toml
