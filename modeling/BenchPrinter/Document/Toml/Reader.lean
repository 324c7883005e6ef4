import BenchPrinter.Document.Toml.Value

/-!
Reading TOML. A document is read line by line; a heading says which table the assignments after it
belong to.
-/

namespace BenchPrinter.Toml

inductive Heading where
  | table (path : Path)
  | item (path : Path)
deriving DecidableEq

/-- What one line says; an assignment may run over several lines of the text. -/
inductive Line where
  | empty
  | heading (heading : Heading)
  | assignment (assignment : Assignment)

/-- Nothing but blanks and a comment stands between the end of a statement and the end of the
line. -/
def endLine? (text : List Char) : Option (List Char) :=
  let rest :=
    match skipSpace text with
    | '#' :: comment => comment.dropWhile isPrintable
    | other => other
  if rest.isEmpty then some [] else lineBreak? rest

/-- The line ends after what has been read of it. -/
def Line.ending (line : Line) (text : List Char) : Option (Line × List Char) :=
  (endLine? text).map fun rest => (line, rest)

def line? : Reader Line :=
  fun text =>
    match skipSpace text with
    | '[' :: '[' :: rest =>
        match path? depthLimit rest with
        | some (path, ']' :: ']' :: rest) => (Line.heading (.item path)).ending rest
        | _ => none
    | '[' :: rest =>
        match path? depthLimit rest with
        | some (path, ']' :: rest) => (Line.heading (.table path)).ending rest
        | _ => none
    | text =>
        match endLine? text with
        | some rest => some (.empty, rest)
        | none =>
            match assignment? (value? depthLimit) text with
            | some (item, rest) => (Line.assignment item).ending rest
            | none => none

/-- Each line uses up one character at least. -/
def lines? : Nat → List Char → Option (List Line)
  | _, [] => some []
  | 0, _ => none
  | fuel + 1, text =>
      match line? text with
      | none => none
      | some (line, rest) => (lines? fuel rest).map (line :: ·)

/-- The assignments under one heading. -/
structure Section where
  heading : Heading
  assignments : List Assignment

/-- The assignments before the first heading, and the sections. -/
def sections : List Line → List Assignment × List Section
  | [] => ([], [])
  | .empty :: rest => sections rest
  | .assignment item :: rest => (item :: (sections rest).1, (sections rest).2)
  | .heading heading :: rest => ([], ⟨heading, (sections rest).1⟩ :: (sections rest).2)

/-- A section fills the table of its heading. -/
def Section.place (part : Section) (entries : Entries) : Option Entries :=
  match part.heading with
  | .table path =>
      entries.within (Entries.headTable (Entries.assignAll part.assignments) path.name) path.tables
  | .item path =>
      entries.within (Entries.headItem (Entries.assignAll part.assignments) path.name) path.tables

def document? (lines : List Line) : Option Entries :=
  match Entries.assignAll (sections lines).1 [] with
  | none => none
  | some entries => (sections lines).2.foldlM (fun entries part => part.place entries) entries

/-- A byte order mark may stand in front. -/
def dropMark : List Char → List Char
  | '\uFEFF' :: rest => rest
  | text => text

def read? (text : String) : Option Data :=
  let characters := dropMark text.toList
  match lines? characters.length characters with
  | none => none
  | some lines => (document? lines).map Entries.data

/-- A choice may carry an empty list or an empty table. -/
def dialect : Dialect where
  allowsLongLists := true
  isEmptyContent
    | .list [] => true
    | .record [] => true
    | _ => false

end BenchPrinter.Toml
