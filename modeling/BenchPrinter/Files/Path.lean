import BenchPrinter.Text.Utf8

/-!
Paths of files. A path is a sequence of parts between slashes; one that begins with a slash is
absolute.
-/

namespace BenchPrinter.FilePath

/-- The parts between the slashes; repeated slashes give empty parts. -/
def parts : List Char → List (List Char)
  | [] => [[]]
  | character :: rest =>
      if character = '/' then [] :: parts rest
      else
        match parts rest with
        | [] => [[character]]
        | part :: others => (character :: part) :: others

def partsOf (path : String) : List String := (parts path.toList).map String.ofList

/-- The bytes that a path or a part of it takes. -/
def size (text : String) : Nat := (Utf8.encode text).length

/-- The system takes paths up to this size. -/
def longestPath : Nat := 4095

/-- A folder takes names up to this size. -/
def longestName : Nat := 255

def isAbsolute (path : String) : Bool := path.toList.head? = some '/'

/-- An absolute path replaces the one it is joined to. -/
def join (base path : String) : String :=
  if isAbsolute path || base.toList.isEmpty then path
  else if base.toList.getLast? = some '/' then base ++ path
  else base ++ "/" ++ path

/-- The last part that says something; it is no name when it leads back up. -/
def name? (path : String) : Option String :=
  match ((partsOf path).filter fun part => part ≠ "" && part ≠ ".").getLast? with
  | some name => if name = ".." then none else some name
  | none => none

/-- What stands before and after the last point. -/
def splitAtLastPoint? (name : List Char) : Option (List Char × List Char) :=
  let reversed := name.reverse
  let after := reversed.takeWhile (· ≠ '.')
  match reversed.drop after.length with
  | [] => none
  | _ :: before => some (before.reverse, after.reverse)

/-- A point at the beginning of a name begins no extension. -/
def extension? (path : String) : Option String :=
  match name? path with
  | none => none
  | some name =>
      match splitAtLastPoint? name.toList with
      | some (before, after) => if before.isEmpty then none else some (String.ofList after)
      | none => none

end BenchPrinter.FilePath
