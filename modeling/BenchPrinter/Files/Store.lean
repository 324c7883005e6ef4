import BenchPrinter.Files.Path
import BenchPrinter.Text.Utf8

/-!
Files in folders. A place is the sequence of names that leads to it from the root; a path is
followed part by part, and every part but the last must lead to a folder.
-/

namespace BenchPrinter

abbrev Place := List String

/-- The root is always a folder. Relative paths begin at the working folder. -/
structure Files where
  working : Place
  folders : List Place
  contents : List (Place × List UInt8)
deriving DecidableEq

inductive FileFault where
  | missing
  | notFolder
  | isFolder
  | tooLong
  | zeroByte
  | notText
deriving DecidableEq

namespace FileFault

/-- What the system says about a fault. -/
def text : FileFault → String
  | missing => "No such file or directory"
  | notFolder => "Not a directory"
  | isFolder => "Is a directory"
  | tooLong => "File name too long"
  | zeroByte => "Invalid argument"
  | notText => "stream did not contain valid UTF-8"

def numbered (fault : FileFault) (number : Nat) : String :=
  fault.text ++ " (os error " ++ toString number ++ ")"

/-- A fault of the system has a number; the others are found without asking the system. -/
def message : FileFault → String
  | missing => missing.numbered 2
  | notFolder => notFolder.numbered 20
  | isFolder => isFolder.numbered 21
  | tooLong => tooLong.numbered 36
  | zeroByte => "file name contained an unexpected NUL byte"
  | notText => notText.text

end FileFault

namespace Files

def isFolder (files : Files) (place : Place) : Bool :=
  place.isEmpty || files.folders.contains place

def content? (files : Files) (place : Place) : Option (List UInt8) :=
  files.contents.lookup place

/-- Each part of a path is followed from a folder. -/
def follow (files : Files) : Place → List String → Except FileFault Place
  | place, [] => .ok place
  | place, part :: rest =>
      if files.isFolder place then
        if part = "" ∨ part = "." then files.follow place rest
        else if part = ".." then files.follow place.dropLast rest
        else if FilePath.longestName < FilePath.size part then .error .tooLong
        else files.follow (place ++ [part]) rest
      else .error (if (files.content? place).isSome then .notFolder else .missing)

/-- Some paths are refused before any folder is looked at. -/
def refusal? (path : String) : Option FileFault :=
  if path.toList.contains '\x00' then some .zeroByte
  else if path.toList.isEmpty then some .missing
  else if FilePath.longestPath < FilePath.size path then some .tooLong
  else none

/-- The parts are followed from the root or from the working folder. -/
def followFrom (files : Files) (path : String) (parts : List String) : Except FileFault Place :=
  match refusal? path with
  | some fault => .error fault
  | none => files.follow (if FilePath.isAbsolute path then [] else files.working) parts

/-- The place that a path leads to; nothing needs to be there. -/
def locate (files : Files) (path : String) : Except FileFault Place :=
  files.followFrom path (FilePath.partsOf path)

def exists? (files : Files) (path : String) : Bool :=
  match files.locate path with
  | .ok place => files.isFolder place || (files.content? place).isSome
  | .error _ => false

def read (files : Files) (path : String) : Except FileFault (List UInt8) :=
  match files.locate path with
  | .error fault => .error fault
  | .ok place =>
      if files.isFolder place then .error .isFolder
      else
        match files.content? place with
        | some content => .ok content
        | none => .error .missing

def readText (files : Files) (path : String) : Except FileFault String :=
  match files.read path with
  | .error fault => .error fault
  | .ok content =>
      match Utf8.decode? content with
      | some text => .ok (String.ofList text)
      | none => .error .notText

/-- The file gets the content, whether it was there before or not. -/
def put (files : Files) (place : Place) (content : List UInt8) : Files :=
  { files with contents := (place, content) :: files.contents.filter (·.1 ≠ place) }

/-- Slashes follow the last part, or there is no other part. -/
def endsInSlash (path : String) : Bool := path.toList.getLast? = some '/'

/-- The way to the folder that the last part of a path is looked up in. -/
def wayToLast (path : String) : List String :=
  ((FilePath.partsOf path).reverse.dropWhile (· = "")).reverse.dropLast ++ ["."]

/-- What slashes follow cannot be a file, whatever its name is. -/
def write (files : Files) (path : String) (content : List UInt8) : Except FileFault Files :=
  if endsInSlash path then
    match files.followFrom path (wayToLast path) with
    | .error fault => .error fault
    | .ok _ => .error .isFolder
  else
    match files.locate path with
    | .error fault => .error fault
    | .ok place =>
        if files.isFolder place then .error .isFolder else .ok (files.put place content)

end Files

end BenchPrinter
