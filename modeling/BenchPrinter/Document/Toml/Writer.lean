import BenchPrinter.Document.Toml.Number
import BenchPrinter.Document.Toml.Text
import BenchPrinter.Number.Fixed
import BenchPrinter.Number.Shortest

/-!
Writing TOML. Each table gets a heading and its values, one on a line; an empty line stands between
tables. Not every tree can be written: integers must fit 64 bits with sign, and there are no nulls.
-/

namespace BenchPrinter.Toml

/-- Doubles are written without an exponent and always with a point. -/
def doubleStyle : DoubleStyle where
  undefined := "nan"
  infinite negative := if negative then "-inf" else "inf"
  wholeSuffix := ".0"
  evenTies := false
  isPositional _ := true

/-- What decides the form of a text. -/
structure Shape where
  hasControls : Bool
  hasBackslash : Bool
  hasNewline : Bool
  quoteRun : Nat
  apostropheRun : Nat
deriving DecidableEq

/-- The length of the longest run of a character, when so many of them stand just before the
text. -/
def longestRun (mark : Char) : Nat → List Char → Nat
  | run, [] => run
  | run, character :: rest =>
      if character = mark then longestRun mark (run + 1) rest
      else max run (longestRun mark 0 rest)

/-- Tabs and line ends need no escape in every form. -/
def isControl (character : Char) : Bool :=
  (character.toNat < 0x20 && character ≠ '\t' && character ≠ '\n') || character.toNat = 0x7F

def Shape.ofText (text : List Char) : Shape where
  hasControls := text.any isControl
  hasBackslash := text.contains '\\'
  hasNewline := text.contains '\n'
  quoteRun := longestRun '"' 0 text
  apostropheRun := longestRun '\x27' 0 text

inductive Form where
  | quoted
  | literal
  | quotedBlock
  | literalBlock
deriving DecidableEq

/-- The first form that needs no escape is taken; when there is none, the text is quoted. -/
def Shape.form (shape : Shape) : Form :=
  let plain := !shape.hasControls && !shape.hasBackslash
  if plain && !shape.hasNewline && shape.quoteRun = 0 then .quoted
  else if !shape.hasControls && !shape.hasNewline && shape.apostropheRun = 0 then .literal
  else if plain && shape.quoteRun ≤ 2 then .quotedBlock
  else if !shape.hasControls && shape.apostropheRun ≤ 2 then .literalBlock
  else if shape.hasNewline then .quotedBlock
  else .quoted

/-- The letter after the backslash of a short escape. A line end stays as it is in a block. -/
def escape (inBlock : Bool) (character : Char) : List Char :=
  match character with
  | '\\' => ['\\', '\\']
  | '\x08' => ['\\', 'b']
  | '\x0c' => ['\\', 'f']
  | '\n' => if inBlock then ['\n'] else ['\\', 'n']
  | '\r' => ['\\', 'r']
  | '\t' => ['\\', 't']
  | other =>
      if isControl other then '\\' :: 'u' :: (lastDigits 16 4 other.toNat).map Char.toUpper
      else [other]

/-- In a block only the third quote of a run is escaped, and the count begins again after it. -/
def escapeAll (inBlock : Bool) : Nat → List Char → List Char
  | _, [] => []
  | run, character :: rest =>
      if character = '"' then
        if inBlock && run < 2 then '"' :: escapeAll inBlock (run + 1) rest
        else '\\' :: '"' :: escapeAll inBlock 0 rest
      else escape inBlock character ++ escapeAll inBlock 0 rest

/-- A block begins on a line of its own when it has several lines. -/
def writeText (text : List Char) : List Char :=
  let shape := Shape.ofText text
  let opening := if shape.hasNewline then ['\n'] else []
  match shape.form with
  | .quoted => '"' :: escapeAll false 0 text ++ ['"']
  | .literal => '\x27' :: text ++ ['\x27']
  | .quotedBlock => ['"', '"', '"'] ++ opening ++ escapeAll true 0 text ++ ['"', '"', '"']
  | .literalBlock =>
      ['\x27', '\x27', '\x27'] ++ opening ++ text ++ ['\x27', '\x27', '\x27']

/-- A value that fits on the line of its key. -/
def writeScalar? : Data → Option (List Char)
  | .boolean true => some "true".toList
  | .boolean false => some "false".toList
  | .integer value => if isInRange value then some (toString value).toList else none
  | .decimal value => some (doubleStyle.write value).toList
  | .text text => some (writeText text.toList)
  | _ => none

/-- The values of a table. The names are bare words. -/
def writeValues? : List (String × Data) → Option (List Char)
  | [] => some []
  | (_, .record _) :: rest => writeValues? rest
  | (name, data) :: rest =>
      match writeScalar? data, writeValues? rest with
      | some value, some lines => some (name.toList ++ [' ', '=', ' '] ++ value ++ '\n' :: lines)
      | _, _ => none

def writeHeading (path : List String) : List Char :=
  '[' :: List.intercalate ['.'] (path.map String.toList) ++ [']', '\n']

mutual

/-- The tables below a table; each comes before the tables below it. -/
def writeTables? (path : List String) : List (String × Data) → Option (List (List Char))
  | [] => some []
  | (name, data) :: rest =>
      match writeTable? (path ++ [name]) data, writeTables? path rest with
      | some first, some others => some (first ++ others)
      | _, _ => none

/-- Only a record is a table. -/
def writeTable? (path : List String) : Data → Option (List (List Char))
  | .record fields =>
      match writeValues? fields, writeTables? path fields with
      | some values, some below => some ((writeHeading path ++ values) :: below)
      | _, _ => none
  | _ => some []

end

/-- Values without a heading come first. -/
def write? : Data → Option String
  | .record fields =>
      match writeValues? fields, writeTables? [] fields with
      | some values, some tables =>
          let blocks := if values.isEmpty then tables else values :: tables
          some (String.ofList (List.intercalate ['\n'] blocks))
      | _, _ => none
  | _ => none

end BenchPrinter.Toml
