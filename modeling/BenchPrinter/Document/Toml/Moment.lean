import BenchPrinter.Number.Numeral
import BenchPrinter.Document.Reader

/-!
Dates and times in TOML. No setting is a date, so a moment is only checked and passed over.
-/

namespace BenchPrinter.Toml

/-- A number of exactly so many digits. -/
def fixedDigits? (width : Nat) : Reader Nat :=
  fun text =>
    let run := text.take width
    if run.length = width then
      (readDigits 0 run).map fun number => (number, text.drop width)
    else none

/-- A number of two digits within bounds. -/
def twoDigits? (lowest highest : Nat) : Reader Nat :=
  fun text =>
    match fixedDigits? 2 text with
    | some (number, rest) =>
        if lowest ≤ number ∧ number ≤ highest then some (number, rest) else none
    | none => none

def skip? (mark : Char) : List Char → Option (List Char)
  | character :: rest => if character = mark then some rest else none
  | [] => none

def isLeapYear (year : Nat) : Bool :=
  year % 4 = 0 && (year % 100 ≠ 0 || year % 400 = 0)

def daysInMonth (year month : Nat) : Nat :=
  if month = 2 then if isLeapYear year then 29 else 28
  else if month = 4 ∨ month = 6 ∨ month = 9 ∨ month = 11 then 30
  else 31

/-- A day of the calendar; the text after it is handed over. -/
def date? (text : List Char) : Option (List Char) := do
  let (year, rest) ← fixedDigits? 4 text
  let (month, rest) ← twoDigits? 1 12 (← skip? '-' rest)
  let (_, rest) ← twoDigits? 1 (daysInMonth year month) (← skip? '-' rest)
  return rest

/-- The digits after the point of a second may be missing, and then so is the point. -/
def skipFraction : List Char → List Char
  | '.' :: rest =>
      match leadingDigits rest with
      | ([], _) => '.' :: rest
      | (_, after) => after
  | text => text

/-- A time of the day; a minute may have a leap second. -/
def time? (text : List Char) : Option (List Char) := do
  let (_, rest) ← twoDigits? 0 23 text
  let (_, rest) ← twoDigits? 0 59 (← skip? ':' rest)
  let (_, rest) ← twoDigits? 0 60 (← skip? ':' rest)
  return skipFraction rest

/-- The offset of a time zone may be missing; one that has begun must be complete. -/
def zone? : List Char → Option (List Char)
  | [] => some []
  | mark :: rest =>
      if mark = 'Z' ∨ mark = 'z' then some rest
      else if mark = '+' ∨ mark = '-' then do
        let (_, rest) ← twoDigits? 0 23 rest
        let (_, rest) ← twoDigits? 0 59 (← skip? ':' rest)
        return rest
      else some (mark :: rest)

/-- A time may follow a date after a blank or a letter. -/
def dayTime? : List Char → Option (List Char)
  | mark :: rest =>
      if mark = 'T' ∨ mark = 't' ∨ mark = ' ' then
        match time? rest with
        | some rest => zone? rest
        | none => some (mark :: rest)
      else some (mark :: rest)
  | [] => some []

/-- A date, a date with a time, or a time. -/
def moment? (text : List Char) : Option (List Char) :=
  match date? text with
  | some rest => dayTime? rest
  | none => time? text

end BenchPrinter.Toml
