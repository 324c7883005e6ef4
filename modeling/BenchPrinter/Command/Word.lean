import BenchPrinter.Number.Quantity
import BenchPrinter.Printer.Axis
import BenchPrinter.Text.Digit

/-!
Words on a command line. A word is a letter followed by a number. The first letter that is followed
by a number counts; the number is the longest text of its form. A number with a digit outside `0` to
`9` is found like any other, but it has no value, and no later word is tried in its place.
-/

namespace BenchPrinter

/-- The three forms of a number that a word can ask for. -/
inductive NumberForm where
  | signed
  | unsigned
  | whole
deriving DecidableEq

/-- The longest run of digits, and what follows it. -/
def digitRun (text : List Char) : List Char × List Char :=
  (text.takeWhile isDecimalDigit, text.dropWhile isDecimalDigit)

theorem digitRun_append (text : List Char) : (digitRun text).1 ++ (digitRun text).2 = text :=
  List.takeWhile_append_dropWhile

/-- The fraction is a point and the digits after it, which may be missing. -/
def fractionRun : List Char → List Char
  | '.' :: rest => '.' :: (digitRun rest).1
  | _ => []

namespace NumberForm

/-- At least one digit stands before the point. -/
def unsigned? (text : List Char) : Option (List Char) :=
  let (digits, rest) := digitRun text
  if digits.isEmpty then none else some (digits ++ fractionRun rest)

/-- The longest number of the form at the beginning of the text. -/
def longest? : NumberForm → List Char → Option (List Char)
  | signed, '+' :: rest => (unsigned? rest).map ('+' :: ·)
  | signed, '-' :: rest => (unsigned? rest).map ('-' :: ·)
  | signed, text => unsigned? text
  | unsigned, text => unsigned? text
  | whole, text =>
      let digits := (digitRun text).1
      if digits.isEmpty then none else some digits

end NumberForm

/-- The number after the first of the letters that a number follows. -/
def findWord? (letters : List Char) (form : NumberForm) : List Char → Option (List Char)
  | [] => none
  | letter :: rest =>
      if letters.contains letter then
        match form.longest? rest with
        | some number => some number
        | none => findWord? letters form rest
      else findWord? letters form rest

namespace Words

variable {α : Type} [Quantity α]

/-- The value of the first word; a word without a value hides every later one. -/
def value? (letters : List Char) (form : NumberForm) (line : List Char) : Option α :=
  match findWord? letters form line with
  | some number => (Numeral.read? number).map Quantity.ofNumeral
  | none => none

def coordinate? (axis : Axis) (line : List Char) : Option α :=
  value? [axis.letter] .signed line

def target? (line : List Char) : Option α :=
  value? ['S'] .unsigned line

/-- A blocking heat also takes its target from an `R` word. -/
def waitTarget? (line : List Char) : Option α :=
  value? ['S', 'R'] .unsigned line

/-- The percentage is kept as it is written. -/
def feedPercent? (line : List Char) : Option (List Char) :=
  findWord? ['S'] .whole line

/-- The fan number is kept as it is written. -/
def fan? (line : List Char) : Option (List Char) :=
  findWord? ['P'] .whole line

/-- A homing line that names no axis means every axis. -/
def homingAxes (line : List Char) : List Axis :=
  let named := Axis.all.filter fun axis => line.contains axis.letter
  if named.isEmpty then Axis.all else named

end Words

end BenchPrinter
