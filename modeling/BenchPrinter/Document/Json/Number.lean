import BenchPrinter.Document.Data
import BenchPrinter.Document.Reader

/-!
Numbers in JSON. A number without fraction and exponent is an integer as long as it fits 64 bits.
Any other number keeps the leading digits that fit 64 bits, as one significand, and scales it by a
power of ten in double arithmetic; so the double that is read need not be the nearest one.
-/

namespace BenchPrinter.Json

/-- The digits of a number as they are written; a missing part is empty. -/
structure NumberText where
  negative : Bool
  whole : List Nat
  fraction : List Nat
  power : Option Int
deriving DecidableEq

/-- At least one digit, and none after a leading zero. -/
def wholeDigits? (text : List Char) : Option (List Nat × List Char) :=
  match leadingDigits text with
  | ([], _) => none
  | (0 :: _ :: _, _) => none
  | run => some run

/-- A point must be followed by a digit. -/
def fractionDigits? : List Char → Option (List Nat × List Char)
  | '.' :: rest =>
      match leadingDigits rest with
      | ([], _) => none
      | run => some run
  | rest => some ([], rest)

/-- The exponent may have a sign and must have a digit. -/
def powerDigits? : List Char → Option (Option Int × List Char)
  | mark :: rest =>
      if mark = 'e' ∨ mark = 'E' then
        let (negative, body) := Numeral.splitSign rest
        match leadingDigits body with
        | ([], _) => none
        | (run, rest) =>
            let size : Int := spelled 10 run
            some (some (if negative then -size else size), rest)
      else some (none, mark :: rest)
  | [] => some (none, [])

def numberText? (text : List Char) : Option (NumberText × List Char) :=
  let (negative, body) :=
    match text with
    | '-' :: rest => (true, rest)
    | other => (false, other)
  match wholeDigits? body with
  | none => none
  | some (whole, rest) =>
      match fractionDigits? rest with
      | none => none
      | some (fraction, rest) =>
          match powerDigits? rest with
          | none => none
          | some (power, rest) => some (⟨negative, whole, fraction, power⟩, rest)

/-- Digits are taken as long as the significand fits 64 bits; the others are left. -/
def takeFitting : Nat → List Nat → Nat × List Nat
  | significand, [] => (significand, [])
  | significand, digit :: rest =>
      if 10 * significand + digit < UInt64.size then takeFitting (10 * significand + digit) rest
      else (significand, digit :: rest)

/-- The double nearest to a power of ten. -/
def powerOfTen (exponent : Nat) : Float := Float.ofScientific 1 false exponent

/-- One multiplication or division by a power of ten; a very small scale takes two divisions. A
result above every double is refused. -/
def scaled? (significand : Nat) (exponent : Int) : Option Float :=
  let start := significand.toUInt64.toFloat
  if 308 < exponent then if significand = 0 then some start else none
  else if 0 ≤ exponent then
    let result := start * powerOfTen exponent.toNat
    if result.isInf then none else some result
  else if -308 ≤ exponent then some (start / powerOfTen (-exponent).toNat)
  else if -616 ≤ exponent then
    some (start / powerOfTen 308 / powerOfTen (-exponent - 308).toNat)
  else some 0.0

namespace NumberText

/-- A negative zero is no integer. -/
def isInteger (text : NumberText) (significand : Nat) : Bool :=
  text.fraction.isEmpty && text.power.isNone &&
    (!text.negative || (0 < significand && significand ≤ twoTo 63))

def value (text : NumberText) : Data :=
  let (significand, beyond) := takeFitting 0 text.whole
  if beyond.isEmpty && text.isInteger significand then
    .integer (if text.negative then -(significand : Int) else significand)
  else
    let (significand, dropped) := takeFitting significand text.fraction
    let places : Int := text.fraction.length - dropped.length
    match scaled? significand (beyond.length - places + text.power.getD 0) with
    | some magnitude => .decimal (if text.negative then -magnitude else magnitude)
    | none => .unreadable

end NumberText

end BenchPrinter.Json
