import BenchPrinter.Number.Exact

/-!
Decimal numerals. A numeral is read as an exact decimal and converted to the nearest double in one
step; a numeral above every double is infinite.
-/

namespace BenchPrinter

/-- This numeral is worth `digits / 10 ^ places`, negated when it has a minus sign. -/
structure Numeral where
  negative : Bool
  digits : Nat
  places : Nat
deriving DecidableEq

/-- The value of a digit between `0` and `9`, and nothing for any other character. -/
def asciiDigit? (character : Char) : Option Nat :=
  if '0' ≤ character ∧ character ≤ '9' then some (character.toNat - '0'.toNat) else none

/-- The number that a run of digits spells, continued from the digits before it. -/
def readDigits : Nat → List Char → Option Nat
  | number, [] => some number
  | number, character :: rest =>
      match asciiDigit? character with
      | some digit => readDigits (10 * number + digit) rest
      | none => none

namespace Numeral

/-- The sign is taken off first. -/
def splitSign : List Char → Bool × List Char
  | '-' :: rest => (true, rest)
  | '+' :: rest => (false, rest)
  | text => (false, text)

/-- At least one digit stands before the point; the digits after it may be missing. -/
def read? (text : List Char) : Option Numeral :=
  let (negative, body) := splitSign text
  let whole := body.takeWhile (· ≠ '.')
  let fraction := (body.dropWhile (· ≠ '.')).drop 1
  if whole.isEmpty then none
  else
    match readDigits 0 (whole ++ fraction) with
    | some digits => some ⟨negative, digits, fraction.length⟩
    | none => none

end Numeral

/-- The double nearest to `digits * 10 ^ exponent`. Far outside the range of doubles the answer is
known without computing the power. -/
def nearestDouble (digits : Nat) (exponent : Int) : Float :=
  let size : Int := (Nat.toDigits 10 digits).length + exponent
  if digits = 0 then 0.0
  else if 400 < size then 1.0 / 0.0
  else if size < -400 then 0.0
  else if 0 ≤ exponent then Float.ofScientific digits false exponent.toNat
  else Float.ofScientific digits true (-exponent).toNat

end BenchPrinter
