import BenchPrinter.Number.Exact

/-!
The shortest decimal that reads back as a given double. A double stands for every real number that
rounds to it; of the decimals in that interval the one with the fewest digits is chosen, and of
those the one nearest to the double.
-/

namespace BenchPrinter

/-- This decimal is worth `digits * 10 ^ exponent`. -/
structure Decimal where
  digits : Nat
  exponent : Int
deriving DecidableEq

/-- The real numbers that round to one positive double, in units of `1 / denominator`. -/
structure RoundingInterval where
  value : Nat
  below : Nat
  above : Nat
  denominator : Nat
  closed : Bool

namespace RoundingInterval

/-- Just above a power of two the gap below is half the gap above; the ends belong to an even
mantissa. -/
def ofPattern (pattern : DoublePattern) : RoundingInterval :=
  let mantissa := pattern.mantissa
  let narrow := pattern.fraction = 0 ∧ 1 < pattern.exponent
  let up := if 0 ≤ pattern.scale then twoTo pattern.scale.toNat else 1
  let down := if 0 ≤ pattern.scale then 1 else twoTo (-pattern.scale).toNat
  { value := 4 * mantissa * up
    below := (4 * mantissa - if narrow then 1 else 2) * up
    above := (4 * mantissa + 2) * up
    denominator := 4 * down
    closed := mantissa % 2 = 0 }

/-- The decimal `digits * 10 ^ exponent` lies in the interval. -/
def holds (interval : RoundingInterval) (decimal : Decimal) : Bool :=
  let up := if 0 ≤ decimal.exponent then tenTo decimal.exponent.toNat else 1
  let down := if 0 ≤ decimal.exponent then 1 else tenTo (-decimal.exponent).toNat
  let number := decimal.digits * up * interval.denominator
  if interval.closed then interval.below * down ≤ number && number ≤ interval.above * down
  else interval.below * down < number && number < interval.above * down

/-- The decimal grid point at or below the value, and twice the remainder against one grid step. -/
def floorOnGrid (interval : RoundingInterval) (exponent : Int) : Nat × Ordering :=
  let up := if 0 ≤ exponent then tenTo exponent.toNat else 1
  let down := if 0 ≤ exponent then 1 else tenTo (-exponent).toNat
  let step := interval.denominator * up
  let number := interval.value * down
  (number / step, compare (2 * (number % step)) step)

/-- Of the two neighbours on the grid the nearer one that lies in the interval; a tie goes to the
even neighbour, or always up. -/
def onGrid? (interval : RoundingInterval) (evenTies : Bool) (exponent : Int) : Option Decimal :=
  let (floor, remainder) := interval.floorOnGrid exponent
  let lower : Decimal := ⟨floor, exponent⟩
  let upper : Decimal := ⟨floor + 1, exponent⟩
  let down := remainder = .lt || (remainder = .eq && evenTies && floor % 2 = 0)
  let (nearer, farther) := if down then (lower, upper) else (upper, lower)
  if 0 < nearer.digits && interval.holds nearer then some nearer
  else if 0 < farther.digits && interval.holds farther then some farther
  else none

/-- The exponent of the leading decimal digit of the value. -/
def leadingExponent (interval : RoundingInterval) : Int :=
  let guess : Int :=
    (Nat.toDigits 10 interval.value).length - (Nat.toDigits 10 interval.denominator).length
  let reached :=
    if 0 ≤ guess then interval.denominator * tenTo guess.toNat ≤ interval.value
    else interval.denominator ≤ interval.value * tenTo (-guess).toNat
  if reached then guess else guess - 1

/-- The first grid with a hit wins; each step makes the grid ten times finer. -/
def search (interval : RoundingInterval) (evenTies : Bool) : Nat → Int → Decimal
  | 0, exponent => ⟨(interval.floorOnGrid exponent).1, exponent⟩
  | tries + 1, exponent =>
      match interval.onGrid? evenTies exponent with
      | some decimal => decimal
      | none => interval.search evenTies tries (exponent - 1)

end RoundingInterval

namespace Decimal

/-- Zeros at the end of the digits move into the exponent. -/
def trim : Nat → Decimal → Decimal
  | 0, decimal => decimal
  | tries + 1, decimal =>
      if decimal.digits ≠ 0 ∧ decimal.digits % 10 = 0 then
        trim tries ⟨decimal.digits / 10, decimal.exponent + 1⟩
      else decimal

/-- Seventeen digits always suffice for a double. -/
def shortest (evenTies : Bool) (pattern : DoublePattern) : Decimal :=
  if pattern.mantissa = 0 then ⟨0, 0⟩
  else
    let interval := RoundingInterval.ofPattern pattern
    trim 18 (interval.search evenTies 17 interval.leadingExponent)

/-- The digits of a decimal without an exponent part. -/
def positional (decimal : Decimal) : List Char :=
  let digits := Nat.toDigits 10 decimal.digits
  if 0 ≤ decimal.exponent then
    if decimal.digits = 0 then digits
    else digits ++ List.replicate decimal.exponent.toNat '0'
  else
    let places := (-decimal.exponent).toNat
    if places < digits.length then
      digits.take (digits.length - places) ++ '.' :: digits.drop (digits.length - places)
    else '0' :: '.' :: List.replicate (places - digits.length) '0' ++ digits

/-- A decimal without digits after the point. -/
def isWhole (decimal : Decimal) : Bool :=
  decimal.digits = 0 || 0 ≤ decimal.exponent

/-- The exponent of the leading digit. -/
def leading (decimal : Decimal) : Int :=
  decimal.exponent + (Nat.toDigits 10 decimal.digits).length - 1

/-- One digit before the point, then `e`, a sign and the exponent. -/
def scientific (decimal : Decimal) : List Char :=
  let exponent := decimal.leading
  let power := (if exponent < 0 then '-' else '+') :: Nat.toDigits 10 exponent.natAbs
  match Nat.toDigits 10 decimal.digits with
  | [] => 'e' :: power
  | [digit] => digit :: 'e' :: power
  | digit :: rest => digit :: '.' :: rest ++ 'e' :: power

end Decimal

/-- How a document writes doubles. -/
structure DoubleStyle where
  undefined : String
  infinite : Bool → String
  wholeSuffix : String
  evenTies : Bool
  isPositional : Int → Bool

/-- The sign stands in front of the shortest digits, also of a negative zero. -/
def DoubleStyle.write (style : DoubleStyle) (value : Float) : String :=
  let pattern := DoublePattern.ofFloat value
  let sign := if pattern.negative then "-" else ""
  if pattern.isFinite then
    let decimal := Decimal.shortest style.evenTies pattern
    if style.isPositional decimal.leading then
      sign ++ String.ofList decimal.positional ++ if decimal.isWhole then style.wholeSuffix else ""
    else sign ++ String.ofList decimal.scientific
  else if pattern.fraction = 0 then style.infinite pattern.negative
  else style.undefined

/-- Plain text has no exponents and no suffix. -/
def DoubleStyle.plain : DoubleStyle where
  undefined := "NaN"
  infinite negative := if negative then "-inf" else "inf"
  wholeSuffix := ""
  evenTies := false
  isPositional _ := true

end BenchPrinter
