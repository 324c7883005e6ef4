import BenchPrinter.Number.Exact

/-!
Numbers with a fixed count of decimals. The exact value is rounded once, to the nearest multiple of
the last decimal, and a tie goes to the even neighbour. The sign is kept when the digits are all
zero.
-/

namespace BenchPrinter

/-- The nearest whole number to a quotient; a half goes to the even neighbour. -/
def roundHalfEven (numerator denominator : Nat) : Nat :=
  let quotient := numerator / denominator
  let twice := 2 * (numerator % denominator)
  if twice < denominator then quotient
  else if denominator < twice then quotient + 1
  else quotient + quotient % 2

theorem roundHalfEven_one (numerator : Nat) : roundHalfEven numerator 1 = numerator := by
  simp [roundHalfEven, Nat.mod_one]

/-- The last digits of the number in some base, exactly `width` of them. -/
def lastDigits (base : Nat) : Nat → Nat → List Char
  | 0, _ => []
  | width + 1, number => lastDigits base width (number / base) ++ [Nat.digitChar (number % base)]

@[simp] theorem length_lastDigits (base width number : Nat) :
    (lastDigits base width number).length = width := by
  induction width generalizing number with
  | zero => rfl
  | succ width inductionHypothesis => simp [lastDigits, inductionHypothesis]

/-- The number counts units of the last decimal place. -/
def pointed (places number : Nat) : List Char :=
  Nat.toDigits 10 (number / tenTo places) ++ '.' :: lastDigits 10 places (number % tenTo places)

namespace Exact

/-- The text without a sign. -/
def unsignedFixed (places : Nat) : Exact → List Char
  | undefined => "NaN".toList
  | infinite _ => "inf".toList
  | finite _ numerator denominator =>
      pointed places (roundHalfEven (numerator * tenTo places) denominator)

def isNegative : Exact → Bool
  | undefined => false
  | infinite negative => negative
  | finite negative _ _ => negative

/-- A minus sign stands in front of negative values only. -/
def fixed (places : Nat) (value : Exact) : String :=
  String.ofList (if value.isNegative then '-' :: value.unsignedFixed places
    else value.unsignedFixed places)

/-- A sign stands in front of every value. -/
def fixedSigned (places : Nat) (value : Exact) : String :=
  String.ofList ((if value.isNegative then '-' else '+') :: value.unsignedFixed places)

end Exact

end BenchPrinter
