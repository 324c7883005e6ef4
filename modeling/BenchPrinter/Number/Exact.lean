import BenchPrinter.Number.Power

/-!
The exact value of a number. A double is a whole number of powers of two, so it has one exact value;
every text that the printer writes about a number is computed from that value.
-/

namespace BenchPrinter

/-- The exact value keeps its sign apart, so that a negative zero differs from zero. -/
inductive Exact where
  | undefined
  | infinite (negative : Bool)
  | finite (negative : Bool) (numerator denominator : Nat)
deriving DecidableEq

/-- A decimal literal denotes itself. -/
instance : OfScientific Exact where
  ofScientific mantissa below exponent :=
    if below then .finite false mantissa (tenTo exponent)
    else .finite false (mantissa * tenTo exponent) 1

namespace Exact

/-- Negation flips the sign, also of a zero. -/
def neg : Exact → Exact
  | undefined => undefined
  | infinite negative => infinite (!negative)
  | finite negative numerator denominator => finite (!negative) numerator denominator

instance : Neg Exact := ⟨neg⟩

/-- This is the value of a mantissa scaled by a power of two. -/
def ofBinary (negative : Bool) (mantissa : Nat) (exponent : Int) : Exact :=
  if 0 ≤ exponent then finite negative (mantissa * twoTo exponent.toNat) 1
  else finite negative mantissa (twoTo (-exponent).toNat)

/-- A rational is its own exact value. -/
def ofRat (value : Rat) : Exact :=
  finite (value.num < 0) value.num.natAbs value.den

end Exact

/-- These are the three fields of the bit pattern of a double. -/
structure DoublePattern where
  negative : Bool
  exponent : Nat
  fraction : Nat
deriving DecidableEq

namespace DoublePattern

def ofFloat (value : Float) : DoublePattern :=
  let bits := value.toBits.toNat
  ⟨bits / twoTo 63 == 1, bits / twoTo 52 % twoTo 11, bits % twoTo 52⟩

/-- A pattern with the greatest exponent is no number. -/
def isFinite (pattern : DoublePattern) : Bool :=
  pattern.exponent != 2047

/-- The smallest exponent has no hidden leading bit. -/
def mantissa (pattern : DoublePattern) : Nat :=
  if pattern.exponent = 0 then pattern.fraction else twoTo 52 + pattern.fraction

/-- The mantissa counts units of this power of two. -/
def scale (pattern : DoublePattern) : Int :=
  (max pattern.exponent 1 : Nat) - 1075

def exact (pattern : DoublePattern) : Exact :=
  if pattern.isFinite then .ofBinary pattern.negative pattern.mantissa pattern.scale
  else if pattern.fraction = 0 then .infinite pattern.negative
  else .undefined

end DoublePattern

/-- The exact value of a double is read off its bits. -/
def Exact.ofFloat (value : Float) : Exact :=
  (DoublePattern.ofFloat value).exact

end BenchPrinter
