import BenchPrinter.Number.Fixed
import BenchPrinter.Number.Numeral

/-!
The numbers that the printer computes with. It runs on doubles; its arithmetic can also be read over
the rationals, where every step is exact.
-/

namespace BenchPrinter

/-- A number type has the arithmetic of the heater model, decimal literals and an exact value. -/
class Quantity (α : Type) extends
    Add α, Sub α, Mul α, Div α, Neg α, LT α, LE α, BEq α, OfScientific α where
  magnitude : α → α
  exact : α → Exact
  decidableLess : DecidableLT α
  decidableAtMost : DecidableLE α

attribute [reducible, instance] Quantity.decidableLess Quantity.decidableAtMost

instance : Quantity Float where
  decidableLess := inferInstance
  decidableAtMost := inferInstance
  magnitude := Float.abs
  exact := Exact.ofFloat

instance : Quantity Rat where
  decidableLess := inferInstance
  decidableAtMost := inferInstance
  magnitude := Rat.abs
  exact := Exact.ofRat

namespace Quantity

variable {α : Type} [Quantity α]

/-- A whole number is a decimal without decimals. -/
def ofNat (number : Nat) : α :=
  OfScientific.ofScientific number false 0

/-- A numeral denotes the number nearest to it. -/
def ofNumeral (numeral : Numeral) : α :=
  let magnitude : α := OfScientific.ofScientific numeral.digits true numeral.places
  if numeral.negative then -magnitude else magnitude

/-- The text with a fixed count of decimals. -/
def fixed (places : Nat) (value : α) : String :=
  (exact value).fixed places

end Quantity

end BenchPrinter
