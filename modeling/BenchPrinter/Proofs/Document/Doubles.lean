import BenchPrinter.Document.Json.Writer
import BenchPrinter.Document.Toml.Writer
import BenchPrinter.Proofs.Document.Digits
import BenchPrinter.Proofs.Double.Shortest

/-!
Doubles in documents. Their digits denote the shortest decimal, so that reading them to the nearest
double gives the double back.
-/

namespace BenchPrinter.DoubleStyle

/-- The digits of a double in a document. -/
def spelling (style : DoubleStyle) (value : Float) : Spelling :=
  let decimal := Decimal.shortest style.evenTies (DoublePattern.ofFloat value)
  if style.isPositional decimal.leading then decimal.positionalSpelling
  else decimal.scientificSpelling

variable {style : DoubleStyle} {value : Float}

theorem shortest_zero (evenTies : Bool) (value : Float)
    (zero : (Decimal.shortest evenTies (DoublePattern.ofFloat value)).digits = 0) :
    Decimal.shortest evenTies (DoublePattern.ofFloat value) = ⟨0, 0⟩ := by
  rcases Nat.eq_zero_or_pos (DoublePattern.ofFloat value).mantissa with none | some
  · rw [Decimal.shortest, if_pos none]
  · have positive := (Decimal.shortest_spec evenTies some (Double.mantissa_small value)).1
    omega

theorem exponent_zero (evenTies : Bool) (value : Float)
    (zero : (Decimal.shortest evenTies (DoublePattern.ofFloat value)).digits = 0) :
    (Decimal.shortest evenTies (DoublePattern.ofFloat value)).exponent = 0 := by
  rw [shortest_zero evenTies value zero]

/-- A finite double is written as its sign and its digits. -/
theorem write_eq (suffix : style.wholeSuffix = ".0") (finite : Double.IsFinite value) :
    (style.write value).toList =
      (if (DoublePattern.ofFloat value).negative then ['-'] else []) ++
        (style.spelling value).text := by
  have sign : (if (DoublePattern.ofFloat value).negative then "-" else "").toList =
      if (DoublePattern.ofFloat value).negative then ['-'] else [] := by
    split <;> rfl
  unfold write spelling
  dsimp only
  rw [if_pos ((Double.pattern_finite value).2 finite)]
  split
  · have tail : (if (Decimal.shortest style.evenTies (DoublePattern.ofFloat value)).isWhole = true
        then style.wholeSuffix else "").toList =
        if (Decimal.shortest style.evenTies (DoublePattern.ofFloat value)).isWhole = true
        then ['.', '0'] else [] := by
      rw [suffix]
      split <;> rfl
    rw [String.toList_append, String.toList_append, String.toList_ofList, sign, tail,
      List.append_assoc, Decimal.positional_text (exponent_zero _ value)]
  · rw [String.toList_append, String.toList_ofList, sign, Decimal.scientific_text]

/-- A style that writes zero without an exponent puts no zero in front of another digit. -/
theorem spelling_proper (plainZero : style.isPositional 0 = true) (value : Float) :
    (style.spelling value).IsProper := by
  unfold spelling
  dsimp only
  split
  · exact Decimal.positional_proper (exponent_zero _ value)
  · rename_i scientific
    refine Decimal.scientific_proper fun zero => scientific ?_
    rw [shortest_zero _ value zero]
    exact plainZero

theorem spelling_worth (style : DoubleStyle) (value : Float) :
    ((style.spelling value).digits : Rat) * 10 ^ (style.spelling value).exponent =
      (Decimal.shortest style.evenTies (DoublePattern.ofFloat value)).worth := by
  unfold spelling
  dsimp only
  rw [Decimal.worth]
  split
  · have parts := Decimal.positional_parts (exponent_zero style.evenTies value)
    split at parts
    · obtain ⟨digits, exponent, whole⟩ := parts
      obtain ⟨power, form⟩ := Int.eq_ofNat_of_zero_le whole
      rw [digits, exponent, form, Int.toNat_natCast]
      push_cast
      rw [zpow_natCast, pow_succ, zpow_neg_one]
      field_simp
    · rw [parts.1, parts.2]
  · obtain ⟨digits, exponent⟩ := Decimal.scientific_parts
      (Decimal.shortest style.evenTies (DoublePattern.ofFloat value))
    rw [digits, exponent]

/-- The double nearest to the written digits is the double without its sign. -/
theorem nearestDouble_spelling (style : DoubleStyle) (finite : Double.IsFinite value) :
    nearestDouble (style.spelling value).digits (style.spelling value).exponent =
      Double.magnitude value :=
  Double.nearestDouble_of_worth finite (style.spelling_worth value)

theorem shortest_digits_le (evenTies : Bool) (value : Float) :
    (Decimal.shortest evenTies (DoublePattern.ofFloat value)).digits ≤ 10 ^ 17 := by
  rcases Nat.eq_zero_or_pos (DoublePattern.ofFloat value).mantissa with none | some
  · rw [Decimal.shortest, if_pos none]
    exact Nat.zero_le _
  · exact (Decimal.shortest_spec evenTies some (Double.mantissa_small value)).2.1

/-- The digits of a style with short whole numbers fit 64 bits. -/
theorem spelling_fits (short : ∀ exponent, style.isPositional exponent = true → exponent ≤ 15)
    (value : Float) : (style.spelling value).digits < UInt64.size := by
  have few : 10 ^ 17 < UInt64.size := by decide
  have bound := shortest_digits_le style.evenTies value
  unfold spelling
  dsimp only
  split
  · rename_i positional
    have parts := Decimal.positional_parts (exponent_zero style.evenTies value)
    split at parts
    · obtain ⟨digits, -, whole⟩ := parts
      have leading := short _ positional
      rw [Decimal.leading] at leading
      generalize Decimal.shortest style.evenTies (DoublePattern.ofFloat value) = decimal at *
      have many : decimal.digits < 10 ^ (Nat.toDigits 10 decimal.digits).length :=
        (Nat.length_toDigits_le_iff (by decide) Nat.length_toDigits_pos).1 le_rfl
      rw [digits]
      calc decimal.digits * 10 ^ (decimal.exponent.toNat + 1)
          ≤ 10 ^ (Nat.toDigits 10 decimal.digits).length * 10 ^ (decimal.exponent.toNat + 1) :=
            Nat.mul_le_mul_right _ many.le
        _ = 10 ^ ((Nat.toDigits 10 decimal.digits).length + (decimal.exponent.toNat + 1)) :=
            (Nat.pow_add ..).symm
        _ ≤ 10 ^ 17 := Nat.pow_le_pow_right (by decide) (by omega)
        _ < UInt64.size := few
    · rw [parts.1]
      exact bound.trans_lt few
  · rw [(Decimal.scientific_parts _).1]
    exact bound.trans_lt few

end BenchPrinter.DoubleStyle
