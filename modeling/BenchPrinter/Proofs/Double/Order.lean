import BenchPrinter.Number.Quantity
import BenchPrinter.Proofs.Double.Arithmetic

/-!
Comparisons of doubles. IsFinite doubles are ordered like their worths, and positive infinity lies
above all of them.
-/

namespace BenchPrinter.Double

open Float.Model Float.Model.UnpackedFloat

/-- A mantissa on a finer grid is worth less, since the coarser one is full. -/
theorem worth_lt_of_exponent {lower higher : Nat} {finer coarser : Int} (fits : lower < 2 ^ 53)
    (least : -1074 ≤ finer) (full : 2 ^ 52 ≤ higher ∨ coarser = -1074) (ordered : finer < coarser) :
    (lower : Rat) * 2 ^ finer < higher * 2 ^ coarser := by
  have large : 2 ^ 52 ≤ higher := full.resolve_right (by omega)
  have largeWorth : (2 : Rat) ^ 52 ≤ higher := by exact_mod_cast large
  have smallWorth : (lower : Rat) < 2 ^ 53 := by exact_mod_cast fits
  have step : (2 : Rat) ^ (finer + 1) ≤ 2 ^ coarser :=
    zpow_le_zpow_right₀ one_le_two (by omega)
  calc (lower : Rat) * 2 ^ finer < 2 ^ 53 * 2 ^ finer := by gcongr
    _ = 2 ^ 52 * 2 ^ (finer + 1) := by rw [zpow_add₀ two_ne_zero]; ring
    _ ≤ higher * 2 ^ coarser := by gcongr

/-- The order that a comparison gives is the order of two numbers. -/
def Describes (order : Ordering) (one other : Rat) : Prop :=
  match order with
  | .lt => one < other
  | .eq => one = other
  | .gt => other < one

theorem describes_swap {order : Ordering} {one other : Rat} (describes : Describes order one other) :
    Describes order.swap (-one) (-other) := by
  cases order with
  | lt => exact neg_lt_neg describes
  | eq => exact congrArg Neg.neg describes
  | gt => exact neg_lt_neg describes

theorem compare_describes {mantissa other : Nat} {exponent otherExponent : Int}
    (fits : mantissa < 2 ^ 53) (least : -1074 ≤ exponent)
    (full : 2 ^ 52 ≤ mantissa ∨ exponent = -1074)
    (otherFits : other < 2 ^ 53) (otherLeast : -1074 ≤ otherExponent)
    (otherFull : 2 ^ 52 ≤ other ∨ otherExponent = -1074) :
    Describes ((compare exponent otherExponent).then (compare mantissa other))
      (mantissa * 2 ^ exponent) (other * 2 ^ otherExponent) := by
  rcases order : compare exponent otherExponent
  · exact worth_lt_of_exponent fits least otherFull (compare_lt_iff_lt.1 order)
  · obtain rfl := compare_eq_iff_eq.1 order
    have step : (0 : Rat) < 2 ^ exponent := by positivity
    rcases inner : compare mantissa other
    · have less : (mantissa : Rat) < other := by exact_mod_cast compare_lt_iff_lt.1 inner
      exact mul_lt_mul_of_pos_right less step
    · obtain rfl := compare_eq_iff_eq.1 inner
      rfl
    · have more : (other : Rat) < mantissa := by exact_mod_cast compare_gt_iff_gt.1 inner
      exact mul_lt_mul_of_pos_right more step
  · exact worth_lt_of_exponent otherFits otherLeast full (compare_gt_iff_gt.1 order)

section

variable {first second : Float}

theorem compare_of_finite (firstFinite : IsFinite first) (secondFinite : IsFinite second) :
    ∃ order, (unpacked first).compare (unpacked second) = some order ∧
      Describes order (worth first) (worth second) := by
  have firstCanonical := canonical_unpacked first
  have secondCanonical := canonical_unpacked second
  unfold worth
  rcases firstFinite.form with ⟨firstSign, firstForm⟩ |
      ⟨firstSign, firstMantissa, firstExponent, firstPositive, firstForm⟩ <;>
    rcases secondFinite.form with ⟨secondSign, secondForm⟩ |
      ⟨secondSign, secondMantissa, secondExponent, secondPositive, secondForm⟩ <;>
    rw [firstForm] at firstCanonical <;> rw [secondForm] at secondCanonical <;>
    rw [firstForm, secondForm]
  · exact ⟨.eq, rfl, rfl⟩
  · have size : (0 : Rat) < secondMantissa * 2 ^ secondExponent := by positivity
    rw [unpackedWorth_finite]
    cases secondSign with
    | negative => exact ⟨.gt, rfl, neg_neg_of_pos size⟩
    | positive => exact ⟨.lt, rfl, size⟩
  · have size : (0 : Rat) < firstMantissa * 2 ^ firstExponent := by positivity
    rw [unpackedWorth_finite]
    cases firstSign with
    | negative => exact ⟨.lt, rfl, neg_neg_of_pos size⟩
    | positive => exact ⟨.gt, rfl, size⟩
  · obtain ⟨firstFits, firstLeast, -, firstFull⟩ := firstCanonical
    obtain ⟨secondFits, secondLeast, -, secondFull⟩ := secondCanonical
    have describes := compare_describes firstFits firstLeast firstFull secondFits secondLeast
      secondFull
    have firstSize : (0 : Rat) < firstMantissa * 2 ^ firstExponent := by positivity
    have secondSize : (0 : Rat) < secondMantissa * 2 ^ secondExponent := by positivity
    rw [unpackedWorth_finite, unpackedWorth_finite]
    cases firstSign <;> cases secondSign
    · exact ⟨_, rfl, describes_swap describes⟩
    · exact ⟨.lt, rfl, (neg_neg_of_pos firstSize).trans secondSize⟩
    · exact ⟨.gt, rfl, (neg_neg_of_pos secondSize).trans firstSize⟩
    · exact ⟨_, rfl, describes⟩

theorem lt_iff_compare :
    first < second ↔ (unpacked first).compare (unpacked second) = some .lt := by
  change decide (first.toModel < second.toModel) = true ↔ _
  rw [decide_eq_true_iff]
  change ((unpacked first).compare (unpacked second) == some .lt) = true ↔ _
  exact beq_iff_eq

theorem le_iff_compare :
    first ≤ second ↔ ∃ order, (unpacked first).compare (unpacked second) = some order ∧
      order.isLE = true := by
  change decide (first.toModel ≤ second.toModel) = true ↔ _
  rw [decide_eq_true_iff]
  change ((unpacked first).compare (unpacked second)).any (·.isLE) = true ↔ _
  exact Option.any_eq_true _ _

theorem beq_iff_compare :
    (first == second) = true ↔ (unpacked first).compare (unpacked second) = some .eq := by
  change ((unpacked first).compare (unpacked second) == some .eq) = true ↔ _
  exact beq_iff_eq

/-- Also of doubles that are no numbers, none is at most another unless it is less or the same. -/
theorem not_le_of_not_lt (notLess : ¬ first < second) (differs : (first == second) = false) :
    ¬ first ≤ second := by
  intro atMost
  obtain ⟨order, compared, lessOrSame⟩ := le_iff_compare.1 atMost
  cases order with
  | lt => exact notLess (lt_iff_compare.2 compared)
  | eq => simp [beq_iff_compare.2 compared] at differs
  | gt => simp at lessOrSame

theorem lt_iff (firstFinite : IsFinite first) (secondFinite : IsFinite second) :
    first < second ↔ worth first < worth second := by
  obtain ⟨order, compared, describes⟩ := compare_of_finite firstFinite secondFinite
  rw [lt_iff_compare, compared]
  cases order with
  | lt => exact iff_of_true rfl describes
  | eq => exact iff_of_false (by decide) (le_of_eq describes.symm).not_gt
  | gt => exact iff_of_false (by decide) (lt_asymm describes)

theorem le_iff (firstFinite : IsFinite first) (secondFinite : IsFinite second) :
    first ≤ second ↔ worth first ≤ worth second := by
  obtain ⟨order, compared, describes⟩ := compare_of_finite firstFinite secondFinite
  rw [le_iff_compare, compared]
  cases order with
  | lt => exact iff_of_true ⟨.lt, rfl, rfl⟩ (le_of_lt describes)
  | eq => exact iff_of_true ⟨.eq, rfl, rfl⟩ (le_of_eq describes)
  | gt => exact iff_of_false (by simp) (not_le_of_gt describes)

theorem beq_iff (firstFinite : IsFinite first) (secondFinite : IsFinite second) :
    (first == second) = true ↔ worth first = worth second := by
  obtain ⟨order, compared, describes⟩ := compare_of_finite firstFinite secondFinite
  rw [beq_iff_compare, compared]
  cases order with
  | lt => exact iff_of_false (by decide) (ne_of_lt describes)
  | eq => exact iff_of_true rfl describes
  | gt => exact iff_of_false (by decide) (ne_of_gt describes)

/-- The magnitude of a double is exact. -/
theorem abs_worth (finite : IsFinite first) :
    IsFinite first.abs ∧ worth first.abs = |worth first| := by
  have canonical := canonical_unpacked first
  change IsFinite (pack (unpacked first).abs) ∧ worth (pack (unpacked first).abs) = _
  have mirrored : Canonical (unpacked first).abs := by
    cases form : unpacked first <;> rw [form] at canonical <;> exact canonical
  rw [IsFinite, worth, worth, unpacked_pack mirrored]
  rcases finite.form with ⟨sign, form⟩ | ⟨sign, mantissa, exponent, positive, form⟩ <;> rw [form]
  · exact ⟨rfl, abs_zero.symm⟩
  · have size : (0 : Rat) < mantissa * 2 ^ exponent := by positivity
    refine ⟨rfl, ?_⟩
    rw [UnpackedFloat.abs, unpackedWorth_finite, unpackedWorth_finite, abs_signed, signed,
      abs_of_pos size]

end

/-- Positive infinity. -/
def Endless (value : Float) : Prop := unpacked value = .infinity .positive

namespace Endless

variable {endless value : Float}

theorem gt (isEndless : Endless endless) (finite : IsFinite value) : value < endless := by
  rw [lt_iff_compare, show unpacked endless = _ from isEndless]
  rcases finite.form with ⟨sign, form⟩ | ⟨sign, mantissa, exponent, positive, form⟩ <;> rw [form] <;>
    cases sign <;> rfl

theorem not_le (isEndless : Endless endless) (finite : IsFinite value) : ¬ endless ≤ value := by
  have compared : (unpacked endless).compare (unpacked value) = some .gt := by
    rw [show unpacked endless = _ from isEndless]
    rcases finite.form with ⟨sign, form⟩ | ⟨sign, mantissa, exponent, positive, form⟩ <;> rw [form] <;>
      cases sign <;> rfl
  rw [le_iff_compare, compared]
  simp

theorem not_lt (isEndless : Endless endless) (finite : IsFinite value) : ¬ endless < value := by
  intro less
  rw [lt_iff_compare] at less
  exact isEndless.not_le finite (le_iff_compare.2 ⟨.lt, less, rfl⟩)

theorem not_beq (isEndless : Endless endless) (finite : IsFinite value) :
    (endless == value) = false := by
  rw [Bool.eq_false_iff]
  intro same
  rw [beq_iff_compare] at same
  exact isEndless.not_le finite (le_iff_compare.2 ⟨.eq, same, rfl⟩)

theorem sub (isEndless : Endless endless) (finite : IsFinite value) : Endless (endless - value) := by
  change unpacked (pack (UnpackedFloat.sub Format.binary64 (unpacked endless) (unpacked value))) = _
  have computed : UnpackedFloat.sub Format.binary64 (unpacked endless) (unpacked value) =
      .infinity .positive := by
    rw [show unpacked endless = _ from isEndless]
    rcases finite.form with ⟨sign, form⟩ | ⟨sign, mantissa, exponent, positive, form⟩ <;> rw [form] <;>
      cases sign <;> rfl
  have canonical : Canonical (.infinity .positive) := trivial
  rw [computed, unpacked_pack canonical]

end Endless

end BenchPrinter.Double
