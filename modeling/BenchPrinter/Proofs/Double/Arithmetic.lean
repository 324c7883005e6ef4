import BenchPrinter.Proofs.Double.Nearest

/-!
Arithmetic on finite doubles gives a double nearest to the exact result, as long as that lies below
the limit.
-/

namespace BenchPrinter.Double

open Float.Model Float.Model.UnpackedFloat

theorem nearest_pack {form : UnpackedFloat} (canonical : Canonical form)
    (finite : form.isFinite = true) : Nearest (unpackedWorth form) (pack form) := by
  have unpacks := unpacked_pack canonical
  refine ⟨by rw [IsFinite, unpacks]; exact finite, ?_⟩
  intro other _
  rw [worth, unpacks, sub_self, abs_zero]
  exact abs_nonneg _

theorem nearest_pack_zero (sign : Sign) : Nearest 0 (pack (.zero sign)) := by
  have canonical : Canonical (.zero sign) := trivial
  exact nearest_pack canonical rfl

/-- A double is the nearest one to its own worth. -/
theorem nearest_worth {value : Float} (finite : IsFinite value) :
    Nearest (worth value) (pack (unpacked value)) :=
  nearest_pack (canonical_unpacked value) finite

theorem log2_shiftLeft {mantissa : Nat} (positive : 0 < mantissa) (shift : Nat) :
    (mantissa <<< shift).log2 = mantissa.log2 + shift := by
  have shifted : 0 < mantissa * 2 ^ shift := by positivity
  rw [Nat.shiftLeft_eq, Nat.log2_eq_iff shifted.ne']
  constructor
  · rw [pow_add]
    exact Nat.mul_le_mul_right _ (Nat.log2_self_le positive.ne')
  · rw [Nat.add_right_comm, pow_add]
    exact Nat.mul_lt_mul_of_pos_right Nat.lt_log2_self (by positivity)

/-- Shifting to a finer grid changes the form of a number only. -/
theorem shiftLeft_worth (mantissa : Nat) {exponent grid : Int} (finer : grid ≤ exponent) :
    ((mantissa <<< (exponent - grid).toNat : Nat) : Rat) * 2 ^ grid = mantissa * 2 ^ exponent := by
  obtain ⟨shift, rfl⟩ : ∃ shift : Nat, exponent = shift + grid :=
    ⟨(exponent - grid).toNat, by omega⟩
  rw [add_sub_cancel_right, Int.toNat_natCast, Nat.shiftLeft_eq, zpow_add₀ two_ne_zero,
    zpow_natCast]
  push_cast
  ring

theorem round_rounded (sign : Sign) {mantissa : Nat} (exponent : Int) (positive : 0 < mantissa) :
    ∃ count grid, Rounded (mantissa * 2 ^ exponent) count grid ∧
      UnpackedFloat.round Format.binary64 sign mantissa exponent = gridPoint sign count grid := by
  obtain ⟨shift, amount⟩ : ∃ shift : Nat,
      (exponent - gridExponent mantissa exponent).toNat = shift := ⟨_, rfl⟩
  have decreased : decreaseExponent mantissa exponent (gridExponent mantissa exponent) =
      (mantissa <<< shift, exponent - shift) := by
    rw [decreaseExponent, amount]
  have sameGrid : gridExponent (mantissa <<< shift) (exponent - shift) =
      gridExponent mantissa exponent := by
    rw [gridExponent, gridExponent, log2_shiftLeft positive]
    congr 1
    push_cast
    ring
  have sameWorth := shiftLeft_worth mantissa (show exponent - shift ≤ exponent by omega)
  rw [sub_sub_cancel, Int.toNat_natCast] at sameWorth
  obtain ⟨count, grid, rounded, reached⟩ := roundWithAccuracy_rounded sign
    (standsFor_exact (mantissa <<< shift))
    (show exponent - shift ≤ gridExponent (mantissa <<< shift) (exponent - shift) by omega)
  rw [sameWorth] at rounded
  refine ⟨count, grid, rounded, ?_⟩
  rw [← reached, UnpackedFloat.round, targetExponent_eq, decreased]

/-- Normalizing rounds a signed mantissa to the nearest double. -/
theorem normalize_nearest {mantissa exponent : Int} (zeroSign : Sign)
    (small : |(mantissa : Rat) * 2 ^ exponent| < limit) :
    Nearest (mantissa * 2 ^ exponent)
      (pack (normalize Format.binary64 mantissa exponent zeroSign)) := by
  have nearest_round (sign : Sign) {size : Nat} (positive : 0 < size)
      (within : (size : Rat) * 2 ^ exponent < limit) :
      Nearest (signed sign (size * 2 ^ exponent))
        (pack (UnpackedFloat.round Format.binary64 sign size exponent)) := by
    obtain ⟨count, grid, rounded, reached⟩ := round_rounded sign exponent positive
    rw [reached]
    exact nearest_of_rounded sign rounded within
  rw [abs_lt] at small
  rcases lt_trichotomy mantissa 0 with negative | rfl | positive
  · obtain ⟨size, rfl⟩ : ∃ size : Nat, mantissa = -size := ⟨mantissa.natAbs, by omega⟩
    have nearest := nearest_round .negative (show 0 < size by omega) (by
      push_cast at small
      linarith)
    rw [UnpackedFloat.normalize, (compare_lt_iff_lt).2 negative, neg_neg, Int.toNat_natCast]
    simpa [signed] using nearest
  · rw [UnpackedFloat.normalize, (compare_eq_iff_eq).2 rfl, Int.cast_zero, zero_mul]
    exact nearest_pack_zero zeroSign
  · obtain ⟨size, rfl⟩ : ∃ size : Nat, mantissa = size := ⟨mantissa.natAbs, by omega⟩
    have nearest := nearest_round .positive (show 0 < size by omega) (by
      push_cast at small
      linarith)
    rw [UnpackedFloat.normalize, (compare_gt_iff_gt).2 positive, Int.toNat_natCast]
    simpa [signed] using nearest

theorem apply_shiftLeft (sign : Sign) (mantissa : Nat) {exponent grid : Int}
    (finer : grid ≤ exponent) :
    (sign.apply ((mantissa <<< (exponent - grid).toNat : Nat) : Int) : Rat) * 2 ^ grid =
      sign.apply mantissa * 2 ^ exponent := by
  have shifted := shiftLeft_worth mantissa finer
  cases sign with
  | positive => simpa only [Sign.apply, Int.cast_natCast] using shifted
  | negative => simp only [Sign.apply, Int.cast_neg, Int.cast_natCast, neg_mul, shifted]

/-- A finite double is a zero or has a mantissa. -/
theorem IsFinite.form {value : Float} (finite : IsFinite value) :
    (∃ sign, unpacked value = .zero sign) ∨
      ∃ sign mantissa exponent positive,
        unpacked value = .finite sign mantissa exponent positive := by
  unfold IsFinite at finite
  cases reached : unpacked value with
  | zero sign => exact .inl ⟨sign, rfl⟩
  | finite sign mantissa exponent positive => exact .inr ⟨sign, mantissa, exponent, positive, rfl⟩
  | notANumber => simp [reached, UnpackedFloat.isFinite] at finite
  | infinity sign => simp [reached, UnpackedFloat.isFinite] at finite

section

variable {first second : Float}

theorem add_nearest (firstFinite : IsFinite first) (secondFinite : IsFinite second)
    (small : |worth first + worth second| < limit) :
    Nearest (worth first + worth second) (first + second) := by
  change Nearest _ (pack (UnpackedFloat.add Format.binary64 (unpacked first) (unpacked second)))
  have firstNearest := nearest_worth firstFinite
  have secondNearest := nearest_worth secondFinite
  unfold worth at small firstNearest secondNearest ⊢
  rcases firstFinite.form with ⟨firstSign, firstForm⟩ |
      ⟨firstSign, firstMantissa, firstExponent, firstPositive, firstForm⟩ <;>
    rcases secondFinite.form with ⟨secondSign, secondForm⟩ |
      ⟨secondSign, secondMantissa, secondExponent, secondPositive, secondForm⟩ <;>
    rw [firstForm, secondForm] at small <;> rw [firstForm] at firstNearest <;>
    rw [secondForm] at secondNearest <;> rw [firstForm, secondForm]
  · simp only [unpackedWorth, UnpackedFloat.add, add_zero]
    split_ifs
    · exact nearest_pack_zero firstSign
    · exact nearest_pack_zero .positive
  · simpa [unpackedWorth, UnpackedFloat.add] using secondNearest
  · simpa [unpackedWorth, UnpackedFloat.add] using firstNearest
  · simp only [unpackedWorth] at small ⊢
    have sum := congrArg₂ (· + ·)
      (apply_shiftLeft firstSign firstMantissa (min_le_left firstExponent secondExponent))
      (apply_shiftLeft secondSign secondMantissa (min_le_right firstExponent secondExponent))
    simp only [← add_mul, ← Int.cast_add] at sum
    rw [← sum] at small ⊢
    exact normalize_nearest .positive small

theorem sub_nearest (firstFinite : IsFinite first) (secondFinite : IsFinite second)
    (small : |worth first - worth second| < limit) :
    Nearest (worth first - worth second) (first - second) := by
  change Nearest _ (pack (UnpackedFloat.sub Format.binary64 (unpacked first) (unpacked second)))
  have canonical := canonical_unpacked second
  have firstNearest := nearest_worth firstFinite
  unfold worth at small firstNearest ⊢
  rcases firstFinite.form with ⟨firstSign, firstForm⟩ |
      ⟨firstSign, firstMantissa, firstExponent, firstPositive, firstForm⟩ <;>
    rcases secondFinite.form with ⟨secondSign, secondForm⟩ |
      ⟨secondSign, secondMantissa, secondExponent, secondPositive, secondForm⟩ <;>
    rw [firstForm, secondForm] at small <;> rw [firstForm] at firstNearest <;>
    rw [secondForm] at canonical <;> rw [firstForm, secondForm]
  · simp only [unpackedWorth, UnpackedFloat.sub, sub_zero]
    split_ifs
    · exact nearest_pack_zero firstSign
    · exact nearest_pack_zero .positive
  · have mirrored : Canonical (.finite (-secondSign) secondMantissa secondExponent secondPositive) :=
      canonical
    have nearest := nearest_pack mirrored rfl
    rw [unpackedWorth_finite, signed_neg, ← unpackedWorth_finite _ _ _ secondPositive] at nearest
    simpa [unpackedWorth, UnpackedFloat.sub] using nearest
  · simpa [unpackedWorth, UnpackedFloat.sub] using firstNearest
  · simp only [unpackedWorth] at small ⊢
    have difference := congrArg₂ (· - ·)
      (apply_shiftLeft firstSign firstMantissa (min_le_left firstExponent secondExponent))
      (apply_shiftLeft secondSign secondMantissa (min_le_right firstExponent secondExponent))
    simp only [← sub_mul, ← Int.cast_sub] at difference
    rw [← difference] at small ⊢
    exact normalize_nearest .positive small

theorem signed_mul (firstSign secondSign : Sign) (one other : Rat) :
    signed (firstSign * secondSign) (one * other) = signed firstSign one * signed secondSign other := by
  cases firstSign <;> cases secondSign
  · exact (neg_mul_neg one other).symm
  · exact (neg_mul one other).symm
  · exact (mul_neg one other).symm
  · rfl

theorem signed_div (firstSign secondSign : Sign) (one other : Rat) :
    signed (firstSign / secondSign) (one / other) = signed firstSign one / signed secondSign other := by
  cases firstSign <;> cases secondSign
  · exact (neg_div_neg_eq one other).symm
  · exact (neg_div other one).symm
  · exact (div_neg one).symm
  · rfl

/-- Two mantissas are long enough together to be rounded at once. -/
theorem product_enough {firstSign secondSign : Sign} {firstMantissa secondMantissa : Nat}
    {firstExponent secondExponent : Int} {firstPositive : 0 < firstMantissa}
    {secondPositive : 0 < secondMantissa}
    (firstCanonical : Canonical (.finite firstSign firstMantissa firstExponent firstPositive))
    (secondCanonical :
      Canonical (.finite secondSign secondMantissa secondExponent secondPositive)) :
    firstExponent + secondExponent ≤
      gridExponent (firstMantissa * secondMantissa) (firstExponent + secondExponent) := by
  have nonzero : firstMantissa * secondMantissa ≠ 0 := by positivity
  have long (full : 2 ^ 52 ≤ firstMantissa * secondMantissa) :
      52 ≤ (firstMantissa * secondMantissa).log2 := (Nat.le_log2 nonzero).2 full
  unfold gridExponent
  rcases firstCanonical.2.2.2 with full | least
  · have length := long (full.trans (Nat.le_mul_of_pos_right _ secondPositive))
    omega
  rcases secondCanonical.2.2.2 with full | leastToo
  · have length := long (full.trans (Nat.le_mul_of_pos_left _ firstPositive))
    omega
  · omega

/-- A product is rounded once. -/
theorem mul_rounded (firstSign secondSign : Sign) {firstMantissa secondMantissa : Nat}
    {firstExponent secondExponent : Int} (firstPositive : 0 < firstMantissa)
    (secondPositive : 0 < secondMantissa)
    (enough : firstExponent + secondExponent ≤
      gridExponent (firstMantissa * secondMantissa) (firstExponent + secondExponent)) :
    ∃ count grid,
      Rounded (firstMantissa * 2 ^ firstExponent * (secondMantissa * 2 ^ secondExponent)) count
        grid ∧
      UnpackedFloat.mul Format.binary64
          (.finite firstSign firstMantissa firstExponent firstPositive)
          (.finite secondSign secondMantissa secondExponent secondPositive) =
        gridPoint (firstSign * secondSign) count grid := by
  have product : (firstMantissa : Rat) * 2 ^ firstExponent * (secondMantissa * 2 ^ secondExponent) =
      (firstMantissa * secondMantissa : Nat) * 2 ^ (firstExponent + secondExponent) := by
    rw [zpow_add₀ two_ne_zero]
    push_cast
    ring
  rw [product]
  exact roundWithAccuracy_rounded (firstSign * secondSign)
    (standsFor_exact (firstMantissa * secondMantissa)) enough

theorem mul_nearest (firstFinite : IsFinite first) (secondFinite : IsFinite second)
    (small : |worth first * worth second| < limit) :
    Nearest (worth first * worth second) (first * second) := by
  change Nearest _ (pack (UnpackedFloat.mul Format.binary64 (unpacked first) (unpacked second)))
  have firstCanonical := canonical_unpacked first
  have secondCanonical := canonical_unpacked second
  unfold worth at small ⊢
  rcases firstFinite.form with ⟨firstSign, firstForm⟩ |
      ⟨firstSign, firstMantissa, firstExponent, firstPositive, firstForm⟩ <;>
    rcases secondFinite.form with ⟨secondSign, secondForm⟩ |
      ⟨secondSign, secondMantissa, secondExponent, secondPositive, secondForm⟩ <;>
    rw [firstForm, secondForm] at small <;> rw [firstForm] at firstCanonical <;>
    rw [secondForm] at secondCanonical <;> rw [firstForm, secondForm]
  · simpa [unpackedWorth, UnpackedFloat.mul] using nearest_pack_zero (firstSign * secondSign)
  · simpa [unpackedWorth, UnpackedFloat.mul] using nearest_pack_zero (firstSign * secondSign)
  · simpa [unpackedWorth, UnpackedFloat.mul] using nearest_pack_zero (firstSign * secondSign)
  · obtain ⟨count, grid, rounded, reached⟩ := mul_rounded firstSign secondSign firstPositive
      secondPositive (product_enough firstCanonical secondCanonical)
    rw [unpackedWorth_finite, unpackedWorth_finite, ← signed_mul] at small ⊢
    rw [abs_signed] at small
    rw [reached]
    exact nearest_of_rounded _ rounded ((le_abs_self _).trans_lt small)

/-- The remainder of a division tells on which side of the middle the quotient lies. -/
theorem standsFor_quotient (dividend : Nat) {divisor : Nat} (positive : 0 < divisor) :
    StandsFor (.ofMantissaAndAccuracy (dividend / divisor)
      (accuracyOfFraction (dividend % divisor) divisor)) (dividend / divisor : Rat) := by
  have below : dividend % divisor < divisor := Nat.mod_lt _ positive
  have divisorPositive : (0 : Rat) < divisor := by exact_mod_cast positive
  have rest : (dividend / divisor : Rat) - (dividend / divisor : Nat) =
      (dividend % divisor : Nat) / divisor := by
    have parts : (dividend : Rat) = divisor * (dividend / divisor : Nat) +
        (dividend % divisor : Nat) := by exact_mod_cast (Nat.div_add_mod dividend divisor).symm
    field_simp
    linarith
  have less : ((dividend % divisor : Nat) : Rat) < divisor := by exact_mod_cast below
  unfold accuracyOfFraction
  split_ifs with exact
  · have none : ((dividend % divisor : Nat) : Rat) = 0 := by exact_mod_cast exact
    simp only [StandsFor, ExtendedMantissa.ofMantissaAndAccuracy, Residue]
    rw [rest, none, zero_div]
  · have some : (0 : Rat) < (dividend % divisor : Nat) := by
      exact_mod_cast Nat.pos_of_ne_zero exact
    rcases order : compare (2 * (dividend % divisor)) divisor <;>
      simp only [StandsFor, ExtendedMantissa.ofMantissaAndAccuracy, Residue] <;> rw [rest]
    · have early : (2 : Rat) * (dividend % divisor : Nat) < divisor := by
        exact_mod_cast compare_lt_iff_lt.1 order
      rw [div_lt_div_iff₀ divisorPositive two_pos]
      exact ⟨div_pos some divisorPositive, by linarith⟩
    · have middle : (2 : Rat) * (dividend % divisor : Nat) = divisor := by
        exact_mod_cast compare_eq_iff_eq.1 order
      rw [div_eq_div_iff divisorPositive.ne' two_ne_zero]
      linarith
    · have late : (divisor : Rat) < 2 * (dividend % divisor : Nat) := by
        exact_mod_cast compare_gt_iff_gt.1 order
      rw [div_lt_div_iff₀ two_pos divisorPositive, div_lt_one divisorPositive]
      exact ⟨by linarith, less⟩

/-- A quotient is computed to at least 53 bits, or on the finest grid. -/
theorem quotient_enough {dividend divisor : Nat} {dividendExponent divisorExponent grid : Int}
    (dividendPositive : 0 < dividend) (divisorPositive : 0 < divisor)
    (chosen : grid = min (dividendExponent - divisorExponent) (Format.binary64.targetExponent
      (totalExponent dividend dividendExponent - totalExponent divisor divisorExponent))) :
    grid ≤ gridExponent
      ((dividend <<< (dividendExponent - divisorExponent - grid).toNat) / divisor) grid := by
  have target (total : Int) : Format.binary64.targetExponent total = max (total - 53) (-1074) := rfl
  rw [target, totalExponent, totalExponent] at chosen
  by_cases finest : grid ≤ -1074
  · exact finest.trans (le_max_right _ _)
  have shift : 53 + divisor.log2 ≤
      dividend.log2 + (dividendExponent - divisorExponent - grid).toNat := by omega
  have large : 2 ^ 52 ≤
      (dividend <<< (dividendExponent - divisorExponent - grid).toNat) / divisor := by
    rw [Nat.le_div_iff_mul_le divisorPositive, Nat.shiftLeft_eq]
    calc 2 ^ 52 * divisor ≤ 2 ^ 52 * 2 ^ (divisor.log2 + 1) :=
          Nat.mul_le_mul_left _ Nat.lt_log2_self.le
      _ = 2 ^ (53 + divisor.log2) := by rw [← pow_add]; congr 1; omega
      _ ≤ 2 ^ (dividend.log2 + (dividendExponent - divisorExponent - grid).toNat) :=
          Nat.pow_le_pow_right two_pos shift
      _ = 2 ^ dividend.log2 * 2 ^ (dividendExponent - divisorExponent - grid).toNat := pow_add _ _ _
      _ ≤ dividend * 2 ^ (dividendExponent - divisorExponent - grid).toNat :=
          Nat.mul_le_mul_right _ (Nat.log2_self_le dividendPositive.ne')
  have length := (Nat.le_log2 (show _ ≠ 0 by omega)).2 large
  unfold gridExponent
  omega

/-- A quotient is rounded once. -/
theorem div_rounded (firstSign secondSign : Sign) {firstMantissa secondMantissa : Nat}
    (firstExponent secondExponent : Int) (firstPositive : 0 < firstMantissa)
    (secondPositive : 0 < secondMantissa) :
    ∃ count grid,
      Rounded (firstMantissa * 2 ^ firstExponent / (secondMantissa * 2 ^ secondExponent)) count
        grid ∧
      UnpackedFloat.div Format.binary64
          (.finite firstSign firstMantissa firstExponent firstPositive)
          (.finite secondSign secondMantissa secondExponent secondPositive) =
        gridPoint (firstSign / secondSign) count grid := by
  obtain ⟨grid, chosen⟩ : ∃ grid, grid = min (firstExponent - secondExponent)
      (Format.binary64.targetExponent (totalExponent firstMantissa firstExponent -
        totalExponent secondMantissa secondExponent)) := ⟨_, rfl⟩
  have enough := quotient_enough firstPositive secondPositive chosen
  have shifted := shiftLeft_worth firstMantissa (show grid ≤ firstExponent - secondExponent by
    rw [chosen]; exact min_le_left _ _)
  obtain ⟨count, points, rounded, reached⟩ := roundWithAccuracy_rounded
    (firstSign / secondSign) (standsFor_quotient _ secondPositive) enough
  have quotient : (firstMantissa : Rat) * 2 ^ firstExponent / (secondMantissa * 2 ^ secondExponent) =
      ((firstMantissa <<< (firstExponent - secondExponent - grid).toNat : Nat) : Rat) /
        secondMantissa * 2 ^ grid := by
    rw [div_mul_eq_mul_div, shifted, zpow_sub₀ two_ne_zero]
    field_simp
  rw [← quotient] at rounded
  refine ⟨count, points, rounded, ?_⟩
  rw [← reached, UnpackedFloat.div, divCore, chosen]

theorem div_nearest (firstFinite : IsFinite first) (secondFinite : IsFinite second)
    (nonzero : worth second ≠ 0) (small : |worth first / worth second| < limit) :
    Nearest (worth first / worth second) (first / second) := by
  change Nearest _ (pack (UnpackedFloat.div Format.binary64 (unpacked first) (unpacked second)))
  unfold worth at nonzero small ⊢
  rcases firstFinite.form with ⟨firstSign, firstForm⟩ |
      ⟨firstSign, firstMantissa, firstExponent, firstPositive, firstForm⟩ <;>
    rcases secondFinite.form with ⟨secondSign, secondForm⟩ |
      ⟨secondSign, secondMantissa, secondExponent, secondPositive, secondForm⟩ <;>
    rw [secondForm] at nonzero <;> rw [firstForm, secondForm] at small ⊢
  · exact absurd rfl nonzero
  · simpa [unpackedWorth, UnpackedFloat.div] using nearest_pack_zero (firstSign / secondSign)
  · exact absurd rfl nonzero
  · obtain ⟨count, grid, rounded, reached⟩ := div_rounded firstSign secondSign firstExponent
      secondExponent firstPositive secondPositive
    rw [unpackedWorth_finite, unpackedWorth_finite, ← signed_div] at small ⊢
    rw [abs_signed] at small
    rw [reached]
    exact nearest_of_rounded _ rounded ((le_abs_self _).trans_lt small)

end

end BenchPrinter.Double
