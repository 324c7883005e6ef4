import BenchPrinter.Document.Json.Number
import BenchPrinter.Document.Json.Writer
import BenchPrinter.Proofs.Document.Doubles

/-!
Numbers in JSON, written and read. An integer of 64 bits comes back. Of a double the digits come
back, and what they are read as depends on one multiplication or division.
-/

namespace BenchPrinter.Json

/-- Nothing follows that could belong to a number. -/
structure EndsNumber (rest : List Char) : Prop where
  digit : EndsDigits rest
  point : rest.head? ≠ some '.'
  power : rest.head? ≠ some 'e' ∧ rest.head? ≠ some 'E'

section

variable {spelling : Spelling} {rest : List Char}

theorem powerDigits?_none (ends : EndsNumber rest) : powerDigits? rest = some (none, rest) := by
  obtain ⟨small, capital⟩ := ends.power
  rcases rest with _ | ⟨mark, rest⟩
  · rfl
  · rw [List.head?_cons, Ne, Option.some_inj] at small capital
    rw [powerDigits?, if_neg (not_or.2 ⟨small, capital⟩)]

theorem powerDigits?_powerText (ends : EndsNumber rest) (power : Option Int) :
    powerDigits? (Spelling.powerText power ++ rest) = some (power, rest) := by
  rcases power with _ | power
  · exact powerDigits?_none ends
  · have run := leadingDigits_append (isDigits_toDigits power.natAbs) ends.digit
    have spells := spelled_toDigits power.natAbs
    have nonempty : (Nat.toDigits 10 power.natAbs).map digitValue ≠ [] :=
      fun none => Nat.toDigits_ne_nil (List.map_eq_nil_iff.1 none)
    generalize (Nat.toDigits 10 power.natAbs).map digitValue = digits at run spells nonempty
    rcases digits with _ | ⟨digit, digits⟩
    · exact absurd rfl nonempty
    · rw [Spelling.powerText, List.cons_append, List.cons_append, powerDigits?,
        if_pos (.inl rfl)]
      by_cases negative : power < 0
      · rw [if_pos negative, Numeral.splitSign]
        dsimp only
        rw [run]
        dsimp only
        rw [spells, if_pos rfl]
        congr 3
        omega
      · rw [if_neg negative, Numeral.splitSign]
        dsimp only
        rw [run]
        dsimp only
        rw [spells, if_neg Bool.false_ne_true]
        congr 3
        omega

theorem endsDigits_powerText (ends : EndsNumber rest) (power : Option Int) :
    EndsDigits (Spelling.powerText power ++ rest) := by
  rcases power with _ | power
  · exact ends.digit
  · intro mark first
    obtain rfl : 'e' = mark := Option.some_inj.1 first
    rfl

theorem fractionDigits?_spelling (proper : spelling.IsProper) (ends : EndsNumber rest) :
    fractionDigits? ((if spelling.fraction.isEmpty then [] else '.' :: spelling.fraction) ++
      (Spelling.powerText spelling.power ++ rest)) =
        some (spelling.fraction.map digitValue, Spelling.powerText spelling.power ++ rest) := by
  have stops := endsDigits_powerText ends spelling.power
  have noPoint : (Spelling.powerText spelling.power ++ rest).head? ≠ some '.' := by
    rcases spelling.power with _ | power
    · exact ends.point
    · exact fun point => absurd (Option.some_inj.1 point) (by decide)
  rcases form : spelling.fraction with _ | ⟨first, others⟩
  · rw [List.isEmpty_nil, if_pos rfl, List.nil_append]
    generalize Spelling.powerText spelling.power ++ rest = after at noPoint
    rw [fractionDigits?]
    · rfl
    · rintro others rfl
      exact noPoint rfl
  · have run := leadingDigits_append proper.fraction stops
    rw [form] at run
    rw [List.isEmpty_cons, if_neg Bool.false_ne_true, List.cons_append, fractionDigits?, run]
    rfl

theorem endsDigits_fraction (spelling : Spelling) (ends : EndsNumber rest) :
    EndsDigits ((if spelling.fraction.isEmpty then [] else '.' :: spelling.fraction) ++
      (Spelling.powerText spelling.power ++ rest)) := by
  split
  · exact endsDigits_powerText ends spelling.power
  · intro mark first
    obtain rfl : '.' = mark := Option.some_inj.1 first
    rfl

theorem wholeDigits?_spelling (proper : spelling.IsProper) (ends : EndsDigits rest) :
    wholeDigits? (spelling.whole ++ rest) = some (spelling.whole.map digitValue, rest) := by
  have run := leadingDigits_append proper.whole ends
  have some := proper.some
  have leading := proper.leading
  have digits := proper.whole
  rw [wholeDigits?, run]
  generalize spelling.whole = whole at *
  rcases whole with _ | ⟨first, _ | ⟨second, others⟩⟩
  · exact absurd rfl some
  · rw [List.map_cons, List.map_nil]
    cases digitValue first <;> rfl
  · have nonzero : digitValue first ≠ 0 := by
      intro zero
      rcases leading with single | head
      · simp at single
      · have isDigit := Char.isDigit_iff_toNat.1 (digits first List.mem_cons_self)
        rw [digitValue] at zero
        have same : first.toNat = '0'.toNat := by omega
        exact head (congrArg Option.some (Char.toNat_inj.1 same))
    rcases form : digitValue first with _ | value
    · exact absurd form nonzero
    · simp [form]

/-- The parts of a number are read as they were written. -/
theorem numberText?_spelling (proper : spelling.IsProper) (negative : Bool)
    (ends : EndsNumber rest) :
    numberText? ((if negative then ['-'] else []) ++ spelling.text ++ rest) =
      some (⟨negative, spelling.whole.map digitValue, spelling.fraction.map digitValue,
        spelling.power⟩, rest) := by
  have wholeRead := wholeDigits?_spelling proper (endsDigits_fraction spelling ends)
  have fractionRead := fractionDigits?_spelling proper ends
  have powerRead := powerDigits?_powerText ends spelling.power
  have noMinus : spelling.whole.head? ≠ some '-' := by
    intro minus
    have isDigit := proper.whole '-' (List.mem_of_mem_head? minus)
    exact absurd isDigit (by decide)
  rw [Spelling.text, List.append_assoc, List.append_assoc, List.append_assoc]
  cases negative with
  | true => simp only [if_true, List.cons_append, List.nil_append, numberText?, wholeRead,
      fractionRead, powerRead]
  | false =>
      rw [if_neg Bool.false_ne_true, List.nil_append, numberText?]
      · simp only [wholeRead, fractionRead, powerRead]
      · intro others form
        rcases whole : spelling.whole with _ | ⟨first, digits⟩
        · exact proper.some whole
        · rw [whole] at form noMinus
          exact noMinus (congrArg List.head? form)

end

/-- Digits that spell a number of 64 bits all fit. -/
theorem takeFitting_map (significand : Nat) (text : List Char)
    (fits : Nat.ofDigitChars 10 text significand < UInt64.size) :
    takeFitting significand (text.map digitValue) =
      (Nat.ofDigitChars 10 text significand, []) := by
  induction text generalizing significand with
  | nil => rfl
  | cons character text inductionHypothesis =>
      rw [Nat.ofDigitChars_cons] at fits ⊢
      have first : 10 * significand + digitValue character < UInt64.size := by
        refine Nat.lt_of_le_of_lt ?_ fits
        rw [Nat.ofDigitChars_eq_ofDigitChars_zero]
        have scale : 0 < 10 ^ text.length := Nat.pow_pos (by decide)
        have grown := Nat.le_mul_of_pos_left
          (10 * significand + (character.toNat - '0'.toNat)) scale
        rw [digitValue]
        omega
      rw [List.map_cons, takeFitting, if_pos first]
      exact inductionHypothesis _ fits

/-- An integer with its sign fits 64 bits, and so does one without a sign. -/
def FitsInteger (value : Int) : Prop := -twoTo 63 ≤ value ∧ value < UInt64.size

theorem value_integer {value : Int} (fits : FitsInteger value) :
    (NumberText.mk (decide (value < 0)) ((integerSpelling value.natAbs).whole.map digitValue) []
      none).value = .integer value := by
  have bound : twoTo 63 < UInt64.size := by decide
  obtain ⟨least, most⟩ := fits
  have small : Nat.ofDigitChars 10 (Nat.toDigits 10 value.natAbs) 0 < UInt64.size := by
    rw [Nat.ofDigitChars_ten_toDigits]
    omega
  have taken := takeFitting_map 0 _ small
  rw [Nat.ofDigitChars_ten_toDigits] at taken
  rw [NumberText.value, integerSpelling, taken]
  dsimp only
  have integer : (([] : List Nat).isEmpty && NumberText.isInteger
      ⟨decide (value < 0), (Nat.toDigits 10 value.natAbs).map digitValue, [], none⟩
        value.natAbs) = true := by
    rw [NumberText.isInteger]
    simp only [List.isEmpty_nil, Option.isNone_none, Bool.true_and, Bool.or_eq_true,
      Bool.not_eq_true', decide_eq_false_iff_not, Bool.and_eq_true, decide_eq_true_eq]
    omega
  rw [if_pos integer]
  congr 1
  split <;> rename_i sign <;> rw [decide_eq_true_eq] at sign <;> omega

theorem numberText?_integer {value : Int} {rest : List Char} (fits : FitsInteger value)
    (ends : EndsNumber rest) :
    (numberText? ((toString value).toList ++ rest)).map
      (fun (number, rest) => (number.value, rest)) = some (.integer value, rest) := by
  rw [toString_eq, numberText?_spelling (integerSpelling_proper _) _ ends]
  exact congrArg (fun data => some (data, rest)) (value_integer fits)

/-- The double that the digits of a double are read as. -/
def reread? (value : Float) : Option Float :=
  (scaled? (doubleStyle.spelling value).digits (doubleStyle.spelling value).exponent).map
    fun magnitude => if (DoublePattern.ofFloat value).negative then -magnitude else magnitude

/-- What the reader makes of a finite double. -/
def echo (value : Float) : Data :=
  (reread? value).elim .unreadable .decimal

theorem doubleStyle_short (exponent : Int) (positional : doubleStyle.isPositional exponent = true) :
    exponent ≤ 15 := (of_decide_eq_true positional).2

theorem doubleSpelling_marked (value : Float) :
    (doubleStyle.spelling value).fraction ≠ [] ∨ (doubleStyle.spelling value).power ≠ none := by
  unfold DoubleStyle.spelling
  dsimp only
  split
  · exact .inl (Decimal.positional_marked _).1
  · exact .inr nofun

theorem numberText?_double {value : Float} {rest : List Char} (finite : Double.IsFinite value)
    (ends : EndsNumber rest) :
    (numberText? ((doubleStyle.write value).toList ++ rest)).map
      (fun (number, rest) => (number.value, rest)) = some (echo value, rest) := by
  have proper : (doubleStyle.spelling value).IsProper :=
    DoubleStyle.spelling_proper (by decide) value
  have fits := DoubleStyle.spelling_fits doubleStyle_short value
  have marked := doubleSpelling_marked value
  rw [DoubleStyle.write_eq rfl finite, numberText?_spelling proper _ ends, echo, reread?]
  refine congrArg (fun data => some (data, rest)) ?_
  generalize doubleStyle.spelling value = spelling at *
  rw [Spelling.digits] at fits
  have whole := takeFitting_map 0 spelling.whole
    (Nat.lt_of_le_of_lt (ofDigitChars_le_append _ spelling.fraction) fits)
  rw [Nat.ofDigitChars_append] at fits
  have fraction := takeFitting_map _ spelling.fraction fits
  have noInteger (significand : Nat) : NumberText.isInteger ⟨(DoublePattern.ofFloat value).negative,
      spelling.whole.map digitValue, spelling.fraction.map digitValue, spelling.power⟩ significand =
        false := by
    rw [NumberText.isInteger]
    rcases marked with some | some
    · simp [some]
    · have power : spelling.power.isNone = false := Option.isNone_eq_false_iff.2
        (Option.ne_none_iff_isSome.1 some)
      simp [power]
  have scale : (([] : List Nat).length : Int) - ((spelling.fraction.map digitValue).length -
      ([] : List Nat).length) + spelling.power.getD 0 = spelling.exponent := by
    rw [Spelling.exponent, List.length_map, List.length_nil]
    omega
  rw [NumberText.value, whole]
  dsimp only
  rw [noInteger, Bool.and_false, if_neg Bool.false_ne_true, fraction]
  dsimp only
  rw [scale, Spelling.digits, Nat.ofDigitChars_append]
  cases scaled? (Nat.ofDigitChars 10 spelling.fraction (Nat.ofDigitChars 10 spelling.whole 0))
    spelling.exponent <;> rfl

/-- The small powers of ten are exact. -/
theorem worth_powerOfTen (places : Fin 23) : Double.IsFinite (powerOfTen places) ∧
    Double.worth (powerOfTen places) = 10 ^ places.val := by
  revert places
  decide +kernel

/-- A significand and a power that are both exact are scaled with one rounding. -/
theorem scaled?_of_captures {value : Float} {mantissa significand : Nat} {grid exponent : Int}
    {positive : 0 < mantissa}
    (form : Double.unpacked value = .finite .positive mantissa grid positive)
    (captures : Double.Captures mantissa grid (significand * 10 ^ exponent))
    (finite : value.isInf = false) (fits : significand < 2 ^ 53) (few : |exponent| ≤ 22) :
    scaled? significand exponent = some value := by
  have unit : (0 : Rat) < 10 ^ exponent := by positivity
  have nonzero : (0 : Rat) < significand := pos_of_mul_pos_left (captures.pos positive) unit.le
  obtain ⟨startFinite, startWorth⟩ := Double.toFloat_worth fits
  obtain ⟨low, high⟩ := abs_le.1 few
  obtain ⟨powerFinite, powerWorth⟩ := worth_powerOfTen ⟨exponent.natAbs, by omega⟩
  have powerPositive : (0 : Rat) < 10 ^ exponent.natAbs := by positivity
  rw [scaled?, if_neg (by omega)]
  by_cases whole : 0 ≤ exponent
  · have size : exponent.toNat = exponent.natAbs := by omega
    have product := Double.mul_rounds startFinite powerFinite (by rwa [startWorth])
      (by rwa [powerWorth])
    rw [startWorth, powerWorth, ← zpow_natCast, Int.natAbs_of_nonneg whole] at product
    have reached := captures.reached form product
    rw [if_pos whole, size]
    dsimp only at reached ⊢
    rw [reached, finite]
    rfl
  · have size : (-exponent).toNat = exponent.natAbs := by omega
    have quotient := Double.div_rounds startFinite powerFinite (by rwa [startWorth])
      (by rwa [powerWorth])
    rw [startWorth, powerWorth, div_eq_mul_inv, ← zpow_natCast, ← zpow_neg,
      Int.ofNat_natAbs_of_nonpos (by omega), neg_neg] at quotient
    have reached := captures.reached form quotient
    rw [if_neg whole, if_pos (by omega), size]
    exact congrArg some reached

/-- A double with few digits comes back. -/
theorem reread?_of_short {value : Float} (finite : Double.IsFinite value)
    (fits : (doubleStyle.spelling value).digits < 2 ^ 53)
    (few : |(doubleStyle.spelling value).exponent| ≤ 22) : reread? value = some value := by
  have magnitude : scaled? (doubleStyle.spelling value).digits (doubleStyle.spelling value).exponent =
      some (Double.magnitude value) := by
    rcases Nat.eq_zero_or_pos (DoublePattern.ofFloat value).mantissa with zero | positive
    · have zeroSpelling : doubleStyle.spelling value = Decimal.positionalSpelling ⟨0, 0⟩ := by
        rw [DoubleStyle.spelling, Decimal.shortest, if_pos zero]
        rfl
      rw [zeroSpelling, Double.magnitude, zero, Double.assemble, dif_pos rfl]
      decide +kernel
    · obtain ⟨-, -, captures⟩ :=
        Decimal.shortest_spec doubleStyle.evenTies positive (Double.mantissa_small value)
      have form := Double.unpacked_magnitude finite
      rw [Double.assemble_of_pos _ _ positive] at form
      rw [← doubleStyle.spelling_worth value] at captures
      exact scaled?_of_captures form captures (Double.magnitude_isInf finite) fits few
  rw [reread?, magnitude, Option.map_some, Double.signed_magnitude finite]

end BenchPrinter.Json
