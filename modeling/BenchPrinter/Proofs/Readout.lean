import BenchPrinter.Proofs.Double.Places
import BenchPrinter.Proofs.Extraction
import BenchPrinter.Proofs.Numbering
import BenchPrinter.Proofs.Travel

/-!
Commanded coordinates in the position report. A coordinate with two decimals at most is reported
with the digits that it was commanded with.
-/

namespace BenchPrinter

/-- Zeros in front of another digit are left out. -/
def withoutZeros : List Char → List Char
  | '0' :: next :: rest => withoutZeros (next :: rest)
  | digits => digits

section

variable {text whole fraction : List Char} {character : Char}

theorem digitChar_digitValue (isDigit : character.isDigit = true) :
    digitValue character < 10 ∧ Nat.digitChar (digitValue character) = character := by
  obtain ⟨least, greatest⟩ : 48 ≤ character.toNat ∧ character.toNat ≤ 57 :=
    Char.isDigit_iff_toNat.1 isDigit
  have small : character.toNat - 48 < 10 := by omega
  refine ⟨small, Char.toNat_inj.1 ((Nat.toNat_digitChar_of_lt_ten small).trans ?_)⟩
  omega

/-- A number that has begun goes on with the digits that follow. -/
theorem toDigits_ofDigitChars_of_pos {start : Nat} (positive : 0 < start) (digits : IsDigits text) :
    Nat.toDigits 10 (Nat.ofDigitChars 10 text start) = Nat.toDigits 10 start ++ text := by
  induction text generalizing start with
  | nil => rw [Nat.ofDigitChars_nil, List.append_nil]
  | cons first rest inductionHypothesis =>
      obtain ⟨small, same⟩ := digitChar_digitValue (digits first List.mem_cons_self)
      calc Nat.toDigits 10 (Nat.ofDigitChars 10 (first :: rest) start)
          = Nat.toDigits 10 (10 * start + digitValue first) ++ rest :=
            inductionHypothesis (by change 0 < 10 * start + digitValue first; omega) digits.tail
        _ = Nat.toDigits 10 start ++ first :: rest := by
            rw [← Nat.toDigits_append_toDigits (by decide) positive small,
              Nat.toDigits_of_lt_base small, same, List.append_assoc, List.singleton_append]

/-- The digits of a number are those that spell it, without the zeros in front. -/
theorem toDigits_ofDigitChars (some : text ≠ []) (digits : IsDigits text) :
    Nat.toDigits 10 (Nat.ofDigitChars 10 text 0) = withoutZeros text := by
  fun_induction withoutZeros text with
  | case1 next rest inductionHypothesis => exact inductionHypothesis nofun digits.tail
  | case2 text proper =>
      obtain ⟨first, rest, rfl⟩ := List.exists_cons_of_ne_nil some
      obtain ⟨small, same⟩ := digitChar_digitValue (digits first List.mem_cons_self)
      rw [Nat.ofDigitChars_cons, Nat.mul_zero, Nat.zero_add]
      change Nat.toDigits 10 (Nat.ofDigitChars 10 rest (digitValue first)) = first :: rest
      cases rest with
      | nil => rw [Nat.ofDigitChars_nil, Nat.toDigits_of_lt_base small, same]
      | cons next rest =>
          have positive : 0 < digitValue first := by
            rw [Nat.pos_iff_ne_zero]
            intro zero
            rw [zero] at same
            exact proper next rest (congrArg (· :: next :: rest) same.symm)
          rw [toDigits_ofDigitChars_of_pos positive digits.tail, Nat.toDigits_of_lt_base small,
            same]
          rfl

theorem lastDigits_ofDigitChars (digits : IsDigits text) :
    lastDigits 10 text.length (Nat.ofDigitChars 10 text 0) = text := by
  induction text using List.reverseRecOn with
  | nil => rfl
  | append_singleton text last inductionHypothesis =>
      obtain ⟨small, same⟩ := digitChar_digitValue (digits last (by simp))
      have spelled : Nat.ofDigitChars 10 (text ++ [last]) 0 =
          10 * Nat.ofDigitChars 10 text 0 + digitValue last := Nat.ofDigitChars_append 0
      have front : (10 * Nat.ofDigitChars 10 text 0 + digitValue last) / 10 =
          Nat.ofDigitChars 10 text 0 := by omega
      have back : (10 * Nat.ofDigitChars 10 text 0 + digitValue last) % 10 =
          digitValue last := by omega
      rw [spelled, List.length_append, List.length_singleton, lastDigits, front, back, same,
        inductionHypothesis fun digit member => digits digit (List.mem_append_left _ member)]

/-- The digits on both sides of the point are written as they are read. -/
theorem pointed_ofDigitChars (some : whole ≠ []) (wholeDigits : IsDigits whole)
    (fractionDigits : IsDigits fraction) :
    pointed fraction.length (Nat.ofDigitChars 10 (whole ++ fraction) 0) =
      withoutZeros whole ++ '.' :: fraction := by
  have less := ofDigitChars_lt fractionDigits
  rw [pointed, tenTo, Nat.pow_eq, Nat.ofDigitChars_append, Nat.ofDigitChars_eq_ofDigitChars_zero,
    Nat.mul_add_div (Nat.pow_pos (by decide)), Nat.div_eq_of_lt less, Nat.add_zero,
    Nat.mul_add_mod, Nat.mod_eq_of_lt less, toDigits_ofDigitChars some wholeDigits,
    lastDigits_ofDigitChars fractionDigits]

theorem ofDigitChars_withoutZeros (text rest : List Char) :
    Nat.ofDigitChars 10 (withoutZeros text ++ rest) 0 = Nat.ofDigitChars 10 (text ++ rest) 0 := by
  fun_induction withoutZeros text with
  | case1 next others inductionHypothesis => exact inductionHypothesis
  | case2 => rfl

end

namespace WrittenNumber

/-- What the number is worth in exact arithmetic. -/
def worth (number : WrittenNumber) : Rat := Quantity.ofNumeral number.numeral

/-- The same number without a plus sign and without superfluous zeros, with two decimals at
least. -/
def normal (number : WrittenNumber) : WrittenNumber :=
  ⟨if number.sign = some '-' then some '-' else none, withoutZeros number.whole,
    some ((number.fraction.getD []).rightpad 2 '0')⟩

/-- A coordinate of moderate size with two decimals at most, and no negative zero. -/
structure IsCoordinate (number : WrittenNumber) : Prop where
  follows : number.Follows .signed
  digits : IsDigits number.digits
  short : (number.fraction.getD []).length ≤ 2
  moderate : |number.worth| < 10 ^ 9
  nonzero : number.sign = some '-' → number.worth ≠ 0

variable {number : WrittenNumber}

theorem worth_eq (number : WrittenNumber) :
    number.worth = (if number.sign = some '-' then -1 else 1) *
      (number.numeral.digits / 10 ^ number.numeral.places) := by
  have magnitude : (OfScientific.ofScientific number.numeral.digits true number.numeral.places :
      Rat) = number.numeral.digits / 10 ^ number.numeral.places := by
    change Rat.ofScientific _ true _ = _
    rw [Rat.ofScientific_true_def, Rat.mkRat_eq_div]
    push_cast
    rfl
  change (if (number.sign == some '-') = true then
    -(OfScientific.ofScientific number.numeral.digits true number.numeral.places : Rat) else
      OfScientific.ofScientific number.numeral.digits true number.numeral.places) = _
  rw [magnitude]
  by_cases minus : number.sign = some '-' <;> simp [minus]

theorem IsCoordinate.size (coordinate : number.IsCoordinate) :
    (number.numeral.digits / 10 ^ number.numeral.places : Rat) < 10 ^ 9 ∧
      (number.sign = some '-' → number.numeral.digits ≠ 0) := by
  have moderate := coordinate.moderate
  have sign : |(if number.sign = some '-' then -1 else 1 : Rat)| = 1 := by
    split <;> simp
  rw [worth_eq, abs_mul, sign, one_mul, abs_of_nonneg (by positivity)] at moderate
  refine ⟨moderate, fun minus zero => coordinate.nonzero minus ?_⟩
  rw [worth_eq, zero, Nat.cast_zero, zero_div, mul_zero]

theorem length_decimals {digits : List Char} (short : digits.length ≤ 2) :
    (digits.rightpad 2 '0').length = 2 := by
  rw [List.length_rightpad]
  omega

/-- The digits of the normal form count hundredths. -/
theorem digits_scaled (number : WrittenNumber) :
    number.numeral.digits * 10 ^ (2 - number.numeral.places) =
      Nat.ofDigitChars 10 (number.whole ++ (number.fraction.getD []).rightpad 2 '0') 0 := by
  rw [List.rightpad, ← List.append_assoc, Nat.ofDigitChars_append, Nat.ofDigitChars_replicate_zero,
    Nat.mul_comm]
  rfl

/-- The normal form is worth the same. -/
theorem worth_normal (short : (number.fraction.getD []).length ≤ 2) :
    number.normal.worth = number.worth := by
  have digits : number.normal.numeral.digits =
      number.numeral.digits * 10 ^ (2 - number.numeral.places) :=
    (ofDigitChars_withoutZeros number.whole _).trans number.digits_scaled.symm
  have places : number.normal.numeral.places = 2 := length_decimals short
  have sign : number.normal.sign = some '-' ↔ number.sign = some '-' := by
    by_cases minus : number.sign = some '-' <;> simp [normal, minus]
  have power : (10 : Rat) ^ 2 = 10 ^ (2 - number.numeral.places) * 10 ^ number.numeral.places := by
    rw [← pow_add, numeral, Nat.sub_add_cancel short]
  rw [worth_eq, worth_eq, if_congr sign rfl rfl, digits, places, power, Nat.cast_mul, Nat.cast_pow,
    Nat.cast_ofNat, mul_comm (10 ^ (2 - _)), mul_div_mul_right _ _ (by positivity)]

/-- A coordinate is printed in its normal form. -/
theorem fixed_coordinate (coordinate : number.IsCoordinate) :
    Quantity.fixed 2 (Quantity.ofNumeral number.numeral : Float) =
      String.ofList number.normal.text := by
  obtain ⟨bounded, nonzero⟩ := coordinate.size
  have moderate : number.numeral.digits < 2 ^ 46 * 10 ^ number.numeral.places := by
    rw [div_lt_iff₀ (by positivity)] at bounded
    have enough : (10 : Rat) ^ 9 * 10 ^ number.numeral.places ≤
        2 ^ 46 * 10 ^ number.numeral.places := by gcongr; norm_num
    exact_mod_cast bounded.trans_le enough
  have whole : IsDigits number.whole := fun digit member =>
    coordinate.digits digit (List.mem_append_left _ member)
  have fraction : IsDigits ((number.fraction.getD []).rightpad 2 '0') :=
    IsDigits.append (fun digit member => coordinate.digits digit (List.mem_append_right _ member))
      (isDigits_zeros _)
  have decimals := pointed_ofDigitChars coordinate.follows.begun whole fraction
  rw [length_decimals coordinate.short] at decimals
  rw [Double.fixed_ofNumeral coordinate.short moderate (fun minus => nonzero (eq_of_beq minus)),
    digits_scaled, decimals]
  by_cases minus : number.sign = some '-' <;>
    simp [text, normal, numeral, fractionText, minus]

end WrittenNumber

/-- A report that shows these texts for the axes. -/
def Report.showing (shown : Axis → String) : String :=
  acknowledged ("X:" ++ shown .x ++ " Y:" ++ shown .y ++ " Z:" ++ shown .z ++
    " E:0.00 Count X:0 Y:0 Z:0")

namespace Words

variable {α : Type} [Quantity α] {number : WrittenNumber}

/-- A line that moves one axis. -/
def moveLine (axis : Axis) (number : WrittenNumber) : List Char :=
  ['G', '1', ' '] ++ axis.letter :: number.text

theorem letter_not_mem_text {form : NumberForm} (follows : number.Follows form) (axis : Axis) :
    axis.letter ∉ number.text := by
  have noDigit : isDecimalDigit axis.letter = false := by cases axis <;> decide
  have absent {digits : List Char} (all : ∀ digit ∈ digits, isDecimalDigit digit = true) :
      axis.letter ∉ digits := fun member => Bool.false_ne_true (noDigit.symm.trans (all _ member))
  obtain ⟨sign, whole, fraction⟩ := number
  have signs : axis.letter ∉ sign.toList := by
    have allowed := follows.sign
    cases form <;>
      simp only [NumberForm.signs, List.mem_cons, List.not_mem_nil, or_false] at allowed
    · rcases allowed with rfl | rfl | rfl <;> cases axis <;> decide
    all_goals subst allowed; simp
  have decimals : axis.letter ∉ WrittenNumber.fractionText fraction := by
    cases fraction with
    | none => simp [WrittenNumber.fractionText]
    | some digits =>
        have point : axis.letter ≠ '.' := by cases axis <;> decide
        simp [WrittenNumber.fractionText, point, absent (follows.fraction digits rfl)]
  simp [WrittenNumber.text, signs, decimals, absent follows.whole]

/-- The line names the one axis with the number, and no other. -/
theorem coordinate?_moveLine (follows : number.Follows .signed) (digits : IsDigits number.digits)
    (axis other : Axis) :
    coordinate? (α := α) other (moveLine axis number) =
      if other = axis then some (Quantity.ofNumeral number.numeral) else none := by
  have front : ∀ letter ∈ [other.letter], letter ∉ ['G', '1', ' '] := by
    cases other <;> simp [Axis.letter]
  rw [coordinate?, value?, moveLine, findWord?_front _ front]
  split_ifs with same
  · subst same
    have found : findWord? [other.letter] .signed (other.letter :: number.text) =
        some number.text := by
      rw [findWord?, if_pos (by simp), NumberForm.longest?_eq, NumberForm.leading?_text follows]
      rfl
    rw [found]
    exact (WrittenNumber.value?_eq follows).trans (if_pos (List.all_eq_true.2 digits))
  · have absent : ∀ letter ∈ [other.letter], letter ∉ axis.letter :: number.text := by
      intro letter named
      obtain rfl := List.mem_singleton.1 named
      have letters : other.letter ≠ axis.letter := by
        cases other <;> cases axis <;> first | exact absurd rfl same | decide
      exact List.not_mem_cons_of_ne_of_not_mem letters (letter_not_mem_text follows other)
    have nothing := findWord?_front .signed absent []
    rw [List.append_nil] at nothing
    rw [nothing]
    rfl

end Words

namespace Board

variable {α σ : Type} [Quantity α]

/-- Nothing but the line delay comes before a position report. -/
theorem process_report (host : Host σ) (patience : Nat) (board : Board α) (state : σ) :
    (process host patience "M114" board state).outcome =
      .ok (Report.showing fun axis => Quantity.fixed 2 (board.printer.position.get axis)) := by
  have plan := Plan.ofLine_of_found board
    (show (Command.find? "M114".toList).map Prod.snd = some .reportPosition by decide)
  rw [process, plan]
  rfl

/-- No host can stop a move. -/
theorem acknowledged_of_linearMove {line : String}
    (found : (Command.find? line.toList).map Prod.snd = some .linearMove) (host : Host σ)
    (patience : Nat) (board : Board α) (state : σ) :
    (process host patience line board state).outcome = .ok Report.acknowledgement := by
  have plan := Plan.ofLine_of_found board found
  obtain ⟨succeeded, -⟩ :=
    follow_of_quiet host (Plan.isQuiet_of_linearMove board found) board state
  rw [process_of_unhurried host patience line board state (by rw [plan]; rfl),
    Attempt.andThen_of_ok succeeded, plan]
  rfl

/-- After a move in absolute mode the report shows the commanded coordinate in its normal form,
which is worth the same, and the other coordinates as before. -/
theorem commanded_position_is_reported (host : Host σ) (patience : Nat) (state : σ)
    (board : Board Float) (axis : Axis) (number : WrittenNumber)
    (absolute : board.printer.mode = .absolute) (coordinate : number.IsCoordinate) :
    let shown (other : Axis) : String := Quantity.fixed 2 (board.printer.position.get other)
    let moved := process host patience (String.ofList (Words.moveLine axis number)) board state
    number.normal.worth = number.worth ∧ moved.outcome = .ok "ok" ∧
      (process host patience "M114" board state).outcome = .ok (Report.showing shown) ∧
      (process host patience "M114" moved.board moved.host).outcome =
        .ok (Report.showing (Function.update shown axis (String.ofList number.normal.text))) := by
  intro shown moved
  have found : (Command.find? (String.ofList (Words.moveLine axis number)).toList).map Prod.snd =
      some .linearMove := by
    rw [String.toList_ofList]
    rfl
  have travels : Travels _ board _ := travels_of_linearMove host patience state found
  refine ⟨WrittenNumber.worth_normal coordinate.short,
    acknowledged_of_linearMove found host patience board state,
    process_report host patience board state, ?_⟩
  rw [process_report]
  congr 2
  funext other
  rw [travels.position, Shift.ofLine?, found, String.toList_ofList, absolute,
    Words.coordinate?_moveLine coordinate.follows coordinate.digits]
  by_cases same : other = axis
  · subst same
    rw [if_pos rfl, Function.update_self]
    exact WrittenNumber.fixed_coordinate coordinate
  · rw [if_neg same, Function.update_of_ne same]
    rfl

/-- This number has zeros in front and a decimal missing. -/
def leftOfOrigin : WrittenNumber := ⟨some '-', ['0', '0', '7'], some ['5']⟩

theorem isCoordinate_leftOfOrigin : leftOfOrigin.IsCoordinate where
  follows :=
    { sign := by decide
      begun := nofun
      whole := List.all_eq_true.1 (by decide)
      pointed := nofun
      fraction := by
        rintro digits ⟨⟩
        exact List.all_eq_true.1 (by decide) }
  digits := List.all_eq_true.1 (by decide)
  short := by decide
  moderate := by decide +kernel
  nonzero := fun _ => by decide +kernel

theorem left_of_origin_is_reported :
    let board : Board Float := powerUp .standard (.cycle []) ⟨0⟩
    let moved := process Host.idle 0 "G1 Y-007.5" board ()
    board.printer.mode = .absolute ∧ leftOfOrigin.IsCoordinate ∧ moved.outcome = .ok "ok" ∧
      (process Host.idle 0 "M114" moved.board moved.host).outcome =
        .ok "X:0.00 Y:-7.50 Z:0.00 E:0.00 Count X:0 Y:0 Z:0\nok" := by
  intro board moved
  have line : String.ofList (Words.moveLine .y leftOfOrigin) = "G1 Y-007.5" := by decide
  obtain ⟨-, acknowledged, -, reported⟩ := commanded_position_is_reported Host.idle 0 () board .y
    leftOfOrigin rfl isCoordinate_leftOfOrigin
  rw [line] at acknowledged reported
  refine ⟨rfl, isCoordinate_leftOfOrigin, acknowledged, reported.trans (congrArg Except.ok ?_)⟩
  decide +kernel

end Board

end BenchPrinter
