import BenchPrinter.Document.Reader
import BenchPrinter.Number.Shortest
import Mathlib.Algebra.Ring.Nat

/-!
Decimal numbers as texts. A reader finds the digits that a writer has written, and they spell the
number again.
-/

namespace BenchPrinter

def digitValue (character : Char) : Nat := character.toNat - '0'.toNat

def IsDigits (text : List Char) : Prop := ∀ character ∈ text, character.isDigit = true

/-- No digit follows. -/
def EndsDigits (rest : List Char) : Prop := ∀ mark ∈ rest.head?, asciiDigit? mark = none

section

variable {text rest : List Char} {character : Char}

theorem asciiDigit?_of_isDigit (isDigit : character.isDigit = true) :
    asciiDigit? character = some (digitValue character) := by
  rw [Char.isDigit_iff_toNat] at isDigit
  exact if_pos isDigit

theorem isDigits_toDigits (number : Nat) : IsDigits (Nat.toDigits 10 number) :=
  fun _ => Nat.isDigit_of_mem_toDigits (by decide) (by decide)

theorem isDigits_zeros (count : Nat) : IsDigits (List.replicate count '0') := by
  intro character member
  rw [List.eq_of_mem_replicate member]
  rfl

theorem IsDigits.append {first second : List Char} (firstDigits : IsDigits first)
    (secondDigits : IsDigits second) : IsDigits (first ++ second) := by
  intro character member
  rcases List.mem_append.1 member with inFirst | inSecond
  · exact firstDigits character inFirst
  · exact secondDigits character inSecond

theorem IsDigits.tail (digits : IsDigits (character :: text)) : IsDigits text :=
  fun other member => digits other (List.mem_cons_of_mem _ member)

theorem leadingDigits_of_ends (ends : EndsDigits rest) : leadingDigits rest = ([], rest) := by
  cases rest with
  | nil => rfl
  | cons mark rest => rw [leadingDigits, ends mark rfl]

/-- The whole run of digits is taken, and no more. -/
theorem leadingDigits_append (digits : IsDigits text) (ends : EndsDigits rest) :
    leadingDigits (text ++ rest) = (text.map digitValue, rest) := by
  induction text with
  | nil => exact leadingDigits_of_ends ends
  | cons character text inductionHypothesis =>
      rw [List.cons_append, leadingDigits,
        asciiDigit?_of_isDigit (digits character List.mem_cons_self)]
      dsimp only
      rw [inductionHypothesis digits.tail]
      rfl

theorem spelled_map (text : List Char) :
    spelled 10 (text.map digitValue) = Nat.ofDigitChars 10 text 0 := by
  rw [spelled, List.foldl_map]
  rfl

theorem spelled_toDigits (number : Nat) :
    spelled 10 ((Nat.toDigits 10 number).map digitValue) = number := by
  rw [spelled_map, Nat.ofDigitChars_ten_toDigits]

/-- More digits never make the number smaller. -/
theorem ofDigitChars_le_append (first second : List Char) :
    Nat.ofDigitChars 10 first 0 ≤ Nat.ofDigitChars 10 (first ++ second) 0 := by
  rw [Nat.ofDigitChars_append, Nat.ofDigitChars_eq_ofDigitChars_zero (l := second)]
  have scale : 0 < 10 ^ second.length := Nat.pow_pos (by decide)
  have grown := Nat.le_mul_of_pos_left (Nat.ofDigitChars 10 first 0) scale
  omega

theorem ofDigitChars_lt (digits : IsDigits text) :
    Nat.ofDigitChars 10 text 0 < 10 ^ text.length := by
  induction text with
  | nil => decide
  | cons character text inductionHypothesis =>
      have rest := inductionHypothesis digits.tail
      obtain ⟨-, most⟩ := Char.isDigit_iff_toNat.1 (digits character List.mem_cons_self)
      have digit : character.toNat - '0'.toNat ≤ 9 := Nat.sub_le_iff_le_add.2 most
      rw [Nat.ofDigitChars_cons, Nat.ofDigitChars_eq_ofDigitChars_zero, List.length_cons,
        Nat.pow_succ, Nat.mul_zero, Nat.zero_add]
      have leading := Nat.mul_le_mul_left (10 ^ text.length) digit
      omega

/-- Only zero is written with a zero in front. -/
theorem toDigits_head_ne {number : Nat} (nonzero : number ≠ 0) :
    (Nat.toDigits 10 number).head? ≠ some '0' := by
  intro zeroFirst
  obtain ⟨rest, form⟩ := List.head?_eq_some_iff.1 zeroFirst
  have spells := Nat.ofDigitChars_ten_toDigits (n := number)
  have digits := isDigits_toDigits number
  rw [form] at spells digits
  rw [Nat.ofDigitChars_cons] at spells
  have small := ofDigitChars_lt digits.tail
  rcases Nat.eq_zero_or_pos rest.length with none | some
  · rw [List.eq_nil_of_length_eq_zero none] at spells
    exact nonzero spells.symm
  · have short := (Nat.length_toDigits_le_iff (by decide) some).2 (spells ▸ small)
    rw [form, List.length_cons] at short
    omega

end

/-- A number as it is written, without its sign. -/
structure Spelling where
  whole : List Char
  fraction : List Char
  power : Option Int

namespace Spelling

/-- An exponent is written with its sign. -/
def powerText : Option Int → List Char
  | none => []
  | some power => 'e' :: (if power < 0 then '-' else '+') :: Nat.toDigits 10 power.natAbs

/-- A point is written only in front of a digit. -/
def text (spelling : Spelling) : List Char :=
  spelling.whole ++ (if spelling.fraction.isEmpty then [] else '.' :: spelling.fraction) ++
    powerText spelling.power

def digits (spelling : Spelling) : Nat :=
  Nat.ofDigitChars 10 (spelling.whole ++ spelling.fraction) 0

def exponent (spelling : Spelling) : Int := spelling.power.getD 0 - spelling.fraction.length

/-- A zero in front stands alone. -/
structure IsProper (spelling : Spelling) : Prop where
  whole : IsDigits spelling.whole
  some : spelling.whole ≠ []
  leading : spelling.whole = ['0'] ∨ spelling.whole.head? ≠ Option.some '0'
  fraction : IsDigits spelling.fraction

/-- A number begins with a digit. -/
theorem IsProper.begins {spelling : Spelling} (proper : spelling.IsProper) :
    ∃ first rest, spelling.text = first :: rest ∧ first.isDigit = true := by
  have digits := proper.whole
  rw [text]
  rcases form : spelling.whole with _ | ⟨first, others⟩
  · exact absurd form proper.some
  · rw [form] at digits
    exact ⟨first, _, rfl, digits first List.mem_cons_self⟩

end Spelling

/-- A number begins with a sign or a digit. -/
def BeginsNumber (mark : Char) : Prop := mark = '-' ∨ mark.isDigit = true

theorem BeginsNumber.ne {mark special : Char} (begins : BeginsNumber mark)
    (noNumber : special ≠ '-' ∧ special.isDigit = false) : mark ≠ special := by
  rintro rfl
  rcases begins with minus | digit
  · exact noNumber.1 minus
  · exact Bool.false_ne_true (noNumber.2.symm.trans digit)

theorem signed_begins {spelling : Spelling} (proper : spelling.IsProper) (negative : Bool) :
    ∃ mark rest, (if negative then ['-'] else []) ++ spelling.text = mark :: rest ∧
      BeginsNumber mark := by
  cases negative with
  | true => exact ⟨'-', _, rfl, .inl rfl⟩
  | false =>
      obtain ⟨first, rest, form, isDigit⟩ := proper.begins
      exact ⟨first, rest, form, .inr isDigit⟩

/-- An integer is written without a point. -/
def integerSpelling (size : Nat) : Spelling := ⟨Nat.toDigits 10 size, [], none⟩

theorem integerSpelling_proper (size : Nat) : (integerSpelling size).IsProper := by
  refine ⟨isDigits_toDigits size, Nat.toDigits_ne_nil, ?_, fun _ member => nomatch member⟩
  rcases Nat.eq_zero_or_pos size with rfl | positive
  · exact .inl rfl
  · exact .inr (toDigits_head_ne (Nat.ne_of_gt positive))

theorem toString_eq (value : Int) : (toString value).toList =
    (if decide (value < 0) then ['-'] else []) ++ (integerSpelling value.natAbs).text := by
  have plain (size : Nat) : (integerSpelling size).text = Nat.toDigits 10 size := by
    simp [Spelling.text, integerSpelling, Spelling.powerText]
  rw [plain]
  cases value with
  | ofNat size =>
      have form : toString (Int.ofNat size) = toString size := rfl
      rw [form, Nat.toString_eq_ofList_toDigits, String.toList_ofList]
      rfl
  | negSucc size =>
      have form : toString (Int.negSucc size) = "-" ++ toString (size + 1) := rfl
      rw [form, Nat.toString_eq_ofList_toDigits, String.toList_append, String.toList_ofList,
        String.toList_ofList, decide_eq_true (Int.negSucc_lt_zero size), if_pos rfl,
        Int.natAbs_negSucc]

namespace Decimal

/-- A whole number gets a point and a zero. -/
def positionalSpelling (decimal : Decimal) : Spelling :=
  let digits := Nat.toDigits 10 decimal.digits
  let places := (-decimal.exponent).toNat
  if decimal.isWhole then ⟨digits ++ List.replicate decimal.exponent.toNat '0', ['0'], none⟩
  else if places < digits.length then
    ⟨digits.take (digits.length - places), digits.drop (digits.length - places), none⟩
  else ⟨['0'], List.replicate (places - digits.length) '0' ++ digits, none⟩

def scientificSpelling (decimal : Decimal) : Spelling :=
  ⟨(Nat.toDigits 10 decimal.digits).take 1, (Nat.toDigits 10 decimal.digits).drop 1,
    some decimal.leading⟩

section

variable {decimal : Decimal}

theorem exponent_of_whole (zero : decimal.digits = 0 → decimal.exponent = 0)
    (whole : decimal.isWhole = true) : 0 ≤ decimal.exponent := by
  rw [isWhole, Bool.or_eq_true, decide_eq_true_eq, decide_eq_true_eq] at whole
  rcases whole with none | some
  · exact Int.le_of_eq (zero none).symm
  · exact some

theorem parts_of_broken (broken : ¬ decimal.isWhole = true) :
    decimal.digits ≠ 0 ∧ decimal.exponent < 0 := by
  rw [isWhole, Bool.or_eq_true, decide_eq_true_eq, decide_eq_true_eq, not_or] at broken
  exact ⟨broken.1, Int.not_le.1 broken.2⟩

theorem positional_text (zero : decimal.digits = 0 → decimal.exponent = 0) :
    decimal.positional ++ (if decimal.isWhole then ['.', '0'] else []) =
      decimal.positionalSpelling.text := by
  rw [positional, positionalSpelling]
  dsimp only
  by_cases whole : decimal.isWhole = true
  · rw [if_pos whole, if_pos whole, if_pos (exponent_of_whole zero whole)]
    have zeros : (if decimal.digits = 0 then Nat.toDigits 10 decimal.digits
        else Nat.toDigits 10 decimal.digits ++ List.replicate decimal.exponent.toNat '0') =
          Nat.toDigits 10 decimal.digits ++ List.replicate decimal.exponent.toNat '0' := by
      split
      · rename_i none
        rw [zero none]
        simp
      · rfl
    rw [zeros]
    simp [Spelling.text, Spelling.powerText]
  · rw [if_neg whole, if_neg whole, List.append_nil,
      if_neg (Int.not_le.2 (parts_of_broken whole).2)]
    have below := (parts_of_broken whole).2
    split
    · rename_i short
      have some : Nat.toDigits 10 decimal.digits ≠ [] := Nat.toDigits_ne_nil
      have rest : (Nat.toDigits 10 decimal.digits).drop
          ((Nat.toDigits 10 decimal.digits).length - (-decimal.exponent).toNat) ≠ [] := by
        rw [Ne, List.drop_eq_nil_iff]
        omega
      simp [Spelling.text, Spelling.powerText, rest]
    · simp [Spelling.text, Spelling.powerText]

theorem positional_proper (zero : decimal.digits = 0 → decimal.exponent = 0) :
    decimal.positionalSpelling.IsProper := by
  have digits := isDigits_toDigits decimal.digits
  have some : Nat.toDigits 10 decimal.digits ≠ [] := Nat.toDigits_ne_nil
  rw [positionalSpelling]
  split
  · refine ⟨digits.append (isDigits_zeros _), ?_, ?_, isDigits_zeros 1⟩
    · simp
    · by_cases none : decimal.digits = 0
      · left
        rw [zero none, none]
        rfl
      · right
        have leading := toDigits_head_ne none
        rcases first : (Nat.toDigits 10 decimal.digits).head? with _ | character
        · exact absurd (List.head?_eq_none_iff.1 first) some
        · rw [first] at leading
          rw [List.head?_append, first]
          exact leading
  · rename_i broken
    obtain ⟨nonzero, below⟩ := parts_of_broken broken
    split
    · refine ⟨fun character member => digits character (List.mem_of_mem_take member), ?_, ?_,
        fun character member => digits character (List.mem_of_mem_drop member)⟩
      · rw [Ne, List.take_eq_nil_iff]
        exact not_or.2 ⟨by omega, some⟩
      · right
        rw [List.head?_take, if_neg (by omega)]
        exact toDigits_head_ne nonzero
    · exact ⟨isDigits_zeros 1, List.cons_ne_nil _ _, .inl rfl, (isDigits_zeros _).append digits⟩

/-- The written digits and places denote the decimal. A whole number counts tenths. -/
theorem positional_parts (zero : decimal.digits = 0 → decimal.exponent = 0) :
    if decimal.isWhole then
      decimal.positionalSpelling.digits = decimal.digits * 10 ^ (decimal.exponent.toNat + 1) ∧
        decimal.positionalSpelling.exponent = -1 ∧ 0 ≤ decimal.exponent
    else
      decimal.positionalSpelling.digits = decimal.digits ∧
        decimal.positionalSpelling.exponent = decimal.exponent := by
  rw [positionalSpelling]
  by_cases whole : decimal.isWhole = true
  · rw [if_pos whole, if_pos whole]
    refine ⟨?_, rfl, exponent_of_whole zero whole⟩
    have zeros : List.replicate decimal.exponent.toNat '0' ++ ['0'] =
        List.replicate (decimal.exponent.toNat + 1) '0' := List.replicate_succ'.symm
    rw [Spelling.digits, List.append_assoc, zeros, Nat.ofDigitChars_append,
      Nat.ofDigitChars_ten_toDigits, Nat.ofDigitChars_replicate_zero, Nat.mul_comm]
  · have below := (parts_of_broken whole).2
    rw [if_neg whole, if_neg whole]
    split
    · refine ⟨?_, ?_⟩
      · rw [Spelling.digits, List.take_append_drop, Nat.ofDigitChars_ten_toDigits]
      · rw [Spelling.exponent, List.length_drop, Option.getD_none]
        omega
    · refine ⟨?_, ?_⟩
      · have zeros : ['0'] ++ (List.replicate ((-decimal.exponent).toNat -
            (Nat.toDigits 10 decimal.digits).length) '0' ++ Nat.toDigits 10 decimal.digits) =
              List.replicate ((-decimal.exponent).toNat -
                (Nat.toDigits 10 decimal.digits).length + 1) '0' ++
                  Nat.toDigits 10 decimal.digits := by
          rw [List.replicate_succ]
          rfl
        rw [Spelling.digits, zeros, Nat.ofDigitChars_append, Nat.ofDigitChars_replicate_zero,
          Nat.mul_zero, Nat.ofDigitChars_ten_toDigits]
      · rw [Spelling.exponent, List.length_append, List.length_replicate, Option.getD_none]
        omega

/-- A positional number has a fraction and no exponent. -/
theorem positional_marked (decimal : Decimal) :
    decimal.positionalSpelling.fraction ≠ [] ∧ decimal.positionalSpelling.power = none := by
  rw [positionalSpelling]
  split
  · exact ⟨List.cons_ne_nil _ _, rfl⟩
  · rename_i broken
    have below := (parts_of_broken broken).2
    split
    · rw [Ne, List.drop_eq_nil_iff]
      exact ⟨by omega, rfl⟩
    · exact ⟨List.append_ne_nil_of_right_ne_nil _ Nat.toDigits_ne_nil, rfl⟩

theorem scientific_text (decimal : Decimal) :
    decimal.scientific = decimal.scientificSpelling.text := by
  have some : Nat.toDigits 10 decimal.digits ≠ [] := Nat.toDigits_ne_nil
  rw [scientific, scientificSpelling, Spelling.text]
  generalize Nat.toDigits 10 decimal.digits = digits at some
  rcases digits with _ | ⟨digit, _ | ⟨next, rest⟩⟩
  · exact absurd rfl some
  · rfl
  · rfl

theorem scientific_proper (some : decimal.digits ≠ 0) :
    decimal.scientificSpelling.IsProper := by
  have digits := isDigits_toDigits decimal.digits
  refine ⟨fun character member => digits character (List.mem_of_mem_take member), ?_, .inr ?_,
    fun character member => digits character (List.mem_of_mem_drop member)⟩
  · rw [scientificSpelling, Ne, List.take_eq_nil_iff]
    exact not_or.2 ⟨Nat.one_ne_zero, Nat.toDigits_ne_nil⟩
  · rw [scientificSpelling, List.head?_take, if_neg Nat.one_ne_zero]
    exact toDigits_head_ne some

theorem scientific_parts (decimal : Decimal) :
    decimal.scientificSpelling.digits = decimal.digits ∧
      decimal.scientificSpelling.exponent = decimal.exponent := by
  have some : 0 < (Nat.toDigits 10 decimal.digits).length := Nat.length_toDigits_pos
  constructor
  · rw [scientificSpelling, Spelling.digits, List.take_append_drop, Nat.ofDigitChars_ten_toDigits]
  · rw [scientificSpelling, Spelling.exponent, List.length_drop, Option.getD_some, leading]
    omega

end

end Decimal

end BenchPrinter
