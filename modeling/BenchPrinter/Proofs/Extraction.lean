import BenchPrinter.Proofs.Document.Digits
import BenchPrinter.Proofs.Expression
import BenchPrinter.Proofs.Grammar

/-!
What the readers of words take from a line. It is the first word of the grammar, as a search for the
expression of the word finds it: the number is the longest of its form, and its value is that of its
digits, unless one of them is a digit of another script.
-/

namespace BenchPrinter

/-- Only the digits from `0` to `9` are read as a number. -/
theorem readDigits_eq (start : Nat) (text : List Char) :
    readDigits start text =
      if text.all Char.isDigit then some (Nat.ofDigitChars 10 text start) else none := by
  induction text generalizing start with
  | nil => rfl
  | cons first rest inductionHypothesis =>
      rw [readDigits]
      by_cases isDigit : first.isDigit = true
      · simp [asciiDigit?_of_isDigit isDigit, inductionHypothesis, isDigit, digitValue,
          Nat.ofDigitChars_cons]
      · have other : asciiDigit? first = none := by
          rw [Char.isDigit_iff_toNat] at isDigit
          exact if_neg isDigit
        simp [other, isDigit]

namespace WrittenNumber

/-- The digits on both sides of the point. -/
def digits (number : WrittenNumber) : List Char := number.whole ++ number.fraction.getD []

/-- What the number is worth, with the digits behind the point as decimals. -/
def numeral (number : WrittenNumber) : Numeral :=
  ⟨number.sign == some '-', Nat.ofDigitChars 10 number.digits 0, (number.fraction.getD []).length⟩

/-- A number with a digit of another script has no value. -/
def value? {α : Type} [Quantity α] (number : WrittenNumber) : Option α :=
  if number.digits.all Char.isDigit then some (Quantity.ofNumeral number.numeral) else none

variable {form : NumberForm} {number : WrittenNumber}

theorem splitSign_text (follows : number.Follows form) :
    Numeral.splitSign number.text =
      (number.sign == some '-', number.whole ++ fractionText number.fraction) := by
  obtain ⟨sign, whole, fraction⟩ := number
  obtain ⟨first, others, rfl⟩ := List.exists_cons_of_ne_nil follows.begun
  have isDigit := follows.whole first List.mem_cons_self
  cases sign with
  | none =>
      obtain ⟨plus, minus⟩ := ne_sign_of_digit isDigit
      simp [text, Numeral.splitSign, plus, minus]
  | some sign =>
      have allowed := follows.sign
      cases form <;> simp only [NumberForm.signs, List.mem_cons, List.not_mem_nil, reduceCtorEq,
        false_or, or_false, Option.some.injEq] at allowed
      rcases allowed with rfl | rfl <;> rfl

/-- The point is where the digits of the whole part end. -/
theorem read?_text (follows : number.Follows form) :
    Numeral.read? number.text =
      if number.digits.all Char.isDigit then some number.numeral else none := by
  have unpointed : ∀ digit ∈ number.whole, decide (digit ≠ '.') = true := by
    intro digit member
    have isDigit := follows.whole digit member
    rw [decide_eq_true_eq]
    rintro rfl
    exact absurd isDigit (by decide)
  have whole : (number.whole ++ fractionText number.fraction).takeWhile (· ≠ '.') =
      number.whole := by
    rw [List.takeWhile_append_of_pos unpointed]
    cases number.fraction <;> simp [fractionText]
  have fraction : ((number.whole ++ fractionText number.fraction).dropWhile (· ≠ '.')).drop 1 =
      number.fraction.getD [] := by
    rw [List.dropWhile_append_of_pos unpointed]
    cases number.fraction <;> simp [fractionText]
  have begun : number.whole.isEmpty = false := by simpa using follows.begun
  have spelled : readDigits 0 (number.whole ++ number.fraction.getD []) = _ :=
    readDigits_eq 0 number.digits
  simp only [Numeral.read?, splitSign_text follows, whole, fraction, begun, spelled]
  cases number.digits.all Char.isDigit <;> rfl

theorem value?_eq {α : Type} [Quantity α] (follows : number.Follows form) :
    (Numeral.read? number.text).map (Quantity.ofNumeral (α := α)) = number.value? := by
  rw [read?_text follows, value?]
  split <;> rfl

end WrittenNumber

namespace Words

/-- Here one of the letters stands in front of a number of the form. -/
def WordAt (letters : List Char) (form : NumberForm) (line : List Char) (place : Nat) : Prop :=
  ∃ letter ∈ letters, ∃ rest, line.drop place = letter :: rest ∧ form.Begins rest

/-- The number of the first word on the line, or nothing if there is no word. -/
def Captures (letters : List Char) (form : NumberForm) (line : List Char) :
    Option WrittenNumber → Prop
  | none => ∀ place, ¬ WordAt letters form line place
  | some number => ∃ place, WordAt letters form line place ∧
      (∀ earlier < place, ¬ WordAt letters form line earlier) ∧
      form.IsLongest (line.drop (place + 1)) number

section

variable {letters line rest : List Char} {form : NumberForm} {letter : Char}

theorem wordAt_zero :
    WordAt letters form (letter :: rest) 0 ↔ letter ∈ letters ∧ form.Begins rest := by
  constructor
  · rintro ⟨other, named, after, same, begins⟩
    obtain ⟨rfl, rfl⟩ := List.cons.inj same
    exact ⟨named, begins⟩
  · rintro ⟨named, begins⟩
    exact ⟨letter, named, rest, rfl, begins⟩

/-- What the search captures, with its parts. -/
def capture? (letters : List Char) (form : NumberForm) : List Char → Option WrittenNumber
  | [] => none
  | letter :: rest =>
      if letters.contains letter then (form.leading? rest).or (capture? letters form rest)
      else capture? letters form rest

theorem findWord?_eq (letters : List Char) (form : NumberForm) (line : List Char) :
    findWord? letters form line = (capture? letters form line).map WrittenNumber.text := by
  induction line with
  | nil => rfl
  | cons letter rest inductionHypothesis =>
      rw [findWord?, capture?, inductionHypothesis, form.longest?_eq]
      cases letters.contains letter with
      | false => rfl
      | true => cases form.leading? rest <;> rfl

/-- Behind a place without a word the line is searched as if it began there. -/
theorem captures_cons (absent : ¬ WordAt letters form (letter :: rest) 0)
    (captured : Option WrittenNumber) :
    Captures letters form (letter :: rest) captured ↔ Captures letters form rest captured := by
  cases captured with
  | none =>
      constructor
      · exact fun none place => none (place + 1)
      · intro none place
        cases place with
        | zero => exact absent
        | succ place => exact none place
  | some number =>
      constructor
      · rintro ⟨place, word, first, longest⟩
        cases place with
        | zero => exact absurd word absent
        | succ place =>
            exact ⟨place, word, fun earlier before => first (earlier + 1) (by omega), longest⟩
      · rintro ⟨place, word, first, longest⟩
        refine ⟨place + 1, word, fun earlier before => ?_, longest⟩
        cases earlier with
        | zero => exact absent
        | succ earlier => exact first earlier (by omega)

theorem captures_capture? (letters : List Char) (form : NumberForm) (line : List Char) :
    Captures letters form line (capture? letters form line) := by
  induction line with
  | nil =>
      rintro place ⟨letter, -, rest, inside, -⟩
      simp at inside
  | cons letter rest inductionHypothesis =>
      by_cases word : WordAt letters form (letter :: rest) 0
      · obtain ⟨named, begins⟩ := wordAt_zero.1 word
        obtain ⟨number, found⟩ := NumberForm.begins_iff.1 begins
        have captured : capture? letters form (letter :: rest) = some number := by
          rw [capture?, if_pos (List.contains_iff_mem.2 named), found]
          rfl
        rw [captured]
        exact ⟨0, word, nofun, NumberForm.isLongest_iff.2 found⟩
      · have later : capture? letters form (letter :: rest) = capture? letters form rest := by
          rw [capture?]
          split
          · rename_i named
            have nothing : form.leading? rest = none := by
              by_contra found
              obtain ⟨number, found⟩ := Option.ne_none_iff_exists'.1 found
              exact word (wordAt_zero.2
                ⟨List.contains_iff_mem.1 named, NumberForm.begins_iff.2 ⟨number, found⟩⟩)
            rw [nothing, Option.none_or]
          · rfl
        rw [later]
        exact (captures_cons word _).2 inductionHypothesis

theorem Captures.unique {captured other : Option WrittenNumber}
    (captures : Captures letters form line captured)
    (alsoCaptures : Captures letters form line other) : other = captured := by
  cases captured with
  | none =>
      cases other with
      | none => rfl
      | some number =>
          obtain ⟨place, word, -⟩ := alsoCaptures
          exact absurd word (captures place)
  | some number =>
      obtain ⟨place, word, first, longest⟩ := captures
      cases other with
      | none => exact absurd word (alsoCaptures place)
      | some other =>
          obtain ⟨otherPlace, otherWord, otherFirst, otherLongest⟩ := alsoCaptures
          obtain rfl : otherPlace = place := by
            rcases Nat.lt_trichotomy otherPlace place with before | same | after
            · exact absurd otherWord (first otherPlace before)
            · exact same
            · exact absurd word (otherFirst place after)
          rw [NumberForm.isLongest_iff] at longest otherLongest
          rw [← longest, ← otherLongest]

end

/-- Exactly one number of the line, or its absence, is captured by the grammar; the expression of the
word finds its text, and the outcome is what is made of it. -/
def Extracts {β : Type} (letters : List Char) (form : NumberForm) (line : List Char)
    (reading : WrittenNumber → Option β) (outcome : Option β) : Prop :=
  ∃ captured : Option WrittenNumber,
    (∀ other, Captures letters form line other ↔ other = captured) ∧
    ((Expression.word letters form).find? line).map List.tail = captured.map WrittenNumber.text ∧
    outcome = captured.bind reading

theorem extracts {β : Type} {letters line : List Char} {form : NumberForm}
    {reading : WrittenNumber → Option β} {outcome : Option β}
    (reads : outcome = (capture? letters form line).bind reading) :
    Extracts letters form line reading outcome := by
  have captures := captures_capture? letters form line
  refine ⟨capture? letters form line, fun other => ⟨captures.unique, ?_⟩, ?_, reads⟩
  · rintro rfl
    exact captures
  · rw [Expression.find?_word, findWord?_eq]

theorem value?_extracts {α : Type} [Quantity α] (letters : List Char) (form : NumberForm)
    (line : List Char) :
    Extracts letters form line WrittenNumber.value? (value? (α := α) letters form line) := by
  apply extracts
  rw [value?, findWord?_eq]
  have captures := captures_capture? letters form line
  cases captured : capture? letters form line with
  | none => rfl
  | some number =>
      rw [captured] at captures
      obtain ⟨_, _, _, longest⟩ := captures
      exact WrittenNumber.value?_eq longest.follows

theorem text_extracts (letters : List Char) (form : NumberForm) (line : List Char) :
    Extracts letters form line (some ∘ WrittenNumber.text) (findWord? letters form line) := by
  apply extracts
  rw [findWord?_eq]
  exact Option.map_eq_bind

/-- Every reader of words takes the longest number behind the first letter that a number follows.
The readers of whole numbers keep its text; the others convert it, and where that fails they try no
later word. -/
theorem words_follow_grammar {α : Type} [Quantity α] (line : List Char) :
    (∀ axis, Extracts [axis.letter] .signed line WrittenNumber.value?
      (coordinate? (α := α) axis line)) ∧
    Extracts ['S'] .unsigned line WrittenNumber.value? (target? (α := α) line) ∧
    Extracts ['S', 'R'] .unsigned line WrittenNumber.value? (waitTarget? (α := α) line) ∧
    Extracts ['S'] .whole line (some ∘ WrittenNumber.text) (feedPercent? line) ∧
    Extracts ['P'] .whole line (some ∘ WrittenNumber.text) (fan? line) :=
  ⟨fun axis => value?_extracts [axis.letter] .signed line, value?_extracts ['S'] .unsigned line,
    value?_extracts ['S', 'R'] .unsigned line, text_extracts ['S'] .whole line,
    text_extracts ['P'] .whole line⟩

/-- A word without a number is passed over, and a word with a digit of another script is not. -/
example : coordinate? (α := Rat) .x "G1 X- Xa X-1.5.2 X7".toList = some (-3 / 2) ∧
    coordinate? (α := Rat) .x "G1 X1\u0665 X7".toList = none := by
  decide +kernel

end Words

end BenchPrinter
