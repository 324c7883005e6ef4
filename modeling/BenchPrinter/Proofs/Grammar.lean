import BenchPrinter.Command.Word
import Mathlib.Data.List.Infix

/-!
The grammar of numbers on a line. A form of a number is a language of written numbers; the longest
text of the language at the beginning of a line is found part by part, since no part can begin with
what the part before it may go on with.
-/

namespace BenchPrinter

/-- The signs that a form allows in front of the first digit. -/
def NumberForm.signs : NumberForm → List (Option Char)
  | signed => [none, some '+', some '-']
  | unsigned | whole => [none]

/-- A number in the parts that it is written in. With a point there is a fraction, perhaps an empty
one. -/
structure WrittenNumber where
  sign : Option Char
  whole : List Char
  fraction : Option (List Char)
deriving DecidableEq

namespace WrittenNumber

def fractionText : Option (List Char) → List Char
  | some digits => '.' :: digits
  | none => []

def text (number : WrittenNumber) : List Char :=
  number.sign.toList ++ (number.whole ++ fractionText number.fraction)

/-- The number has the parts that the form allows, with a digit in front of the point at least. -/
structure Follows (number : WrittenNumber) (form : NumberForm) : Prop where
  sign : number.sign ∈ form.signs
  begun : number.whole ≠ []
  whole : ∀ digit ∈ number.whole, isDecimalDigit digit = true
  pointed : number.fraction.isSome = true → form ≠ .whole
  fraction : ∀ digits ∈ number.fraction, ∀ digit ∈ digits, isDecimalDigit digit = true

end WrittenNumber

section

variable {digits rest : List Char}

/-- Digits in front of a text belong to its run of digits. -/
theorem digitRun_of_digits (all : ∀ digit ∈ digits, isDecimalDigit digit = true)
    (rest : List Char) :
    digitRun (digits ++ rest) = (digits ++ (digitRun rest).1, (digitRun rest).2) := by
  rw [digitRun, List.takeWhile_append_of_pos all, List.dropWhile_append_of_pos all]
  rfl

theorem digitRun_of_point (rest : List Char) : digitRun ('.' :: rest) = ([], '.' :: rest) := by
  have noDigit : isDecimalDigit '.' = false := by decide
  simp [digitRun, noDigit]

theorem ne_sign_of_digit {digit : Char} (isDigit : isDecimalDigit digit = true) :
    digit ≠ '+' ∧ digit ≠ '-' := by
  constructor <;> rintro rfl <;> exact absurd isDigit (by decide)

theorem mem_digitRun {digit : Char} (member : digit ∈ (digitRun rest).1) :
    isDecimalDigit digit = true :=
  List.all_eq_true.1 List.all_takeWhile digit member

end

namespace NumberForm

/-- A number of the form begins here: its first digit follows, perhaps after a sign. -/
def Begins (form : NumberForm) (text : List Char) : Prop :=
  ∃ sign ∈ form.signs, ∃ digit rest,
    text = sign.toList ++ digit :: rest ∧ isDecimalDigit digit = true

/-- No other number of the form at the beginning of the text is longer. -/
structure IsLongest (form : NumberForm) (text : List Char) (number : WrittenNumber) : Prop where
  follows : number.Follows form
  leads : number.text <+: text
  longest : ∀ other : WrittenNumber, other.Follows form → other.text <+: text →
    other.text.length ≤ number.text.length

/-- The sign in front of a number of the form, and what follows it. -/
def takeSign : NumberForm → List Char → Option Char × List Char
  | signed, '+' :: rest => (some '+', rest)
  | signed, '-' :: rest => (some '-', rest)
  | _, text => (none, text)

/-- The fraction behind the digits in front of the point. -/
def takeFraction : NumberForm → List Char → Option (List Char)
  | whole, _ => none
  | _, '.' :: rest => some (digitRun rest).1
  | _, _ => none

/-- The number that begins with the sign and goes on with the text, found part by part. -/
def signedBy (form : NumberForm) (sign : Option Char) (text : List Char) : Option WrittenNumber :=
  if (digitRun text).1.isEmpty then none
  else some ⟨sign, (digitRun text).1, form.takeFraction (digitRun text).2⟩

/-- The number at the beginning of the text. -/
def leading? (form : NumberForm) (text : List Char) : Option WrittenNumber :=
  form.signedBy (form.takeSign text).1 (form.takeSign text).2

variable {form : NumberForm} {text : List Char} {number : WrittenNumber}

theorem takeSign_of_other (form : NumberForm) {first : Char} (plus : first ≠ '+')
    (minus : first ≠ '-') (rest : List Char) :
    form.takeSign (first :: rest) = (none, first :: rest) := by
  cases form <;> simp [takeSign, plus, minus]

/-! The reader of the forms takes the text of this number. -/

theorem fractionRun_eq (different : form ≠ whole) (text : List Char) :
    fractionRun text = WrittenNumber.fractionText (form.takeFraction text) := by
  cases text with
  | nil => cases form <;> rfl
  | cons first rest =>
      by_cases point : first = '.'
      · subst point
        cases form with
        | whole => exact absurd rfl different
        | signed | unsigned => rfl
      · cases form with
        | whole => exact absurd rfl different
        | signed | unsigned => simp [fractionRun, takeFraction, point, WrittenNumber.fractionText]

theorem text_signedBy (different : form ≠ whole) (sign : Option Char) (rest : List Char) :
    (form.signedBy sign rest).map WrittenNumber.text =
      (unsigned? rest).map (sign.toList ++ ·) := by
  simp only [unsigned?, signedBy, fractionRun_eq different]
  split <;> rfl

theorem longest?_eq (form : NumberForm) (text : List Char) :
    form.longest? text = (form.leading? text).map WrittenNumber.text := by
  have unsignedText (different : form ≠ whole) (rest : List Char) :
      unsigned? rest = (form.signedBy none rest).map WrittenNumber.text := by
    rw [text_signedBy different]
    exact Option.map_id'.symm
  cases form with
  | unsigned => exact unsignedText nofun text
  | whole =>
      change longest? whole text = (signedBy whole none text).map WrittenNumber.text
      simp only [longest?, signedBy, takeFraction]
      split
      · rfl
      · simp [WrittenNumber.text, WrittenNumber.fractionText]
  | signed =>
      cases text with
      | nil => exact unsignedText nofun []
      | cons first rest =>
          by_cases plus : first = '+'
          · subst plus
            exact (text_signedBy (show signed ≠ whole from nofun) (some '+') rest).symm
          · by_cases minus : first = '-'
            · subst minus
              exact (text_signedBy (show signed ≠ whole from nofun) (some '-') rest).symm
            · rw [leading?, takeSign_of_other _ plus minus, ← unsignedText nofun]
              simp [longest?, plus, minus]

/-! Its parts are what the grammar says. -/

theorem takeSign_cases (form : NumberForm) (text : List Char) :
    form.takeSign text = (none, text) ∨ ∃ sign rest,
      some sign ∈ form.signs ∧ text = sign :: rest ∧ form.takeSign text = (some sign, rest) := by
  unfold takeSign
  split
  · exact .inr ⟨'+', _, by decide, rfl, rfl⟩
  · exact .inr ⟨'-', _, by decide, rfl, rfl⟩
  · exact .inl rfl

theorem takeFraction_cases (form : NumberForm) (text : List Char) :
    form.takeFraction text = none ∨ form ≠ whole ∧ ∃ rest,
      text = '.' :: rest ∧ form.takeFraction text = some (digitRun rest).1 := by
  unfold takeFraction
  split
  · exact .inl rfl
  · exact .inr ⟨by assumption, _, rfl, rfl⟩
  · exact .inl rfl

theorem takeFraction_leads (form : NumberForm) (text : List Char) :
    WrittenNumber.fractionText (form.takeFraction text) <+: text := by
  rcases form.takeFraction_cases text with none | ⟨-, rest, rfl, taken⟩
  · rw [none]
    exact List.nil_prefix
  · rw [taken]
    exact (List.prefix_cons_inj '.').2 ⟨_, digitRun_append rest⟩

theorem signedBy_follows {sign : Option Char} {rest : List Char} (allowed : sign ∈ form.signs)
    (found : form.signedBy sign rest = some number) :
    number.Follows form ∧ number.text <+: sign.toList ++ rest := by
  unfold signedBy at found
  split at found
  · cases found
  · rename_i some
    obtain rfl := Option.some.inj found
    have fraction := form.takeFraction_cases (digitRun rest).2
    constructor
    · refine ⟨allowed, by simpa using some, fun _ => mem_digitRun, fun pointed => ?_, ?_⟩
      · rcases fraction with none | ⟨different, -⟩
        · simp [none] at pointed
        · exact different
      · intro digits isFraction digit member
        rcases fraction with none | ⟨-, after, -, taken⟩
        · simp [none] at isFraction
        · rw [taken] at isFraction
          obtain rfl := Option.some.inj isFraction
          exact mem_digitRun member
    · obtain ⟨after, split⟩ := form.takeFraction_leads (digitRun rest).2
      refine ⟨after, ?_⟩
      simp only [WrittenNumber.text, List.append_assoc, split, digitRun_append]

/-- What is found part by part is a number of the form at the beginning of the text. -/
theorem leading?_sound (found : form.leading? text = some number) :
    number.Follows form ∧ number.text <+: text := by
  unfold leading? at found
  rcases form.takeSign_cases text with same | ⟨sign, rest, allowed, rfl, taken⟩
  · rw [same] at found
    exact signedBy_follows (by cases form <;> exact .head _) found
  · rw [taken] at found
    exact signedBy_follows allowed found

theorem takeSign_append {sign : Option Char} (allowed : sign ∈ form.signs) {digit : Char}
    (isDigit : isDecimalDigit digit = true) (rest : List Char) :
    form.takeSign (sign.toList ++ digit :: rest) = (sign, digit :: rest) := by
  cases sign with
  | some sign =>
      cases form <;> simp only [signs, List.mem_cons, List.not_mem_nil, reduceCtorEq, false_or,
        or_false, Option.some.injEq] at allowed
      rcases allowed with rfl | rfl <;> rfl
  | none =>
      obtain ⟨plus, minus⟩ := ne_sign_of_digit isDigit
      exact form.takeSign_of_other plus minus rest

/-- The parts in front of any text are found again, except that the last of them may go on. -/
theorem leading?_append (follows : number.Follows form) (rest : List Char) :
    form.leading? (number.text ++ rest) = some
      (match number.fraction with
      | some digits => { number with fraction := some (digits ++ (digitRun rest).1) }
      | none =>
          { number with
            whole := number.whole ++ (digitRun rest).1
            fraction := form.takeFraction (digitRun rest).2 }) := by
  obtain ⟨sign, whole, fraction⟩ := number
  obtain ⟨first, others, rfl⟩ := List.exists_cons_of_ne_nil follows.begun
  have taken := takeSign_append follows.sign (follows.whole first List.mem_cons_self)
    (others ++ (WrittenNumber.fractionText fraction ++ rest))
  have run := digitRun_of_digits follows.whole (WrittenNumber.fractionText fraction ++ rest)
  simp only [List.cons_append] at run taken
  simp only [WrittenNumber.text, List.append_assoc, List.cons_append, leading?, taken, signedBy,
    run]
  cases fraction with
  | none => rfl
  | some digits =>
      have different := follows.pointed rfl
      have more : form.takeFraction ('.' :: (digits ++ rest)) =
          some (digitRun (digits ++ rest)).1 := by
        cases form <;> first | rfl | exact absurd rfl different
      simp [WrittenNumber.fractionText, digitRun_of_point, more,
        digitRun_of_digits (follows.fraction digits rfl)]

theorem leading?_text (follows : number.Follows form) :
    form.leading? number.text = some number := by
  have whole := leading?_append follows []
  obtain ⟨sign, whole, fraction⟩ := number
  cases fraction <;> cases form <;> simpa [digitRun, takeFraction] using whole

theorem text_injective {other : WrittenNumber} (follows : number.Follows form)
    (otherFollows : other.Follows form) (same : number.text = other.text) : number = other := by
  apply Option.some.inj
  rw [← leading?_text follows, same, leading?_text otherFollows]

/-- Every number of the form at the beginning of the text is a beginning of the one found there. -/
theorem leading?_complete (follows : number.Follows form) (leads : number.text <+: text) :
    ∃ longest, form.leading? text = some longest ∧ number.text <+: longest.text := by
  obtain ⟨rest, rfl⟩ := leads
  refine ⟨_, leading?_append follows rest, ?_⟩
  obtain ⟨sign, whole, fraction⟩ := number
  cases fraction <;> simp [WrittenNumber.text, WrittenNumber.fractionText]

/-- A number is found exactly where one begins. -/
theorem begins_iff : form.Begins text ↔ ∃ number, form.leading? text = some number := by
  constructor
  · rintro ⟨sign, allowed, digit, rest, rfl, isDigit⟩
    have follows : WrittenNumber.Follows ⟨sign, [digit], none⟩ form :=
      ⟨allowed, nofun, by simpa using isDigit, nofun, nofun⟩
    obtain ⟨longest, found, -⟩ := leading?_complete follows
      (show _ <+: sign.toList ++ digit :: rest from ⟨rest, by
        simp [WrittenNumber.text, WrittenNumber.fractionText]⟩)
    exact ⟨longest, found⟩
  · rintro ⟨⟨sign, whole, fraction⟩, found⟩
    obtain ⟨follows, after, rfl⟩ := leading?_sound found
    obtain ⟨first, others, rfl⟩ := List.exists_cons_of_ne_nil follows.begun
    refine ⟨sign, follows.sign, first, others ++ WrittenNumber.fractionText fraction ++ after, ?_,
      follows.whole first List.mem_cons_self⟩
    simp [WrittenNumber.text]

theorem isLongest_iff : form.IsLongest text number ↔ form.leading? text = some number := by
  constructor
  · rintro ⟨follows, leads, longest⟩
    obtain ⟨found, isFound, within⟩ := leading?_complete follows leads
    obtain ⟨foundFollows, foundLeads⟩ := leading?_sound isFound
    have same : number.text = found.text :=
      within.eq_of_length_le (longest found foundFollows foundLeads)
    rw [isFound, text_injective follows foundFollows same]
  · intro found
    obtain ⟨follows, leads⟩ := leading?_sound found
    refine ⟨follows, leads, fun other otherFollows otherLeads => ?_⟩
    obtain ⟨longest, isLongest, within⟩ := leading?_complete otherFollows otherLeads
    rw [found] at isLongest
    obtain rfl := Option.some.inj isLongest
    exact within.length_le

end NumberForm

end BenchPrinter
