import BenchPrinter.Command.Word

/-!
Words as search expressions. An expression that is searched for in a line matches in several ways;
the leftmost place that has a match counts, and there the way that is preferred at each choice, where
more is preferred to less. This is how the words of a line are told from one another.
-/

namespace BenchPrinter

/-- A character of some kind, one expression after another, one that may be missing, and characters
of some kind as long as they go on. -/
inductive Expression where
  | one (kind : Char → Bool)
  | sequence (first second : Expression)
  | optional (part : Expression)
  | many (kind : Char → Bool)

namespace Expression

/-- A way to match: what is matched, and what is left of the text. -/
abbrev Way := List Char × List Char

/-- The longest run of characters of some kind comes first. -/
def runs (kind : Char → Bool) : List Char → List Way
  | [] => [([], [])]
  | first :: rest =>
      if kind first then (runs kind rest).map (fun way => (first :: way.1, way.2)) ++
        [([], first :: rest)]
      else [([], first :: rest)]

/-- All ways to match at the beginning of the text, in the order of preference. -/
def ways : Expression → List Char → List Way
  | one _, [] => []
  | one kind, first :: rest => if kind first then [([first], rest)] else []
  | sequence first second, text =>
      (first.ways text).flatMap fun way =>
        (second.ways way.2).map fun next => (way.1 ++ next.1, next.2)
  | optional part, text => part.ways text ++ [([], text)]
  | many kind, text => runs kind text

/-- The preferred match at the beginning of the text. -/
def preferred? (expression : Expression) (text : List Char) : Option Way :=
  (expression.ways text).head?

/-- What the preferred way matches. -/
def match? (expression : Expression) (text : List Char) : Option (List Char) :=
  (expression.preferred? text).map Prod.fst

/-- The preferred match at the leftmost place that has one. -/
def find? (expression : Expression) : List Char → Option (List Char)
  | [] => expression.match? []
  | first :: rest => (expression.match? (first :: rest)).or (expression.find? rest)

def digits : Expression := sequence (one isDecimalDigit) (many isDecimalDigit)

/-- A point, and the digits after it, if there are any. -/
def fraction : Expression := optional (sequence (one (· == '.')) (many isDecimalDigit))

def sign : Expression := optional (one fun mark => mark == '+' || mark == '-')

end Expression

/-- The form of a number as an expression. -/
def NumberForm.expression : NumberForm → Expression
  | signed => .sequence .sign (.sequence .digits .fraction)
  | unsigned => .sequence .digits .fraction
  | whole => .digits

/-- One of the letters, and a number after it. -/
def Expression.word (letters : List Char) (form : NumberForm) : Expression :=
  .sequence (.one letters.contains) form.expression

namespace Expression

variable {first second : Expression} {text : List Char}

/-! The ways of each kind of expression, so that no proof has to open the recursion. -/

@[simp] theorem ways_one_nil (kind : Char → Bool) : (one kind).ways [] = [] := rfl

@[simp] theorem ways_one_cons (kind : Char → Bool) (letter : Char) (rest : List Char) :
    (one kind).ways (letter :: rest) = if kind letter then [([letter], rest)] else [] := rfl

theorem ways_sequence : (sequence first second).ways text =
    (first.ways text).flatMap fun way =>
      (second.ways way.2).map fun next => (way.1 ++ next.1, next.2) := rfl

theorem ways_optional : (optional first).ways text = first.ways text ++ [([], text)] := rfl

theorem ways_many (kind : Char → Bool) : (many kind).ways text = runs kind text := rfl

theorem match?_eq : first.match? text = (first.ways text).head?.map Prod.fst := rfl

theorem ways_of_match?_none (none : second.match? text = none) : second.ways text = [] :=
  List.head?_eq_none_iff.1 (Option.map_eq_none_iff.1 none)

/-- With only one way to match the first part, the second part decides. -/
theorem match?_sequence_of_one {way : Way} (only : first.ways text = [way]) :
    (sequence first second).match? text = (second.match? way.2).map (way.1 ++ ·) := by
  rw [match?_eq, ways_sequence, only, List.flatMap_singleton, List.head?_map, match?_eq,
    Option.map_map, Option.map_map]
  rfl

theorem match?_sequence_of_none (nowhere : first.ways text = []) :
    (sequence first second).match? text = none := by
  rw [match?_eq, ways_sequence, nowhere]
  rfl

/-- The preferred way of the first part stands if the second part can follow it. -/
theorem match?_sequence {way : Way} {matched : List Char} (leads : first.preferred? text = some way)
    (follows : second.match? way.2 = some matched) :
    (sequence first second).match? text = some (way.1 ++ matched) := by
  obtain ⟨others, isFirst⟩ := List.head?_eq_some_iff.1 leads
  obtain ⟨next, isNext, rfl⟩ := Option.map_eq_some_iff.1 follows
  obtain ⟨more, isNext⟩ := List.head?_eq_some_iff.1 isNext
  rw [match?_eq, ways_sequence, isFirst, List.flatMap_cons, isNext]
  rfl

theorem preferred?_many (kind : Char → Bool) (text : List Char) :
    (many kind).preferred? text = some (text.takeWhile kind, text.dropWhile kind) := by
  rw [preferred?, ways_many]
  induction text with
  | nil => rfl
  | cons letter rest inductionHypothesis =>
      rw [runs]
      split
      · rename_i isKind
        simp [List.head?_append, List.head?_map, inductionHypothesis, isKind]
      · rename_i other
        simp [other]

theorem ways_digits_of_none (none : (digitRun text).1.isEmpty = true) : digits.ways text = [] := by
  apply ways_of_match?_none
  apply match?_sequence_of_none
  cases text with
  | nil => rfl
  | cons letter rest =>
      cases digit : isDecimalDigit letter with
      | false => simp [digit]
      | true => simp [digitRun, digit] at none

theorem preferred?_digits (some : (digitRun text).1.isEmpty = false) :
    digits.preferred? text = Option.some (digitRun text) := by
  cases text with
  | nil => cases some
  | cons letter rest =>
      cases digit : isDecimalDigit letter with
      | false => simp [digitRun, digit] at some
      | true =>
          have run : (runs isDecimalDigit rest).head? = _ := preferred?_many isDecimalDigit rest
          simp [preferred?, digits, ways_sequence, ways_many, digit, List.head?_map, run, digitRun]

/-- A fraction always matches, perhaps nothing. -/
theorem match?_fraction (text : List Char) : fraction.match? text = some (fractionRun text) := by
  cases text with
  | nil => rfl
  | cons letter rest =>
      by_cases point : letter = '.'
      · subst point
        have run : (runs isDecimalDigit rest).head? = _ := preferred?_many isDecimalDigit rest
        simp [match?_eq, fraction, ways_optional, ways_sequence, ways_many, List.head?_append,
          List.head?_map, run, fractionRun, digitRun]
      · simp [match?_eq, fraction, ways_optional, ways_sequence, fractionRun, point]

theorem match?_unsigned (text : List Char) :
    (sequence digits fraction).match? text = NumberForm.unsigned? text := by
  rw [NumberForm.unsigned?]
  cases none : (digitRun text).1.isEmpty with
  | true => simp [none, match?_sequence_of_none (ways_digits_of_none none)]
  | false => simp [none, match?_sequence (preferred?_digits none) (match?_fraction _)]

/-- No sign is a way as well, but no number without a sign begins with a sign. -/
theorem match?_signed {mark : Char} (isMark : mark = '+' ∨ mark = '-') (rest : List Char) :
    NumberForm.signed.expression.match? (mark :: rest) =
      (NumberForm.unsigned? rest).map (mark :: ·) := by
  have marked : sign.ways (mark :: rest) = [([mark], rest), ([], mark :: rest)] := by
    rcases isMark with rfl | rfl <;> rfl
  cases unsigned : NumberForm.unsigned? rest with
  | some number =>
      rw [← match?_unsigned] at unsigned
      have leads : sign.preferred? (mark :: rest) = some ([mark], rest) := by
        rw [preferred?, marked]
        rfl
      exact match?_sequence leads unsigned
  | none =>
      rw [← match?_unsigned] at unsigned
      have noDigit : isDecimalDigit mark = false := by
        rcases isMark with rfl | rfl <;> decide
      have nowhere : (sequence digits fraction).match? (mark :: rest) = none := by
        rw [match?_unsigned, NumberForm.unsigned?]
        simp [digitRun, noDigit]
      rw [match?_eq, NumberForm.expression, ways_sequence, marked]
      simp [ways_of_match?_none unsigned, ways_of_match?_none nowhere]

/-- The preferred match is the longest number of the form. -/
theorem match?_expression (form : NumberForm) (text : List Char) :
    form.expression.match? text = form.longest? text := by
  cases form with
  | unsigned => exact match?_unsigned text
  | whole =>
      rw [NumberForm.longest?]
      cases none : (digitRun text).1.isEmpty with
      | true =>
          rw [NumberForm.expression, match?_eq, ways_digits_of_none none]
          rfl
      | false =>
          rw [NumberForm.expression, match?, preferred?_digits none]
          rfl
  | signed =>
      have unmarked (none : sign.ways text = [([], text)]) :
          NumberForm.signed.expression.match? text = NumberForm.unsigned? text := by
        rw [NumberForm.expression, match?_sequence_of_one none, match?_unsigned]
        exact Option.map_id'
      cases text with
      | nil => exact unmarked rfl
      | cons letter rest =>
          by_cases plus : letter = '+'
          · subst plus
            exact match?_signed (.inl rfl) rest
          · by_cases minus : letter = '-'
            · subst minus
              exact match?_signed (.inr rfl) rest
            · rw [unmarked (by simp [sign, ways_optional, plus, minus])]
              simp [NumberForm.longest?, plus, minus]

theorem match?_word (letters : List Char) (form : NumberForm) (letter : Char) (rest : List Char) :
    (word letters form).match? (letter :: rest) =
      if letters.contains letter then (form.longest? rest).map (letter :: ·) else none := by
  split
  · rename_i named
    have only : (one letters.contains).ways (letter :: rest) = [([letter], rest)] := by
      rw [ways_one_cons, if_pos named]
    rw [word, match?_sequence_of_one only, match?_expression]
    rfl
  · rename_i other
    exact match?_sequence_of_none (by rw [ways_one_cons, if_neg other])

/-- The leftmost match of a word is its letter and the number that the search for words finds. -/
theorem find?_word (letters : List Char) (form : NumberForm) (line : List Char) :
    ((word letters form).find? line).map List.tail = findWord? letters form line := by
  induction line with
  | nil => rfl
  | cons letter rest inductionHypothesis =>
      have here := match?_word letters form letter rest
      rw [find?, here, Option.map_or, inductionHypothesis, findWord?]
      cases letters.contains letter with
      | false => rfl
      | true => cases form.longest? rest <;> rfl

end Expression

end BenchPrinter
