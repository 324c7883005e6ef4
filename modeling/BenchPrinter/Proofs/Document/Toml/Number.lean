import BenchPrinter.Document.Toml.Value
import BenchPrinter.Document.Toml.Writer
import BenchPrinter.Proofs.Document.Doubles

/-!
Numbers in TOML, written and read. Integers of 64 bits and finite doubles come back unchanged.
-/

namespace BenchPrinter.Toml

section

variable {text rest : List Char} {mark : Char}

/-- A character that ends a run of digits. -/
def EndsRun (mark : Char) : Prop := asciiDigit? mark = none ∧ mark ≠ '_'

theorem moreDigits_append (digits : IsDigits text) (ends : EndsRun mark) (rest : List Char) :
    moreDigits asciiDigit? (text ++ mark :: rest) = (text.map digitValue, mark :: rest) := by
  induction text with
  | nil =>
      rw [List.nil_append, moreDigits]
      · rw [ends.1]
        rfl
      · exact fun _ _ same _ => ends.2 same
  | cons character text inductionHypothesis =>
      have isDigit := digits character List.mem_cons_self
      have read := asciiDigit?_of_isDigit isDigit
      rw [List.cons_append, moreDigits]
      · rw [read]
        dsimp only
        rw [inductionHypothesis digits.tail]
        rfl
      · rintro _ _ rfl
        exact absurd isDigit (by decide)

theorem digits?_append (digits : IsDigits text) (some : text ≠ []) (ends : EndsRun mark)
    (rest : List Char) :
    digits? asciiDigit? (text ++ mark :: rest) = Option.some (text.map digitValue, mark :: rest) := by
  rcases text with _ | ⟨character, text⟩
  · exact absurd rfl some
  · rw [List.cons_append, digits?, asciiDigit?_of_isDigit (digits character List.mem_cons_self)]
    dsimp only
    rw [moreDigits_append digits.tail ends]
    rfl

variable {spelling : Spelling}

theorem wholeDigits?_append (proper : spelling.IsProper) (ends : EndsRun mark) (rest : List Char) :
    wholeDigits? (spelling.whole ++ mark :: rest) =
      some (spelling.whole.map digitValue, mark :: rest) := by
  rcases proper.leading with zero | head
  · rw [zero]
    rfl
  · rw [wholeDigits?, digits?_append proper.whole proper.some ends]
    intro others same
    rcases form : spelling.whole with _ | ⟨first, digits⟩
    · exact proper.some form
    · rw [form] at same head
      exact head (congrArg List.head? same)

theorem endsRun_lineEnd : EndsRun '\n' := ⟨by decide, by decide⟩

theorem endsRun_point : EndsRun '.' := ⟨by decide, by decide⟩

theorem sign_spelling (proper : spelling.IsProper) (negative : Bool) (rest : List Char) :
    sign ((if negative then ['-'] else []) ++ spelling.text ++ rest) =
      (negative, spelling.text ++ rest) := by
  cases negative with
  | true => rfl
  | false =>
      obtain ⟨first, others, form, isDigit⟩ := proper.begins
      rw [if_neg Bool.false_ne_true, List.nil_append, form, sign, Numeral.splitSign]
      · rintro _ same
        obtain rfl := (List.cons.inj same).1
        exact absurd isDigit (by decide)
      · rintro _ same
        obtain rfl := (List.cons.inj same).1
        exact absurd isDigit (by decide)

/-- A number without fraction and exponent is an integer. -/
theorem decimal?_integer (size : Nat) (negative : Bool) (rest : List Char)
    (fits : isInRange (if negative then -(size : Int) else size) = true) :
    decimal? ((if negative then ['-'] else []) ++ (integerSpelling size).text ++ '\n' :: rest) =
      some (.integer (if negative then -(size : Int) else size), '\n' :: rest) := by
  have proper := integerSpelling_proper size
  have whole := wholeDigits?_append proper endsRun_lineEnd rest
  have text : (integerSpelling size).text = (integerSpelling size).whole := by
    simp [Spelling.text, integerSpelling, Spelling.powerText]
  have spells : spelled 10 ((integerSpelling size).whole.map digitValue) = size :=
    spelled_toDigits size
  have point : fractionDigits? ('\n' :: rest) = some ([], '\n' :: rest) := rfl
  have power : power? ('\n' :: rest) = some (none, '\n' :: rest) := rfl
  rw [decimal?, sign_spelling proper]
  dsimp only
  rw [text, whole]
  simp only [point, power, spells, fits, List.isEmpty_nil, Option.isNone_none, and_self,
    if_true]

/-- A number with a fraction is the double nearest to it. -/
theorem decimal?_fraction (proper : spelling.IsProper) (plain : spelling.power = none)
    (broken : spelling.fraction ≠ []) (negative : Bool) (rest : List Char)
    (finite : (nearestDouble spelling.digits spelling.exponent).isInf = false) :
    decimal? ((if negative then ['-'] else []) ++ spelling.text ++ '\n' :: rest) =
      some (.decimal (signed negative (nearestDouble spelling.digits spelling.exponent)),
        '\n' :: rest) := by
  have whole := wholeDigits?_append proper endsRun_point (spelling.fraction ++ '\n' :: rest)
  have fraction := digits?_append proper.fraction broken endsRun_lineEnd rest
  have power : power? ('\n' :: rest) = some (none, '\n' :: rest) := rfl
  have text : spelling.text = spelling.whole ++ '.' :: spelling.fraction := by
    simp [Spelling.text, broken, plain, Spelling.powerText]
  have spells : spelled 10 (spelling.whole.map digitValue ++ spelling.fraction.map digitValue) =
      spelling.digits := by
    rw [← List.map_append, spelled_map, Spelling.digits]
  have exponent : (none : Option Int).getD 0 - (spelling.fraction.map digitValue).length =
      spelling.exponent := by
    rw [Spelling.exponent, plain, List.length_map]
  have some : (spelling.fraction.map digitValue).isEmpty = false := by
    rw [List.isEmpty_eq_false_iff, Ne, List.map_eq_nil_iff]
    exact broken
  rw [decimal?, sign_spelling proper]
  dsimp only
  rw [text, List.append_assoc, List.cons_append, whole]
  simp only [fractionDigits?, fraction, power, spells, exponent, some, finite, false_and,
    Bool.false_eq_true, if_false]

end

/-- Whatever is read up to the end of the line, a mark that is not on the line does not follow. -/
theorem skip?_of_absent {mark : Char} {line : List Char} (absent : mark ∉ line)
    (noLineEnd : mark ≠ '\n') (rest : List Char) {width number : Nat}
    (digits : (readDigits number ((line ++ '\n' :: rest).take width)).isSome = true) :
    skip? mark ((line ++ '\n' :: rest).drop width) = none := by
  induction line generalizing width number with
  | nil =>
      cases width with
      | zero => exact if_neg (Ne.symm noLineEnd)
      | succ width => exact absurd digits (by simp [readDigits, asciiDigit?])
  | cons character line inductionHypothesis =>
      obtain ⟨different, absent⟩ := not_or.1 (mt List.mem_cons.2 absent)
      cases width with
      | zero => exact if_neg (Ne.symm different)
      | succ width =>
          rw [List.cons_append, List.take_succ_cons, readDigits] at digits
          rw [List.cons_append, List.drop_succ_cons]
          split at digits
          · exact inductionHypothesis absent digits
          · exact absurd digits (by decide)

theorem fixedDigits?_some {width number : Nat} {text rest : List Char}
    (read : fixedDigits? width text = some (number, rest)) :
    (readDigits 0 (text.take width)).isSome = true ∧ rest = text.drop width := by
  rw [fixedDigits?] at read
  split at read
  · obtain ⟨found, digits, same⟩ := Option.map_eq_some_iff.1 read
    rw [digits]
    exact ⟨rfl, (congrArg Prod.snd same).symm⟩
  · exact absurd read nofun

theorem fixedDigits?_minus (width : Nat) (text : List Char) :
    fixedDigits? (width + 1) ('-' :: text) = none := by
  rw [fixedDigits?, List.take_succ_cons, readDigits]
  split <;> rfl

theorem date?_none {text : List Char}
    (noDigits : ∀ found, fixedDigits? 4 text = some found → skip? '-' found.2 = none) :
    date? text = none := by
  rw [date?]
  rcases read : fixedDigits? 4 text with _ | found
  · rfl
  · simp [noDigits found read]

theorem time?_none {text : List Char}
    (noDigits : ∀ found, fixedDigits? 2 text = some found → skip? ':' found.2 = none) :
    time? text = none := by
  rw [time?, twoDigits?]
  rcases read : fixedDigits? 2 text with _ | ⟨number, rest⟩
  · rfl
  · have none := noDigits _ read
    dsimp only at none ⊢
    split <;> simp [none]

/-- A line without colons, and with a minus sign in front only, is no moment. -/
theorem moment?_none {line : List Char} (noMinus : '-' ∉ line) (noColon : ':' ∉ line)
    (negative : Bool) (rest : List Char) :
    moment? ((if negative then ['-'] else []) ++ line ++ '\n' :: rest) = none := by
  have absent (mark : Char) (different : mark ≠ '\n') (notOnLine : mark ∉ line) (width : Nat)
      (found : Nat × List Char) (read : fixedDigits? (width + 1)
        ((if negative then ['-'] else []) ++ line ++ '\n' :: rest) = some found) :
      skip? mark found.2 = none := by
    cases negative with
    | true =>
        rw [if_pos rfl, List.cons_append, List.cons_append, fixedDigits?_minus] at read
        exact absurd read nofun
    | false =>
        obtain ⟨digits, after⟩ := fixedDigits?_some read
        rw [after]
        exact skip?_of_absent notOnLine different rest digits
  rw [moment?, date?_none fun found read => absent '-' (by decide) noMinus 3 found read]
  exact time?_none fun found read => absent ':' (by decide) noColon 1 found read

section

variable {spelling : Spelling}

theorem not_mem_text (proper : spelling.IsProper) (plain : spelling.power = none) {mark : Char}
    (noDigit : mark.isDigit = false) (noPoint : mark ≠ '.') : mark ∉ spelling.text := by
  have absent {digits : List Char} (isDigits : IsDigits digits) : mark ∉ digits :=
    fun member => Bool.false_ne_true (noDigit.symm.trans (isDigits mark member))
  rw [Spelling.text, plain, Spelling.powerText, List.append_nil, List.mem_append, not_or]
  refine ⟨absent proper.whole, ?_⟩
  split
  · exact List.not_mem_nil
  · exact List.not_mem_cons_of_ne_of_not_mem noPoint (absent proper.fraction)

/-- Neither a blank line nor another base begins like a number. -/
theorem second_ne {mark : Char} (absent : mark ∉ spelling.text) (noLineEnd : mark ≠ '\n')
    (proper : spelling.IsProper) (negative : Bool) (rest others : List Char) :
    (if negative then ['-'] else []) ++ spelling.text ++ '\n' :: rest ≠ '0' :: mark :: others := by
  intro same
  cases negative with
  | true => exact absurd (List.cons.inj same).1 (by decide)
  | false =>
      obtain ⟨first, digits, form, -⟩ := proper.begins
      rw [form] at absent same
      rcases digits with _ | ⟨second, digits⟩
      · exact noLineEnd (List.cons.inj (List.cons.inj same).2).1.symm
      · have seconds : second = mark := (List.cons.inj (List.cons.inj same).2).1
        rw [seconds] at absent
        exact absent (List.mem_cons_of_mem _ List.mem_cons_self)

theorem special?_none (proper : spelling.IsProper) (negative : Bool) (rest : List Char) :
    special? ((if negative then ['-'] else []) ++ spelling.text ++ rest) = none := by
  obtain ⟨first, digits, form, isDigit⟩ := proper.begins
  have other (mark : Char) (noDigit : mark.isDigit = false) : first ≠ mark := by
    rintro rfl
    exact Bool.false_ne_true (noDigit.symm.trans isDigit)
  rw [special?, sign_spelling proper, form]
  dsimp only
  split
  · rename_i same
    exact absurd (List.cons.inj same).1 (other _ (by decide))
  · rename_i same
    exact absurd (List.cons.inj same).1 (other _ (by decide))
  · rfl

theorem number?_spelling (proper : spelling.IsProper) (plain : spelling.power = none)
    (negative : Bool) (rest : List Char) :
    number? ((if negative then ['-'] else []) ++ spelling.text ++ '\n' :: rest) =
      decimal? ((if negative then ['-'] else []) ++ spelling.text ++ '\n' :: rest) := by
  have second {mark : Char} (special : mark.isDigit = false ∧ mark ≠ '.' ∧ mark ≠ '\n') :=
    second_ne (not_mem_text proper plain special.1 special.2.1) special.2.2 proper negative rest
  rw [number?, special?_none proper]
  · exact fun others => second (by decide) others
  · exact fun others => second (by decide) others
  · exact fun others => second (by decide) others

/-- A number that is written without an exponent is read as a decimal number. -/
theorem value?_spelling (proper : spelling.IsProper) (plain : spelling.power = none)
    (negative : Bool) (depth : Nat) (rest : List Char) :
    value? depth ((if negative then ['-'] else []) ++ spelling.text ++ '\n' :: rest) =
      decimal? ((if negative then ['-'] else []) ++ spelling.text ++ '\n' :: rest) := by
  have noMinus : '-' ∉ spelling.text := not_mem_text proper plain (by decide) (by decide)
  have noColon : ':' ∉ spelling.text := not_mem_text proper plain (by decide) (by decide)
  have moment := moment?_none noMinus noColon negative rest
  have number := number?_spelling proper plain negative rest
  obtain ⟨mark, tail, form, begins⟩ := signed_begins proper negative
  rw [form, List.cons_append] at moment number ⊢
  have other {special : Char} {found expected : List Char}
      (same : mark :: found = special :: expected)
      (noNumber : special ≠ '-' ∧ special.isDigit = false) : False :=
    begins.ne noNumber (List.cons.inj same).1
  have noText : text? (mark :: (tail ++ '\n' :: rest)) = none := by
    rw [text?]
    · exact fun _ same => other same (by decide)
    · exact fun _ same => other same (by decide)
    · exact fun _ same => other same (by decide)
    · exact fun _ same => other same (by decide)
  have scalar : scalar? (mark :: (tail ++ '\n' :: rest)) =
      decimal? (mark :: (tail ++ '\n' :: rest)) := by
    rw [scalar?]
    · rw [noText]
      dsimp only
      rw [moment]
      exact number
    · exact fun _ same => other same (by decide)
    · exact fun _ same => other same (by decide)
  cases depth with
  | zero => exact scalar
  | succ depth =>
      rw [value?]
      · exact scalar
      · exact fun _ same => other same (by decide)
      · exact fun _ same => other same (by decide)

theorem value?_integer {value : Int} (fits : isInRange value = true) (depth : Nat)
    (rest : List Char) :
    value? depth ((toString value).toList ++ '\n' :: rest) =
      some (.integer value, '\n' :: rest) := by
  have signed : (if decide (value < 0) = true then -(value.natAbs : Int) else value.natAbs) =
      value := by
    split <;> rename_i negative <;> rw [decide_eq_true_eq] at negative <;> omega
  have read := decimal?_integer value.natAbs (decide (value < 0)) rest (by rw [signed]; exact fits)
  rw [signed] at read
  rw [toString_eq, value?_spelling (integerSpelling_proper _) rfl, read]

end

/-- A double is written with a fraction and no exponent. -/
theorem doubleSpelling_form (value : Float) :
    (doubleStyle.spelling value).fraction ≠ [] ∧ (doubleStyle.spelling value).power = none :=
  Decimal.positional_marked _

theorem value?_double {value : Float} (finite : Double.IsFinite value) (depth : Nat)
    (rest : List Char) :
    value? depth ((doubleStyle.write value).toList ++ '\n' :: rest) =
      some (.decimal value, '\n' :: rest) := by
  have proper : (doubleStyle.spelling value).IsProper := DoubleStyle.spelling_proper rfl value
  obtain ⟨broken, plain⟩ := doubleSpelling_form value
  have nearest := DoubleStyle.nearestDouble_spelling doubleStyle finite
  have read := decimal?_fraction proper plain broken (DoublePattern.ofFloat value).negative rest
    (by rw [nearest]; exact Double.magnitude_isInf finite)
  rw [DoubleStyle.write_eq rfl finite, value?_spelling proper plain, read, nearest, signed,
    Double.signed_magnitude finite]

end BenchPrinter.Toml
