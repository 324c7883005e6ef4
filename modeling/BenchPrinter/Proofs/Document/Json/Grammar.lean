import BenchPrinter.Proofs.Document.Json.Tree

/-!
The grammar of JSON. It says which texts spell a tree, with any blanks between the parts and with
any spelling of the texts and numbers. The reader takes exactly the texts of the grammar, each for
its tree.
-/

namespace BenchPrinter.Json

/-! The grammar itself does not mention the reader. -/

/-- A piece of a text as it may be written. -/
inductive SpellsPiece : List Char → Piece → Prop where
  | plain {character : Char} (noQuote : character ≠ '"') (noEscape : character ≠ '\\')
      (noControl : ¬ character.toNat < 0x20) : SpellsPiece [character] (.character character)
  | letter {letter character : Char} (escapes : shortEscape? letter = some character) :
      SpellsPiece ['\\', letter] (.character character)
  | unit {a b c d : Char} {code : Nat} (hex : readHex 0 [a, b, c, d] = some code) :
      SpellsPiece ['\\', 'u', a, b, c, d] (.unit code)

inductive SpellsPieces : List Char → List Piece → Prop where
  | nil : SpellsPieces [] []
  | cons {text later : List Char} {piece : Piece} {pieces : List Piece}
      (first : SpellsPiece text piece) (others : SpellsPieces later pieces) :
      SpellsPieces (text ++ later) (piece :: pieces)

/-- An exponent may be left out, and its sign may be. -/
inductive SpellsPower : List Char → Option Int → Prop where
  | missing : SpellsPower [] none
  | present {mark : Char} {sign digits : List Char} {negative : Bool}
      (marks : mark = 'e' ∨ mark = 'E')
      (signs : (sign, negative) ∈ [([], false), (['+'], false), (['-'], true)])
      (filled : digits ≠ []) (areDigits : IsDigits digits) :
      SpellsPower (mark :: (sign ++ digits))
        (some (if negative then -(Nat.ofDigitChars 10 digits 0 : Int)
          else Nat.ofDigitChars 10 digits 0))

/-- A point stands in front of digits only. -/
def fractionText (digits : List Char) : List Char :=
  if digits.isEmpty then [] else '.' :: digits

/-- A number as it may be written. -/
inductive SpellsNumber : List Char → NumberText → Prop where
  | mk (negative : Bool) {whole fraction power : List Char} {exponent : Option Int}
      (proper : Spelling.IsProper ⟨whole, fraction, none⟩) (powers : SpellsPower power exponent) :
      SpellsNumber ((if negative then ['-'] else []) ++ (whole ++ (fractionText fraction ++ power)))
        ⟨negative, whole.map digitValue, fraction.map digitValue, exponent⟩

/-- Items with commas between them and blanks around each of them. -/
inductive Separated {β : Type} (spells : List Char → β → Prop) : List Char → List β → Prop where
  | last {before text after : List Char} {item : β} (beforeBlank : IsBlank before)
      (spelled : spells text item) (afterBlank : IsBlank after) :
      Separated spells (before ++ (text ++ after)) [item]
  | more {before text after later : List Char} {item : β} {items : List β}
      (beforeBlank : IsBlank before) (spelled : spells text item) (afterBlank : IsBlank after)
      (others : Separated spells later items) :
      Separated spells (before ++ (text ++ (after ++ ',' :: later))) (item :: items)

/-- What may stand between two brackets. -/
inductive Inside {β : Type} (spells : List Char → β → Prop) : List Char → List β → Prop where
  | empty {blank : List Char} (isBlank : IsBlank blank) : Inside spells blank []
  | filled {text : List Char} {items : List β} (separated : Separated spells text items) :
      Inside spells text items

/-- A field as it may be written; it has no value when its name cannot be read. -/
inductive SpellsField (spells : List Char → Data → Prop) :
    List Char → Option (String × Data) → Prop where
  | mk {name gap before text : List Char} {pieces : List Piece} {data : Data}
      (named : SpellsPieces name pieces) (gapBlank : IsBlank gap) (beforeBlank : IsBlank before)
      (spelled : spells text data) :
      SpellsField spells ('"' :: (name ++ '"' :: (gap ++ ':' :: (before ++ text))))
        ((joined? pieces).map fun name => (String.ofList name, data))

/-- A value as it may be written when the values inside it are written as given. -/
inductive SpellsValue (inner : List Char → Data → Prop) : List Char → Data → Prop where
  | null : SpellsValue inner ['n', 'u', 'l', 'l'] .null
  | yes : SpellsValue inner ['t', 'r', 'u', 'e'] (.boolean true)
  | no : SpellsValue inner ['f', 'a', 'l', 's', 'e'] (.boolean false)
  | text {text : List Char} {pieces : List Piece} (spelled : SpellsPieces text pieces) :
      SpellsValue inner ('"' :: (text ++ ['"'])) (textValue pieces)
  | number {text : List Char} {number : NumberText} (spelled : SpellsNumber text number) :
      SpellsValue inner text number.value
  | list {text : List Char} {items : List Data} (inside : Inside inner text items) :
      SpellsValue inner ('[' :: (text ++ [']'])) (.list items)
  | record {text : List Char} {fields : List (Option (String × Data))}
      (inside : Inside (SpellsField inner) text fields) :
      SpellsValue inner ('{' :: (text ++ ['}'])) (recordValue fields)

/-- A value with fewer levels of brackets than given. -/
def SpellsWithin : Nat → List Char → Data → Prop
  | 0 => fun _ _ => False
  | depth + 1 => SpellsValue (SpellsWithin depth)

/-- The text is a JSON document for the tree. -/
inductive IsDocument (text : String) (data : Data) : Prop where
  | mk {before body after : List Char} (depth : Nat)
      (split : text.toList = before ++ (body ++ after)) (beforeBlank : IsBlank before)
      (spelled : SpellsWithin depth body data) (afterBlank : IsBlank after)

/-! What the grammar allows is read. -/

theorem pieces?_piece {text : List Char} {piece : Piece} (spelled : SpellsPiece text piece)
    (rest : List Char) : pieces? (text ++ rest) = Reader.prepend piece (pieces? rest) := by
  cases spelled with
  | @plain character noQuote noEscape noControl =>
      rw [List.singleton_append, pieces?]
      · exact if_neg (not_or.2 ⟨noEscape, noControl⟩)
      · exact noQuote
      · exact fun _ _ _ _ _ same _ => noEscape same
      · exact fun _ _ same _ => noEscape same
  | @letter letter character escapes =>
      have noUnit : letter ≠ 'u' := by
        rintro rfl
        cases escapes
      rw [List.cons_append, List.singleton_append, pieces?, escapes]
      intro _ _ _ _ _ same
      exact absurd same noUnit
  | unit hex =>
      rw [List.cons_append, List.cons_append, List.cons_append, List.cons_append, List.cons_append,
        List.singleton_append, pieces?, hex]

theorem pieces?_spelled {text : List Char} {pieces : List Piece}
    (spelled : SpellsPieces text pieces) (rest : List Char) :
    pieces? (text ++ '"' :: rest) = some (pieces, rest) := by
  induction spelled with
  | nil => rfl
  | cons first _ inductionHypothesis =>
      rw [List.append_assoc, pieces?_piece first, inductionHypothesis]
      rfl

theorem splitSign_spelled {sign digits rest : List Char} {negative : Bool}
    (signs : (sign, negative) ∈ [([], false), (['+'], false), (['-'], true)])
    (filled : digits ≠ []) (areDigits : IsDigits digits) :
    Numeral.splitSign (sign ++ (digits ++ rest)) = (negative, digits ++ rest) := by
  simp only [List.mem_cons, Prod.mk.injEq, List.not_mem_nil, or_false] at signs
  rcases signs with ⟨rfl, rfl⟩ | ⟨rfl, rfl⟩ | ⟨rfl, rfl⟩
  · rcases digits with _ | ⟨digit, others⟩
    · exact absurd rfl filled
    · have isDigit := areDigits digit List.mem_cons_self
      rw [List.nil_append, List.cons_append, Numeral.splitSign]
      · intro _ same
        obtain rfl := (List.cons.inj same).1
        exact absurd isDigit (by decide)
      · intro _ same
        obtain rfl := (List.cons.inj same).1
        exact absurd isDigit (by decide)
  · rfl
  · rfl

theorem powerDigits?_spelled {text : List Char} {power : Option Int}
    (spelled : SpellsPower text power) {rest : List Char} (ends : EndsNumber rest) :
    powerDigits? (text ++ rest) = some (power, rest) := by
  cases spelled with
  | missing => exact powerDigits?_none ends
  | present marks signs filled areDigits =>
      rename_i digits _
      have run := leadingDigits_append areDigits ends.digit
      have spells := spelled_map digits
      rw [List.cons_append, List.append_assoc, powerDigits?, if_pos marks,
        splitSign_spelled signs filled areDigits]
      dsimp only
      rw [run]
      rcases form : digits.map digitValue with _ | ⟨digit, others⟩
      · exact absurd (List.map_eq_nil_iff.1 form) filled
      · rw [form] at spells
        dsimp only
        rw [spells]

/-- What follows the digits before an exponent is no digit and no point. -/
theorem power_ends {text : List Char} {power : Option Int} (spelled : SpellsPower text power)
    {rest : List Char} (ends : EndsNumber rest) :
    EndsDigits (text ++ rest) ∧ (text ++ rest).head? ≠ some '.' := by
  cases spelled with
  | missing => exact ⟨ends.digit, ends.point⟩
  | present marks =>
      rw [List.cons_append]
      constructor
      · intro other first
        obtain rfl := Option.some_inj.1 first
        rcases marks with rfl | rfl <;> rfl
      · intro point
        obtain rfl := Option.some_inj.1 point
        rcases marks with absurd | absurd <;> cases absurd

theorem fractionDigits?_spelled {fraction : List Char} (areDigits : IsDigits fraction)
    {after : List Char} (ends : EndsDigits after) (noPoint : after.head? ≠ some '.') :
    fractionDigits? (fractionText fraction ++ after) =
      some (fraction.map digitValue, after) := by
  rcases fraction with _ | ⟨first, others⟩
  · rw [fractionText, List.isEmpty_nil, if_pos rfl, List.nil_append, fractionDigits?]
    · rfl
    · rintro others rfl
      exact noPoint rfl
  · have run := leadingDigits_append areDigits ends
    rw [fractionText, List.isEmpty_cons, if_neg Bool.false_ne_true, List.cons_append,
      fractionDigits?, run]
    rfl

/-- A number is read in the parts that it is written in. -/
theorem numberText?_spelled {text : List Char} {number : NumberText}
    (spelled : SpellsNumber text number) {rest : List Char} (ends : EndsNumber rest) :
    numberText? (text ++ rest) = some (number, rest) := by
  obtain ⟨negative, proper, powers⟩ := spelled
  rename_i whole fraction power exponent
  obtain ⟨powerEnds, noPoint⟩ := power_ends powers ends
  have fractionRead := fractionDigits?_spelled proper.fraction powerEnds noPoint
  have powerRead := powerDigits?_spelled powers ends
  have wholeEnds : EndsDigits (fractionText fraction ++ (power ++ rest)) := by
    rw [fractionText]
    split
    · exact powerEnds
    · intro mark first
      obtain rfl : '.' = mark := Option.some_inj.1 first
      rfl
  have wholeRead := wholeDigits?_spelling proper wholeEnds
  have noMinus : ∀ others, whole ++ (fractionText fraction ++ (power ++ rest)) ≠ '-' :: others := by
    intro others form
    rcases whole with _ | ⟨first, digits⟩
    · exact proper.some rfl
    · obtain rfl := (List.cons.inj form).1
      exact absurd (proper.whole '-' List.mem_cons_self) (by decide)
  simp only [List.append_assoc]
  cases negative with
  | true => simp only [if_true, List.cons_append, List.nil_append, numberText?, wholeRead,
      fractionRead, powerRead]
  | false =>
      rw [if_neg Bool.false_ne_true, List.nil_append, numberText?]
      · simp only [wholeRead, fractionRead, powerRead]
      · exact noMinus

/-- A number begins with a sign or a digit. -/
theorem SpellsNumber.begins {text : List Char} {number : NumberText}
    (spelled : SpellsNumber text number) :
    ∃ mark rest, text = mark :: rest ∧ BeginsNumber mark := by
  obtain ⟨negative, proper, -⟩ := spelled
  cases negative with
  | true => exact ⟨'-', _, rfl, .inl rfl⟩
  | false =>
      rename_i whole _ _ _
      rcases whole with _ | ⟨first, digits⟩
      · exact absurd rfl proper.some
      · exact ⟨first, _, rfl, .inr (proper.whole first List.mem_cons_self)⟩

section

variable {β : Type} {spells : List Char → β → Prop} {read : Reader β} {closing : Char}
  {text : List Char} {items : List β}

theorem ends_blank {blank rest : List Char} {mark : Char} (isBlank : IsBlank blank)
    (marks : mark = ',' ∨ mark = ']' ∨ mark = '}') : Ends (blank ++ mark :: rest) := by
  rcases blank with _ | ⟨character, blank⟩
  · intro first same
    obtain rfl : mark = first := Option.some_inj.1 same
    rcases marks with rfl | rfl | rfl <;> simp
  · intro first same
    obtain rfl : character = first := Option.some_inj.1 same
    exact .inr (.inr (.inr (isBlank character List.mem_cons_self)))

/-- Separated items are read one after another, each as it is spelled. -/
theorem items?_separated (skips : SkipsBlanks read) (closes : closing = ']' ∨ closing = '}')
    (separated : Separated spells text items) {fuel : Nat} (enough : text.length < fuel)
    (reads : ∀ part item, spells part item → part.length ≤ text.length → Reads read part item)
    (rest : List Char) :
    items? read closing fuel (text ++ closing :: rest) = some (items, rest) := by
  have solid : isSpace closing = false := by rcases closes with rfl | rfl <;> rfl
  have noComma : closing ≠ ',' := by rcases closes with rfl | rfl <;> decide
  -- Each item but the last one takes a comma with it, so one unit of fuel is paid for.
  induction separated generalizing fuel with
  | @last before part after item beforeBlank spelled afterBlank =>
      obtain ⟨fuel, rfl⟩ : ∃ fewer, fuel = fewer + 1 := ⟨fuel - 1, by omega⟩
      have first := reads part item spelled (by simp only [List.length_append]; omega)
      have ends : Ends (after ++ closing :: rest) := ends_blank afterBlank (.inr closes)
      rw [List.append_assoc, List.append_assoc, items?_skips skips _ before _ beforeBlank, items?,
        first.reads _ ends]
      dsimp only
      rw [skipSpace_append afterBlank, skipSpace_cons _ solid]
      dsimp only
      rw [if_neg noComma, if_pos rfl]
  | @more before part after later item items beforeBlank spelled afterBlank _ inductionHypothesis =>
      obtain ⟨fuel, rfl⟩ : ∃ fewer, fuel = fewer + 1 := ⟨fuel - 1, by omega⟩
      simp only [List.length_append, List.length_cons] at enough reads
      have first := reads part item spelled (by omega)
      have shorter : later.length < fuel := by omega
      have others := inductionHypothesis shorter
        fun part item spelled short => reads part item spelled (by omega)
      have ends : Ends (after ++ ',' :: (later ++ closing :: rest)) :=
        ends_blank afterBlank (.inl rfl)
      simp only [List.append_assoc, List.cons_append]
      rw [items?_skips skips _ before _ beforeBlank, items?, first.reads _ ends]
      dsimp only
      rw [skipSpace_append afterBlank, skipSpace_cons _ (by decide)]
      dsimp only
      rw [if_pos rfl, others]
      rfl

/-- What stands inside brackets is read up to the closing one. -/
theorem enclosed?_inside (skips : SkipsBlanks read) (closes : closing = ']' ∨ closing = '}')
    (inside : Inside spells text items) {fuel : Nat} (enough : text.length < fuel)
    (reads : ∀ part item, spells part item → part.length ≤ text.length → Reads read part item)
    (rest : List Char) :
    enclosed? read closing fuel (text ++ closing :: rest) = some (items, rest) := by
  have solid : isSpace closing = false := by rcases closes with rfl | rfl <;> rfl
  cases inside with
  | empty isBlank =>
      rw [enclosed?, skipSpace_append isBlank, skipSpace_cons _ solid]
      exact if_pos rfl
  | filled separated =>
      have read := items?_separated skips closes separated enough reads rest
      -- The first item decides that this is not an empty pair of brackets.
      obtain ⟨before, part, item, tail, form, beforeBlank, spelled, short⟩ :
          ∃ before part item tail, text = before ++ (part ++ tail) ∧ IsBlank before ∧
            spells part item ∧ part.length ≤ text.length := by
        cases separated with
        | last beforeBlank spelled _ =>
            exact ⟨_, _, _, _, rfl, beforeBlank, spelled, by simp only [List.length_append]; omega⟩
        | more beforeBlank spelled _ _ =>
            exact ⟨_, _, _, _, rfl, beforeBlank, spelled, by simp only [List.length_append]; omega⟩
      have first := (reads part item spelled short).first
      obtain ⟨mark, later, begins, visible, noList, noRecord⟩ := first
      have differs : mark ≠ closing := by
        rcases closes with rfl | rfl
        · exact noList
        · exact noRecord
      rw [form, List.append_assoc, List.append_assoc, items?_skips skips _ before _ beforeBlank,
        begins, List.cons_append] at read
      rw [form, List.append_assoc, List.append_assoc, begins, List.cons_append, enclosed?,
        skipSpace_append beforeBlank, skipSpace_cons _ visible]
      dsimp only
      rw [if_neg differs, read]

end

theorem reads_spelledField {spells : List Char → Data → Prop} {read : Reader Data}
    (skips : SkipsBlanks read) {text : List Char} {field : Option (String × Data)}
    (spelled : SpellsField spells text field)
    (reads : ∀ part data, spells part data → part.length < text.length → Reads read part data) :
    Reads (field? read) text field := by
  obtain ⟨named, gapBlank, beforeBlank, spelled⟩ := spelled
  rename_i name gap before part pieces data
  refine ⟨⟨'"', _, rfl, by decide, by decide, by decide⟩, fun rest ends => ?_⟩
  have shorter :
      part.length < ('"' :: (name ++ '"' :: (gap ++ ':' :: (before ++ part)))).length := by
    simp only [List.length_cons, List.length_append]
    omega
  have content := (reads part data spelled shorter).reads rest ends
  simp only [List.cons_append, List.append_assoc]
  simp only [field?, skipSpace_cons _ (by decide : isSpace '"' = false), pieces?_spelled named,
    skipSpace_append gapBlank, skipSpace_cons _ (by decide : isSpace ':' = false),
    skips before _ beforeBlank, content]

/-- Fuel for every character is enough to read a value of the grammar. -/
theorem reads_spelled {depth fuel : Nat} {text : List Char} {data : Data}
    (spelled : SpellsWithin depth text data) (enough : text.length < fuel) :
    Reads (value? fuel) text data := by
  induction depth generalizing fuel text data with
  | zero => exact spelled.elim
  | succ depth inductionHypothesis =>
      obtain ⟨fuel, rfl⟩ : ∃ fewer, fuel = fewer + 1 := ⟨fuel - 1, by omega⟩
      cases spelled with
      | null => exact reads_null fuel
      | yes => exact ⟨⟨'t', _, rfl, by decide, by decide, by decide⟩, fun _ _ => rfl⟩
      | no => exact ⟨⟨'f', _, rfl, by decide, by decide, by decide⟩, fun _ _ => rfl⟩
      | text spelled =>
          refine ⟨⟨'"', _, rfl, by decide, by decide, by decide⟩, fun rest _ => ?_⟩
          rw [List.cons_append, List.append_assoc, List.singleton_append]
          change (pieces? _).map _ = _
          rw [pieces?_spelled spelled]
          rfl
      | number spelled =>
          refine reads_number fuel spelled.begins fun rest ends => ?_
          rw [numberText?_spelled spelled ends]
          rfl
      | list inside =>
          simp only [List.length_cons, List.length_append, List.length_nil] at enough
          refine ⟨⟨'[', _, rfl, by decide, by decide, by decide⟩, fun rest _ => ?_⟩
          have read := enclosed?_inside (value?_skips fuel) (.inl rfl) inside
            (by omega : _ < fuel) (fun part item spelled short =>
              inductionHypothesis spelled (by omega)) rest
          rw [List.cons_append, List.append_assoc, List.singleton_append]
          change (enclosed? (value? fuel) ']' fuel _).map _ = _
          rw [read]
          rfl
      | record inside =>
          simp only [List.length_cons, List.length_append, List.length_nil] at enough
          refine ⟨⟨'{', _, rfl, by decide, by decide, by decide⟩, fun rest _ => ?_⟩
          have read := enclosed?_inside (field?_skips (value? fuel)) (.inr rfl) inside
            (by omega : _ < fuel) (fun part field spelled short =>
              reads_spelledField (value?_skips fuel) spelled fun inner data within shorter =>
                inductionHypothesis within (by omega)) rest
          rw [List.cons_append, List.append_assoc, List.singleton_append]
          change (enclosed? (field? (value? fuel)) '}' fuel _).map _ = _
          rw [read]
          rfl

/-- Every document of the grammar is read as its tree. -/
theorem read?_document {text : String} {data : Data} (document : IsDocument text data) :
    read? text = some data := by
  obtain ⟨depth, split, beforeBlank, spelled, afterBlank⟩ := document
  rename_i before body after
  have short : body.length < text.toList.length + 1 := by
    rw [split]
    simp only [List.length_append]
    omega
  have ends : Ends after := by
    intro mark first
    exact .inr (.inr (.inr (afterBlank mark (List.mem_of_mem_head? first))))
  have found := (reads_spelled spelled short).reads after ends
  have finished : skipSpace after = [] := List.dropWhile_eq_nil_iff.2 afterBlank
  rw [← value?_skips _ before _ beforeBlank, ← split] at found
  rw [read?, found]
  dsimp only
  rw [finished]
  rfl

/-! What is read is allowed by the grammar. -/

theorem prepend_eq_some {β : Type} {item : β} {found : Option (List β × List Char)}
    {items : List β} {rest : List Char} :
    Reader.prepend item found = some (items, rest) ↔
      ∃ others, found = some (others, rest) ∧ items = item :: others := by
  rcases found with _ | ⟨others, after⟩
  · simp [Reader.prepend]
  · simp [Reader.prepend, and_comm, eq_comm]

theorem isDigit_of_asciiDigit? {character : Char} {digit : Nat}
    (read : asciiDigit? character = some digit) :
    character.isDigit = true ∧ digit = digitValue character := by
  rw [asciiDigit?] at read
  split at read
  · rename_i within
    exact ⟨Char.isDigit_iff_toNat.2 within, (Option.some_inj.1 read).symm⟩
  · cases read

theorem leadingDigits_sound {text rest : List Char} {run : List Nat}
    (read : leadingDigits text = (run, rest)) :
    ∃ digits, text = digits ++ rest ∧ IsDigits digits ∧ run = digits.map digitValue := by
  induction text generalizing run with
  | nil =>
      cases read
      exact ⟨[], rfl, List.forall_mem_nil _, rfl⟩
  | cons character text inductionHypothesis =>
      rw [leadingDigits] at read
      split at read
      · rename_i digit first
        obtain ⟨isDigit, rfl⟩ := isDigit_of_asciiDigit? first
        cases read
        obtain ⟨digits, form, areDigits, values⟩ := inductionHypothesis rfl
        exact ⟨character :: digits, congrArg (character :: ·) form,
          List.forall_mem_cons.2 ⟨isDigit, areDigits⟩, congrArg (digitValue character :: ·) values⟩
      · cases read
        exact ⟨[], rfl, List.forall_mem_nil _, rfl⟩

/-- The pieces are those of a text that ends with its first quote. -/
theorem pieces?_sound {text rest : List Char} {pieces : List Piece}
    (read : pieces? text = some (pieces, rest)) :
    ∃ inner, text = inner ++ '"' :: rest ∧ SpellsPieces inner pieces := by
  have onward {piece : Piece} {part later : List Char} {pieces : List Piece}
      (spelled : SpellsPiece part piece)
      (read : Reader.prepend piece (pieces? later) = some (pieces, rest))
      (reads : ∀ {pieces}, pieces? later = some (pieces, rest) →
        ∃ inner, later = inner ++ '"' :: rest ∧ SpellsPieces inner pieces) :
      ∃ inner, part ++ later = inner ++ '"' :: rest ∧ SpellsPieces inner pieces := by
    obtain ⟨others, found, rfl⟩ := prepend_eq_some.1 read
    obtain ⟨inner, form, spells⟩ := reads found
    exact ⟨part ++ inner, by rw [form, List.append_assoc], .cons spelled spells⟩
  fun_induction pieces? text generalizing pieces with
  | case1 => cases read
  | case2 others =>
      cases read
      exact ⟨[], rfl, .nil⟩
  | case3 a b c d others code hex inductionHypothesis =>
      exact onward (.unit hex) read inductionHypothesis
  | case4 => cases read
  | case5 others letter noUnit character escapes inductionHypothesis =>
      exact onward (.letter escapes) read inductionHypothesis
  | case6 => cases read
  | case7 => cases read
  | case8 character others noQuote _ _ plain inductionHypothesis =>
      obtain ⟨noEscape, noControl⟩ := not_or.1 plain
      exact onward (.plain noQuote noEscape noControl) read inductionHypothesis

theorem splitSign_sound {text body : List Char} {negative : Bool}
    (read : Numeral.splitSign text = (negative, body)) :
    ∃ sign, text = sign ++ body ∧
      (sign, negative) ∈ [([], false), (['+'], false), (['-'], true)] := by
  rw [Numeral.splitSign.eq_def] at read
  split at read
  · cases read
    exact ⟨['-'], rfl, by simp⟩
  · cases read
    exact ⟨['+'], rfl, by simp⟩
  · cases read
    exact ⟨[], rfl, by simp⟩

theorem powerDigits?_sound {text rest : List Char} {power : Option Int}
    (read : powerDigits? text = some (power, rest)) :
    ∃ part, text = part ++ rest ∧ SpellsPower part power := by
  rcases text with _ | ⟨mark, text⟩
  · cases read
    exact ⟨[], rfl, .missing⟩
  · rw [powerDigits?] at read
    split at read
    · rename_i marks
      rcases signed : Numeral.splitSign text with ⟨negative, body⟩
      rcases found : leadingDigits body with ⟨_ | ⟨digit, others⟩, after⟩
      · simp only [signed, found] at read
        cases read
      · simp only [signed, found] at read
        cases read
        obtain ⟨sign, rfl, signs⟩ := splitSign_sound signed
        obtain ⟨digits, rfl, areDigits, values⟩ := leadingDigits_sound found
        have filled : digits ≠ [] := by
          rintro rfl
          cases values
        have spelling := SpellsPower.present marks signs filled areDigits
        rw [← spelled_map, ← values] at spelling
        exact ⟨_, by rw [List.cons_append, List.append_assoc], spelling⟩
    · cases read
      exact ⟨[], rfl, .missing⟩

theorem fractionDigits?_sound {text rest : List Char} {run : List Nat}
    (read : fractionDigits? text = some (run, rest)) :
    ∃ digits, text = fractionText digits ++ rest ∧ IsDigits digits ∧
      run = digits.map digitValue := by
  rw [fractionDigits?.eq_def] at read
  split at read
  · rename_i text
    rcases found : leadingDigits text with ⟨_ | ⟨digit, others⟩, after⟩
    · simp only [found] at read
      cases read
    · simp only [found] at read
      cases read
      obtain ⟨digits, rfl, areDigits, values⟩ := leadingDigits_sound found
      refine ⟨digits, ?_, areDigits, values⟩
      cases digits with
      | nil => cases values
      | cons => rfl
  · cases read
    exact ⟨[], rfl, List.forall_mem_nil _, rfl⟩

theorem eq_zero_of_digitValue {character : Char} (isDigit : character.isDigit = true)
    (zero : digitValue character = 0) : character = '0' := by
  have within := Char.isDigit_iff_toNat.1 isDigit
  rw [digitValue] at zero
  exact Char.toNat_inj.1 (by omega)

theorem wholeDigits?_sound {text rest : List Char} {run : List Nat}
    (read : wholeDigits? text = some (run, rest)) :
    ∃ digits, text = digits ++ rest ∧ IsDigits digits ∧ digits ≠ [] ∧
      (digits = ['0'] ∨ digits.head? ≠ some '0') ∧ run = digits.map digitValue := by
  rcases found : leadingDigits text with ⟨numbers, after⟩
  obtain ⟨digits, rfl, areDigits, rfl⟩ := leadingDigits_sound found
  rw [wholeDigits?, found] at read
  rcases digits with _ | ⟨first, others⟩
  · cases read
  · have filled : first :: others ≠ [] := List.cons_ne_nil first others
    by_cases zero : first = '0'
    · obtain rfl := zero
      rcases others with _ | ⟨second, others⟩
      · cases read
        exact ⟨_, rfl, areDigits, filled, .inl rfl, rfl⟩
      · cases read
    · rcases value : digitValue first with _ | size
      · exact absurd (eq_zero_of_digitValue (areDigits first List.mem_cons_self) value) zero
      · rw [List.map_cons, value] at read
        cases read
        exact ⟨_, rfl, areDigits, filled, .inr fun same => zero (Option.some_inj.1 same),
          by rw [List.map_cons, value]⟩

/-- A number that is read has the parts that the grammar asks for. -/
theorem numberText?_sound {text rest : List Char} {number : NumberText}
    (read : numberText? text = some (number, rest)) :
    ∃ part, text = part ++ rest ∧ SpellsNumber part number := by
  unfold numberText? at read
  split at read
  rename_i negative body signed
  split at read
  · cases read
  rename_i whole afterWhole wholeRead
  split at read
  · cases read
  rename_i fraction afterFraction fractionRead
  split at read
  · cases read
  rename_i power afterPower powerRead
  cases read
  obtain ⟨digits, rfl, areDigits, filled, leading, rfl⟩ := wholeDigits?_sound wholeRead
  obtain ⟨places, rfl, arePlaces, rfl⟩ := fractionDigits?_sound fractionRead
  obtain ⟨exponent, rfl, powers⟩ := powerDigits?_sound powerRead
  have proper : Spelling.IsProper ⟨digits, places, none⟩ := ⟨areDigits, filled, leading, arePlaces⟩
  have spelling := SpellsNumber.mk negative proper powers
  refine ⟨_, ?_, spelling⟩
  split at signed
  · cases signed
    simp
  · cases signed
    simp

/-- What is read stands behind blanks, as it may be spelled. -/
def ReadsOnly {β : Type} (read : Reader β) (spells : List Char → β → Prop) : Prop :=
  ∀ {text rest item}, read text = some (item, rest) →
    ∃ blank part, text = blank ++ (part ++ rest) ∧ IsBlank blank ∧ spells part item

theorem skipSpace_sound (text : List Char) :
    ∃ blank, text = blank ++ skipSpace text ∧ IsBlank blank :=
  ⟨text.takeWhile isSpace, List.takeWhile_append_dropWhile.symm,
    fun _ member => List.mem_takeWhile_imp member⟩

section

variable {β : Type} {spells : List Char → β → Prop} {read : Reader β} {closing : Char}

theorem items?_sound (only : ReadsOnly read spells) {fuel : Nat} {text rest : List Char}
    {items : List β} (found : items? read closing fuel text = some (items, rest)) :
    ∃ inner, text = inner ++ closing :: rest ∧ Separated spells inner items := by
  induction fuel generalizing text items with
  | zero => cases found
  | succ fuel inductionHypothesis =>
      rw [items?] at found
      split at found
      · cases found
      rename_i item after first
      obtain ⟨before, part, rfl, beforeBlank, spelled⟩ := only first
      obtain ⟨blank, form, isBlank⟩ := skipSpace_sound after
      split at found
      · rename_i mark later next
        rw [form, next]
        split at found
        · rename_i comma
          obtain ⟨others, tail, rfl⟩ := prepend_eq_some.1 found
          obtain ⟨inner, rfl, separated⟩ := inductionHypothesis tail
          exact ⟨_, by simp only [List.append_assoc, List.cons_append, comma],
            .more beforeBlank spelled isBlank separated⟩
        · split at found
          · rename_i closes
            cases found
            exact ⟨_, by simp only [List.append_assoc, closes], .last beforeBlank spelled isBlank⟩
          · cases found
      · cases found

theorem enclosed?_sound (only : ReadsOnly read spells) {fuel : Nat} {text rest : List Char}
    {items : List β} (found : enclosed? read closing fuel text = some (items, rest)) :
    ∃ inner, text = inner ++ closing :: rest ∧ Inside spells inner items := by
  obtain ⟨blank, form, isBlank⟩ := skipSpace_sound text
  rw [enclosed?] at found
  split at found
  · cases found
  rename_i mark later next
  split at found
  · rename_i closes
    cases found
    exact ⟨blank, by rw [form, next, closes], .empty isBlank⟩
  · obtain ⟨inner, inside, separated⟩ := items?_sound only found
    refine ⟨blank ++ inner, by rw [form, next, inside, List.append_assoc], .filled ?_⟩
    cases separated with
    | last beforeBlank spelled afterBlank =>
        rw [← List.append_assoc]
        exact .last (List.forall_mem_append.2 ⟨isBlank, beforeBlank⟩) spelled afterBlank
    | more beforeBlank spelled afterBlank others =>
        rw [← List.append_assoc]
        exact .more (List.forall_mem_append.2 ⟨isBlank, beforeBlank⟩) spelled afterBlank others

end

theorem field?_sound {read : Reader Data} {spells : List Char → Data → Prop}
    (only : ReadsOnly read spells) : ReadsOnly (field? read) (SpellsField spells) := by
  intro text rest field found
  obtain ⟨blank, form, isBlank⟩ := skipSpace_sound text
  rw [field?] at found
  split at found
  · rename_i named
    split at found
    · cases found
    rename_i pieces afterName nameRead
    obtain ⟨name, rfl, spelled⟩ := pieces?_sound nameRead
    obtain ⟨gap, gapForm, gapBlank⟩ := skipSpace_sound afterName
    split at found
    · rename_i later colon
      split at found
      · rename_i data after read
        cases found
        obtain ⟨before, part, rfl, beforeBlank, content⟩ := only read
        refine ⟨blank, _, ?_, isBlank, .mk spelled gapBlank beforeBlank content⟩
        rw [form, named, gapForm, colon]
        simp only [List.append_assoc, List.cons_append]
      · cases found
    · cases found
  · cases found

/-- The levels of brackets are bounded by the fuel that the value is read with. -/
theorem value?_sound (fuel : Nat) : ReadsOnly (value? fuel) (SpellsWithin fuel) := by
  induction fuel with
  | zero =>
      intro text rest data found
      cases found
  | succ fuel inductionHypothesis =>
      intro text rest data found
      obtain ⟨blank, form, isBlank⟩ := skipSpace_sound text
      refine ⟨blank, ?_⟩
      rw [value?] at found
      rw [form]
      split at found
      · rename_i next
        cases found
        exact ⟨_, by rw [next]; rfl, isBlank, .null⟩
      · rename_i next
        cases found
        exact ⟨_, by rw [next]; rfl, isBlank, .yes⟩
      · rename_i next
        cases found
        exact ⟨_, by rw [next]; rfl, isBlank, .no⟩
      · rename_i next
        obtain ⟨⟨pieces, after⟩, read, same⟩ := Option.map_eq_some_iff.1 found
        cases same
        obtain ⟨inner, rfl, spelled⟩ := pieces?_sound read
        exact ⟨_, by rw [next]; simp, isBlank, .text spelled⟩
      · rename_i next
        obtain ⟨⟨items, after⟩, read, same⟩ := Option.map_eq_some_iff.1 found
        cases same
        obtain ⟨inner, rfl, inside⟩ := enclosed?_sound inductionHypothesis read
        exact ⟨_, by rw [next]; simp, isBlank, .list inside⟩
      · rename_i next
        obtain ⟨⟨fields, after⟩, read, same⟩ := Option.map_eq_some_iff.1 found
        cases same
        obtain ⟨inner, rfl, inside⟩ := enclosed?_sound (field?_sound inductionHypothesis) read
        exact ⟨_, by rw [next]; simp, isBlank, .record inside⟩
      · obtain ⟨⟨number, after⟩, read, same⟩ := Option.map_eq_some_iff.1 found
        cases same
        obtain ⟨part, next, spelled⟩ := numberText?_sound read
        exact ⟨part, by rw [next], isBlank, .number spelled⟩

/-- The documents of the grammar are those that are read. -/
theorem isDocument_iff {text : String} {data : Data} :
    IsDocument text data ↔ read? text = some data := by
  refine ⟨read?_document, fun read => ?_⟩
  rw [read?] at read
  split at read
  · rename_i found rest value
    split at read
    · rename_i finished
      cases read
      obtain ⟨before, body, split, beforeBlank, spelled⟩ := value?_sound _ value
      exact .mk _ split beforeBlank spelled
        (List.dropWhile_eq_nil_iff.1 (List.isEmpty_iff.1 finished))
    · cases read
  · cases read

end BenchPrinter.Json
