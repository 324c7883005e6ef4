import BenchPrinter.Document.Toml.Reader
import BenchPrinter.Proofs.Document.Toml.Number
import BenchPrinter.Proofs.Document.Toml.Text

/-!
The lines of TOML documents, written and read. Every assignment and every heading is one line.
-/

namespace BenchPrinter.Toml

/-- A value whose double is a number. -/
def IsNumeric : Data → Prop
  | .decimal value => Double.IsFinite value
  | _ => True

theorem writeText_begins (text : List Char) :
    ∃ mark others, writeText text = mark :: others ∧ (mark = '"' ∨ mark = '\x27') := by
  rw [writeText]
  split
  · exact ⟨_, _, rfl, .inl rfl⟩
  · exact ⟨_, _, rfl, .inr rfl⟩
  · exact ⟨_, _, rfl, .inl rfl⟩
  · exact ⟨_, _, rfl, .inr rfl⟩

theorem value?_text (text : String) (depth : Nat) (rest : List Char) :
    value? depth (writeText text.toList ++ '\n' :: rest) = some (.text text, '\n' :: rest) := by
  have read := text?_writeText text.toList rest
  obtain ⟨mark, tail, form, marks⟩ := writeText_begins text.toList
  rw [form, List.cons_append] at read ⊢
  generalize tail ++ '\n' :: rest = others at read ⊢
  have other {special : Char} {found expected : List Char}
      (same : mark :: found = special :: expected)
      (noMark : special ≠ '"' ∧ special ≠ '\x27') : False := by
    obtain rfl := (List.cons.inj same).1
    rcases marks with rfl | rfl
    · exact noMark.1 rfl
    · exact noMark.2 rfl
  have scalar : scalar? (mark :: others) = some (.text text, '\n' :: rest) := by
    rw [scalar?]
    · rw [read]
      dsimp only
      rw [String.ofList_toList]
    · exact fun _ same => other same (by decide)
    · exact fun _ same => other same (by decide)
  cases depth with
  | zero => exact scalar
  | succ depth =>
      rw [value?]
      · exact scalar
      · exact fun _ same => other same (by decide)
      · exact fun _ same => other same (by decide)

/-- A value that fits on a line is read back from it. -/
theorem value?_writeScalar {data : Data} {text : List Char} (numeric : IsNumeric data)
    (written : writeScalar? data = some text) (depth : Nat) (rest : List Char) :
    value? depth (text ++ '\n' :: rest) = some (data, '\n' :: rest) := by
  unfold writeScalar? at written
  split at written
  · obtain rfl := Option.some_inj.1 written
    cases depth <;> rfl
  · obtain rfl := Option.some_inj.1 written
    cases depth <;> rfl
  · split at written
    · rename_i fits
      obtain rfl := Option.some_inj.1 written
      exact value?_integer fits depth rest
    · exact absurd written nofun
  · obtain rfl := Option.some_inj.1 written
    exact value?_double numeric depth rest
  · obtain rfl := Option.some_inj.1 written
    exact value?_text _ depth rest
  · exact absurd written nofun

def IsBare (name : String) : Prop :=
  name.toList.isEmpty = false ∧ name.toList.all isBare = true

instance (name : String) : Decidable (IsBare name) := inferInstanceAs (Decidable (_ ∧ _))

section

variable {name : String} {mark : Char}

theorem IsBare.begins (bare : IsBare name) :
    ∃ first others, name.toList = first :: others ∧ isBare first = true := by
  obtain ⟨some, characters⟩ := bare
  rw [List.all_eq_true] at characters
  rcases form : name.toList with _ | ⟨first, others⟩
  · rw [form] at some
    exact absurd some (by decide)
  · rw [form] at characters
    exact ⟨first, others, rfl, characters first List.mem_cons_self⟩

theorem ne_of_bare {first special : Char} (isFirst : isBare first = true)
    (noBare : isBare special = false) : first ≠ special := by
  rintro rfl
  exact Bool.false_ne_true (noBare.symm.trans isFirst)

theorem skipSpace_bare {first : Char} (isFirst : isBare first = true) (rest : List Char) :
    skipSpace (first :: rest) = first :: rest := by
  have solid : isSpace first = false := by
    simp only [isSpace, Bool.or_eq_false_iff, decide_eq_false_iff_not]
    exact ⟨ne_of_bare isFirst (by decide), ne_of_bare isFirst (by decide)⟩
  rw [skipSpace, List.dropWhile_cons_of_neg (by simp [solid])]

theorem key?_bare (bare : IsBare name) (ends : isBare mark = false) (rest : List Char) :
    key? (skipSpace (name.toList ++ mark :: rest)) = some (name, mark :: rest) := by
  obtain ⟨first, others, form, isFirst⟩ := bare.begins
  have solid : skipSpace (name.toList ++ mark :: rest) = name.toList ++ mark :: rest := by
    rw [form]
    exact skipSpace_bare isFirst _
  have characters := List.all_eq_true.1 bare.2
  have taken : (name.toList ++ mark :: rest).takeWhile isBare = name.toList := by
    rw [List.takeWhile_append_of_pos characters, List.takeWhile_cons_of_neg (by simp [ends]),
      List.append_nil]
  have dropped : (name.toList ++ mark :: rest).dropWhile isBare = mark :: rest := by
    rw [List.dropWhile_append_of_pos characters, List.dropWhile_cons_of_neg (by simp [ends])]
  rw [solid, key?]
  · rw [taken, dropped, bare.1, if_neg Bool.false_ne_true, String.ofList_toList]
  · intro _ same
    rw [form] at same
    exact ne_of_bare isFirst (by decide) (List.cons.inj same).1
  · intro _ same
    rw [form] at same
    exact ne_of_bare isFirst (by decide) (List.cons.inj same).1

/-- A name that no point follows is a path of its own. -/
theorem path?_name (bare : IsBare name) (ends : isBare mark = false) {rest : List Char}
    (after : List Char) (skips : skipSpace (mark :: rest) = after)
    (noPoint : after.head? ≠ some '.') (limit : Nat) :
    path? (limit + 1) (name.toList ++ mark :: rest) = some (⟨[], name⟩, after) := by
  rw [path?, key?_bare bare ends]
  dsimp only
  rw [skips]
  split
  · exact absurd rfl noPoint
  · rfl

/-- Names with points between them are a path. -/
theorem path?_names {tables : List String} (bare : ∀ part ∈ tables ++ [name], IsBare part)
    {limit : Nat} (short : tables.length < limit) (rest : List Char) :
    path? limit (List.intercalate ['.'] ((tables ++ [name]).map String.toList) ++ ']' :: rest) =
      some (⟨tables, name⟩, ']' :: rest) := by
  induction tables generalizing limit with
  | nil =>
      obtain ⟨limit, rfl⟩ : ∃ fewer, limit = fewer + 1 := ⟨limit - 1, by omega⟩
      rw [List.nil_append, List.map_singleton, List.intercalate_singleton]
      exact path?_name (bare name List.mem_cons_self) (by decide) (']' :: rest) rfl
        (by simp) limit
  | cons table tables inductionHypothesis =>
      obtain ⟨limit, rfl⟩ : ∃ fewer, limit = fewer + 1 := ⟨limit - 1, by omega⟩
      rw [List.length_cons] at short
      have inner := inductionHypothesis
        (fun part member => bare part (List.mem_cons_of_mem _ member))
        (Nat.lt_of_succ_lt_succ short)
      have several : (tables ++ [name]).map String.toList ≠ [] := by simp
      have point (after : List Char) : skipSpace ('.' :: after) = '.' :: after := rfl
      rw [List.cons_append, List.map_cons, List.intercalate_cons_of_ne_nil several,
        List.append_assoc, List.append_assoc, List.cons_append, List.nil_append, path?,
        key?_bare (bare table List.mem_cons_self) (by decide)]
      dsimp only
      rw [point]
      change (path? limit _).map _ = _
      rw [inner]
      rfl

end

section

variable {name : String} {text : List Char} {data : Data}

theorem solid_of_begins {mark : Char} (begins : BeginsNumber mark) : isSpace mark = false := by
  simp only [isSpace, Bool.or_eq_false_iff, decide_eq_false_iff_not]
  exact ⟨begins.ne (by decide), begins.ne (by decide)⟩

/-- No blank stands in front of a value. -/
theorem writeScalar_begins (numeric : IsNumeric data) (written : writeScalar? data = some text) :
    ∃ mark others, text = mark :: others ∧ isSpace mark = false := by
  have number {mark : Char} {others : List Char} (form : text = mark :: others)
      (begins : BeginsNumber mark) : ∃ mark others, text = mark :: others ∧
        isSpace mark = false := ⟨mark, others, form, solid_of_begins begins⟩
  unfold writeScalar? at written
  split at written
  · exact ⟨_, _, (Option.some_inj.1 written).symm, by decide⟩
  · exact ⟨_, _, (Option.some_inj.1 written).symm, by decide⟩
  · split at written
    · obtain ⟨mark, others, form, begins⟩ := signed_begins (integerSpelling_proper _) _
      rw [toString_eq, form] at written
      exact number (Option.some_inj.1 written).symm begins
    · exact absurd written nofun
  · obtain ⟨mark, others, form, begins⟩ :=
      signed_begins (@DoubleStyle.spelling_proper doubleStyle rfl _) _
    rw [DoubleStyle.write_eq rfl numeric, form] at written
    exact number (Option.some_inj.1 written).symm begins
  · obtain ⟨mark, others, form, quote⟩ := writeText_begins (String.toList _)
    rw [form] at written
    refine ⟨mark, others, (Option.some_inj.1 written).symm, ?_⟩
    rcases quote with rfl | rfl <;> decide
  · exact absurd written nofun

/-- A line that begins with a name does not end there. -/
theorem endLine?_bare (isFirst : isBare mark = true) (line : List Char) :
    endLine? (mark :: line) = none := by
  have noBreak : lineBreak? (mark :: line) = none := by
    rw [lineBreak?]
    · exact fun _ same => ne_of_bare isFirst (by decide) (List.cons.inj same).1
    · exact fun _ same => ne_of_bare isFirst (by decide) (List.cons.inj same).1
  have noComment : mark ≠ '#' := ne_of_bare isFirst (by decide)
  simp [endLine?, skipSpace_bare isFirst line, noComment, noBreak]

/-- An assignment is read back from its line. -/
theorem line?_assignment (bare : IsBare name) (numeric : IsNumeric data)
    (written : writeScalar? data = some text) (rest : List Char) :
    line? (name.toList ++ [' ', '=', ' '] ++ text ++ '\n' :: rest) =
      some (.assignment ⟨⟨[], name⟩, data⟩, rest) := by
  have form : name.toList ++ [' ', '=', ' '] ++ text ++ '\n' :: rest =
      name.toList ++ ' ' :: '=' :: ' ' :: (text ++ '\n' :: rest) := by simp
  have path : path? depthLimit (name.toList ++ ' ' :: '=' :: ' ' :: (text ++ '\n' :: rest)) =
      some (⟨[], name⟩, '=' :: ' ' :: (text ++ '\n' :: rest)) :=
    path?_name bare (by decide) ('=' :: ' ' :: (text ++ '\n' :: rest)) rfl (by simp) 78
  have blank : skipSpace (' ' :: (text ++ '\n' :: rest)) = text ++ '\n' :: rest := by
    obtain ⟨mark, others, begins, solid⟩ := writeScalar_begins numeric written
    rw [begins, List.cons_append, skipSpace, List.dropWhile_cons_of_pos rfl,
      List.dropWhile_cons_of_neg (by simp [solid])]
  have assignment : assignment? (value? depthLimit)
      (name.toList ++ ' ' :: '=' :: ' ' :: (text ++ '\n' :: rest)) =
        some (⟨⟨[], name⟩, data⟩, '\n' :: rest) := by
    rw [assignment?, path]
    change (value? depthLimit (skipSpace (' ' :: (text ++ '\n' :: rest)))).map _ = _
    rw [blank, value?_writeScalar numeric written]
    rfl
  rw [form]
  obtain ⟨first, others, nameForm, isFirst⟩ := bare.begins
  rw [nameForm, List.cons_append] at assignment ⊢
  generalize others ++ ' ' :: '=' :: ' ' :: (text ++ '\n' :: rest) = line at assignment ⊢
  rw [line?, skipSpace_bare isFirst line]
  split
  · rename_i same
    exact absurd (List.cons.inj same).1 (ne_of_bare isFirst (by decide))
  · rename_i same
    exact absurd (List.cons.inj same).1 (ne_of_bare isFirst (by decide))
  · rw [endLine?_bare isFirst line]
    dsimp only
    rw [assignment]
    rfl

/-- A heading is read back from its line. -/
theorem line?_heading {tables : List String} (bare : ∀ part ∈ tables ++ [name], IsBare part)
    (short : tables.length < depthLimit) (rest : List Char) :
    line? (writeHeading (tables ++ [name]) ++ rest) =
      some (.heading (.table ⟨tables, name⟩), rest) := by
  have path := path?_names bare short ('\n' :: rest)
  have form : writeHeading (tables ++ [name]) ++ rest = '[' ::
      (List.intercalate ['.'] ((tables ++ [name]).map String.toList) ++ ']' :: '\n' :: rest) := by
    simp [writeHeading]
  have solid (others : List Char) : skipSpace ('[' :: others) = '[' :: others := rfl
  obtain ⟨first, others, inner, isFirst⟩ : ∃ first others,
      List.intercalate ['.'] ((tables ++ [name]).map String.toList) ++ ']' :: '\n' :: rest =
        first :: others ∧ isBare first = true := by
    rcases tables with _ | ⟨table, tables⟩
    · obtain ⟨first, others, form, isFirst⟩ := (bare name List.mem_cons_self).begins
      exact ⟨first, _, by rw [List.nil_append, List.map_singleton, List.intercalate_singleton,
        form, List.cons_append], isFirst⟩
    · obtain ⟨first, others, form, isFirst⟩ := (bare table List.mem_cons_self).begins
      exact ⟨first, _, by rw [List.cons_append, List.map_cons, form,
        List.intercalate_cons_cons_left, List.cons_append], isFirst⟩
  rw [form]
  rw [inner] at path ⊢
  rw [line?, solid]
  split
  · rename_i same
    exact absurd (List.cons.inj (List.cons.inj same).2).1 (ne_of_bare isFirst (by decide))
  · rename_i same
    rw [← (List.cons.inj same).2, path]
    rfl
  · rename_i others
    exact absurd rfl (others _)

theorem line?_empty (rest : List Char) : line? ('\n' :: rest) = some (.empty, rest) := rfl

/-- The lines of a text, whatever the fuel is as long as it suffices. -/
def HasLines (text : List Char) (lines : List Line) : Prop :=
  ∀ fuel, text.length ≤ fuel → lines? fuel text = some lines

theorem hasLines_nil : HasLines [] [] := fun fuel _ => by cases fuel <;> rfl

theorem HasLines.cons {line : Line} {lines : List Line} {text rest : List Char}
    (read : line? text = some (line, rest)) (shorter : rest.length < text.length)
    (others : HasLines rest lines) : HasLines text (line :: lines) := by
  intro fuel enough
  obtain ⟨fuel, rfl⟩ : ∃ fewer, fuel = fewer + 1 := ⟨fuel - 1, by omega⟩
  rcases text with _ | ⟨character, text⟩
  · exact absurd shorter (Nat.not_lt_zero _)
  · rw [List.length_cons] at shorter enough
    rw [lines?, read]
    · dsimp only
      rw [others fuel (by omega)]
      rfl
    · exact nofun

end

/-- The assignments of a table, without the tables in it. -/
def assignmentsOf : List (String × Data) → List Assignment
  | [] => []
  | (_, .record _) :: rest => assignmentsOf rest
  | (name, data) :: rest => ⟨⟨[], name⟩, data⟩ :: assignmentsOf rest

theorem assignmentsOf_cons (name : String) {data : Data} (fields : List (String × Data))
    (scalar : ∀ inner, data ≠ .record inner) :
    assignmentsOf ((name, data) :: fields) = ⟨⟨[], name⟩, data⟩ :: assignmentsOf fields := by
  rw [assignmentsOf]
  exact scalar

/-- The values of a table are read back from their lines. -/
theorem hasLines_values {fields : List (String × Data)} {text : List Char}
    (bare : ∀ field ∈ fields, IsBare field.1) (numeric : ∀ field ∈ fields, IsNumeric field.2)
    (written : writeValues? fields = some text) {rest : List Char} {lines : List Line}
    (others : HasLines rest lines) :
    HasLines (text ++ rest) ((assignmentsOf fields).map Line.assignment ++ lines) := by
  fun_induction writeValues? fields generalizing text with
  | case1 =>
      obtain rfl := Option.some_inj.1 written
      exact others
  | case2 name inner fields inductionHypothesis =>
      rw [List.forall_mem_cons] at bare numeric
      exact inductionHypothesis bare.2 numeric.2 written
  | case3 name data fields scalar value below belowWritten valueWritten inductionHypothesis =>
      rw [List.forall_mem_cons] at bare numeric
      obtain rfl := Option.some_inj.1 written
      have later := inductionHypothesis bare.2 numeric.2 belowWritten
      have read := line?_assignment bare.1 numeric.1 valueWritten (below ++ rest)
      rw [assignmentsOf_cons name fields fun inner => scalar inner, List.map_cons, List.cons_append,
        List.append_assoc, List.cons_append]
      refine later.cons read ?_
      simp only [List.length_append, List.length_cons]
      omega
  | case4 => exact absurd written nofun

/-! A document is a sequence of blocks, each of them a heading with its assignments. -/

mutual

/-- The sections below a table, each before the sections below it. -/
def sectionsOf (path : List String) : List (String × Data) → List Section
  | [] => []
  | (name, data) :: rest => sectionsIn path name data ++ sectionsOf path rest

def sectionsIn (path : List String) (name : String) : Data → List Section
  | .record fields =>
      ⟨.table ⟨path, name⟩, assignmentsOf fields⟩ :: sectionsOf (path ++ [name]) fields
  | _ => []

end

def Section.lines (part : Section) : List Line :=
  .heading part.heading :: part.assignments.map .assignment

/-- The text is that of a section. -/
def IsBlock (text : List Char) (part : Section) : Prop :=
  ∀ rest lines, HasLines rest lines → HasLines (text ++ rest) (part.lines ++ lines)

mutual

/-- The names in a tree are bare, and its doubles are numbers. -/
def IsWritable : Data → Prop
  | .decimal value => Double.IsFinite value
  | .record fields => AreWritable fields
  | _ => True

def AreWritable : List (String × Data) → Prop
  | [] => True
  | (name, data) :: rest => IsBare name ∧ IsWritable data ∧ AreWritable rest

end

theorem AreWritable.each {fields : List (String × Data)} (writable : AreWritable fields) :
    ∀ field ∈ fields, IsBare field.1 ∧ IsWritable field.2 := by
  induction fields with
  | nil => exact nofun
  | cons field fields inductionHypothesis =>
      rw [AreWritable] at writable
      rw [List.forall_mem_cons]
      exact ⟨⟨writable.1, writable.2.1⟩, inductionHypothesis writable.2.2⟩

theorem IsWritable.numeric {data : Data} (writable : IsWritable data) : IsNumeric data := by
  cases data with
  | decimal value => exact writable
  | _ => trivial

mutual

/-- How many tables lie inside one another. -/
def depthOf : Data → Nat
  | .record fields => depthIn fields + 1
  | _ => 0

def depthIn : List (String × Data) → Nat
  | [] => 0
  | (_, data) :: rest => max (depthOf data) (depthIn rest)

end

mutual

/-- Every table is written as the blocks of its sections. -/
theorem blocks_of_tables :
    ∀ (fields : List (String × Data)) (path : List String) (blocks : List (List Char)),
      (∀ name ∈ path, IsBare name) → AreWritable fields →
      path.length + depthIn fields ≤ depthLimit → writeTables? path fields = some blocks →
      List.Forall₂ IsBlock blocks (sectionsOf path fields)
  | [], path, blocks, barePath, writable, shallow, written => by
      obtain rfl := Option.some_inj.1 written
      rw [sectionsOf]
      exact .nil
  | (name, data) :: rest, path, blocks, barePath, writable, shallow, written => by
      rw [AreWritable] at writable
      rw [depthIn] at shallow
      rw [writeTables?] at written
      rw [sectionsOf]
      split at written
      · rename_i first others firstWritten othersWritten
        obtain rfl := Option.some_inj.1 written
        exact List.rel_append (blocks_of_table data path name first barePath writable.1
          writable.2.1 (by omega) firstWritten) (blocks_of_tables rest path others barePath
            writable.2.2 (by omega) othersWritten)
      · exact absurd written nofun

theorem blocks_of_table :
    ∀ (data : Data) (path : List String) (name : String) (blocks : List (List Char)),
      (∀ name ∈ path, IsBare name) → IsBare name → IsWritable data →
      path.length + depthOf data ≤ depthLimit → writeTable? (path ++ [name]) data = some blocks →
      List.Forall₂ IsBlock blocks (sectionsIn path name data)
  | .record fields, path, name, blocks, barePath, bare, writable, shallow, written => by
      rw [depthOf] at shallow
      rw [writeTable?] at written
      split at written
      · rename_i values below valuesWritten belowWritten
        obtain rfl := Option.some_inj.1 written
        have barePaths : ∀ part ∈ path ++ [name], IsBare part := by
          intro part member
          rcases List.mem_append.1 member with inPath | last
          · exact barePath part inPath
          · rw [List.eq_of_mem_singleton last]
            exact bare
        rw [sectionsIn]
        refine .cons (fun rest lines others => ?_) (blocks_of_tables fields (path ++ [name]) below
          barePaths writable (by rw [List.length_append, List.length_singleton]; omega)
            belowWritten)
        have each := AreWritable.each writable
        have later := hasLines_values (fun field member => (each field member).1)
          (fun field member => (each field member).2.numeric) valuesWritten others
        rw [List.append_assoc]
        refine later.cons (line?_heading barePaths (by omega) _) ?_
        have headed : 0 < (writeHeading (path ++ [name])).length := Nat.succ_pos _
        simp only [List.length_append]
        omega
      · exact absurd written nofun
  | .null, _, _, _, _, _, _, _, written
  | .boolean _, _, _, _, _, _, _, _, written
  | .integer _, _, _, _, _, _, _, _, written
  | .decimal _, _, _, _, _, _, _, _, written
  | .text _, _, _, _, _, _, _, _, written
  | .moment, _, _, _, _, _, _, _, written
  | .unreadable, _, _, _, _, _, _, _, written
  | .list _, _, _, _, _, _, _, _, written => by
      obtain rfl := Option.some_inj.1 written
      exact .nil

end

end BenchPrinter.Toml
