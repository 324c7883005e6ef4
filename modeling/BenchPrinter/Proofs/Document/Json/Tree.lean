import BenchPrinter.Document.Json.Reader
import BenchPrinter.Proofs.Document.Json.Number
import BenchPrinter.Proofs.Document.Json.Text

/-!
JSON documents, written and read. The tree comes back with each double as its digits are read, in
either layout.
-/

namespace BenchPrinter.Json

def IsBlank (text : List Char) : Prop := ∀ character ∈ text, isSpace character = true

/-- What may follow a value. -/
def Ends (rest : List Char) : Prop :=
  ∀ mark ∈ rest.head?, mark = ',' ∨ mark = ']' ∨ mark = '}' ∨ isSpace mark = true

theorem skipSpace_append {blank : List Char} (isBlank : IsBlank blank) (text : List Char) :
    skipSpace (blank ++ text) = skipSpace text := by
  induction blank with
  | nil => rfl
  | cons character blank inductionHypothesis =>
      rw [List.cons_append, skipSpace,
        List.dropWhile_cons_of_pos (isBlank character List.mem_cons_self)]
      exact inductionHypothesis fun other member => isBlank other (List.mem_cons_of_mem _ member)

theorem skipSpace_cons {mark : Char} (text : List Char) (solid : isSpace mark = false) :
    skipSpace (mark :: text) = mark :: text :=
  List.dropWhile_cons_of_neg (Bool.not_eq_true _ ▸ solid)

theorem Ends.number {rest : List Char} (ends : Ends rest) : EndsNumber rest := by
  rcases rest with _ | ⟨mark, rest⟩
  · exact ⟨nofun, nofun, nofun, nofun⟩
  · have marks := ends mark rfl
    rw [isSpace, Bool.or_eq_true, Bool.or_eq_true, Bool.or_eq_true, decide_eq_true_eq,
      decide_eq_true_eq, decide_eq_true_eq, decide_eq_true_eq] at marks
    have ended (mark : Char) (special : asciiDigit? mark = none) (point : mark ≠ '.')
        (small : mark ≠ 'e') (capital : mark ≠ 'E') : EndsNumber (mark :: rest) := by
      refine ⟨fun other same => ?_, fun same => point (Option.some_inj.1 same),
        fun same => small (Option.some_inj.1 same), fun same => capital (Option.some_inj.1 same)⟩
      obtain rfl := Option.some_inj.1 same
      exact special
    rcases marks with rfl | rfl | rfl | ((rfl | rfl) | rfl) | rfl <;>
      exact ended _ (by decide) (by decide) (by decide) (by decide)

/-- A reader takes a text for a result. The text does not begin with a blank or a closing
bracket. -/
structure Reads {β : Type} (read : Reader β) (text : List Char) (result : β) : Prop where
  first : ∃ mark rest, text = mark :: rest ∧ isSpace mark = false ∧ mark ≠ ']' ∧ mark ≠ '}'
  reads : ∀ rest, Ends rest → read (text ++ rest) = some (result, rest)

/-- Blanks in front make no difference. -/
def SkipsBlanks {β : Type} (read : Reader β) : Prop :=
  ∀ blank text, IsBlank blank → read (blank ++ text) = read text

section

variable {β : Type} {read : Reader β} {closing : Char} {blank between text : List Char}
  {texts : List (List Char)} {results : List β}

/-- The items after the first one, and the closing bracket. -/
def remainder (between blank : List Char) (closing : Char) (texts : List (List Char))
    (rest : List Char) : List Char :=
  texts.flatMap (fun text => ',' :: between ++ text) ++ (blank ++ closing :: rest)

theorem intercalate_cons (between text : List Char) (texts : List (List Char)) :
    List.intercalate (',' :: between) (text :: texts) =
      text ++ texts.flatMap fun text => ',' :: between ++ text := by
  induction texts generalizing text with
  | nil => simp
  | cons next texts inductionHypothesis =>
      rw [List.intercalate_cons_cons, inductionHypothesis, List.flatMap_cons]
      simp

theorem remainder_nil (rest : List Char) :
    remainder between blank closing [] rest = blank ++ closing :: rest := rfl

theorem remainder_cons (rest : List Char) :
    remainder between blank closing (text :: texts) rest =
      ',' :: (between ++ (text ++ remainder between blank closing texts rest)) := by
  simp [remainder]

theorem ends_remainder (isBlank : IsBlank blank) (closes : closing = ']' ∨ closing = '}')
    (rest : List Char) : Ends (remainder between blank closing texts rest) := by
  rcases texts with _ | ⟨text, texts⟩
  · rcases blank with _ | ⟨character, blank⟩
    · rintro mark first
      obtain rfl : closing = mark := Option.some_inj.1 first
      rcases closes with rfl | rfl
      · exact .inr (.inl rfl)
      · exact .inr (.inr (.inl rfl))
    · rintro mark first
      obtain rfl : character = mark := Option.some_inj.1 first
      exact .inr (.inr (.inr (isBlank _ List.mem_cons_self)))
  · rintro mark first
    obtain rfl : ',' = mark := Option.some_inj.1 first
    exact .inl rfl

theorem items?_skips (skips : SkipsBlanks read) (fuel : Nat) :
    SkipsBlanks (items? read closing fuel) := by
  intro blank text isBlank
  cases fuel with
  | zero => rfl
  | succ fuel => rw [items?, items?, skips blank text isBlank]

/-- The items are read one after another. -/
theorem items?_remainder (skips : SkipsBlanks read) (betweenBlank : IsBlank between)
    (isBlank : IsBlank blank) (closes : closing = ']' ∨ closing = '}') {result : β}
    (first : Reads read text result) (others : List.Forall₂ (Reads read) texts results)
    {fuel : Nat} (enough : texts.length < fuel) (rest : List Char) :
    items? read closing fuel (text ++ remainder between blank closing texts rest) =
      some (result :: results, rest) := by
  induction others generalizing fuel text result with
  | nil =>
      obtain ⟨fuel, rfl⟩ : ∃ fewer, fuel = fewer + 1 := ⟨fuel - 1, by omega⟩
      have solid : isSpace closing = false := by rcases closes with rfl | rfl <;> rfl
      have noComma : closing ≠ ',' := by rcases closes with rfl | rfl <;> decide
      rw [items?, first.reads _ (ends_remainder isBlank closes rest)]
      dsimp only
      rw [remainder_nil, skipSpace_append isBlank, skipSpace_cons _ solid]
      simp only [if_neg noComma, if_true]
  | @cons next nextResult texts results nextReads _ inductionHypothesis =>
      obtain ⟨fuel, rfl⟩ : ∃ fewer, fuel = fewer + 1 := ⟨fuel - 1, by omega⟩
      rw [List.length_cons] at enough
      have fewer : texts.length < fuel := by omega
      have tail := inductionHypothesis nextReads fewer
      rw [items?, first.reads _ (ends_remainder isBlank closes rest)]
      dsimp only
      rw [remainder_cons, skipSpace_cons _ (by decide)]
      dsimp only
      rw [if_pos rfl, items?_skips skips fuel between _ betweenBlank, tail]
      rfl

end

/-- The layout has nothing but blanks between the values. -/
structure Layout.IsLoose (layout : Layout) : Prop where
  lineBreak : ∀ depth, IsBlank (layout.lineBreak depth)
  colon : ∃ blank, layout.colon = ':' :: blank ∧ IsBlank blank

theorem isLoose_pretty : Layout.pretty.IsLoose := by
  refine ⟨fun depth character member => ?_, [' '], rfl, fun character member => ?_⟩
  · rcases List.mem_cons.1 member with rfl | later
    · rfl
    · rw [List.eq_of_mem_replicate later]
      rfl
  · rw [List.eq_of_mem_singleton member]
    rfl

theorem isLoose_compact : Layout.compact.IsLoose :=
  ⟨fun _ => nofun, [], rfl, nofun⟩

section

variable {β : Type} {read : Reader β} {closing : Char} {layout : Layout}
  {texts : List (List Char)} {results : List β}

/-- A list between brackets is read, whatever is in it. -/
theorem enclosed?_bracket (opening : Char) (loose : layout.IsLoose) (skips : SkipsBlanks read)
    (closes : closing = ']' ∨ closing = '}') (reads : List.Forall₂ (Reads read) texts results)
    {fuel : Nat} (enough : texts.length ≤ fuel) (depth : Nat) (rest : List Char) :
    ∃ inner, layout.bracket opening closing depth texts ++ rest = opening :: inner ∧
      enclosed? read closing fuel inner = some (results, rest) := by
  cases reads with
  | nil =>
      have solid : isSpace closing = false := by rcases closes with rfl | rfl <;> rfl
      refine ⟨closing :: rest, rfl, ?_⟩
      rw [enclosed?, skipSpace_cons _ solid]
      exact if_pos rfl
  | @cons text result texts results first others =>
      refine ⟨layout.lineBreak (depth + 1) ++ (text ++ remainder (layout.lineBreak (depth + 1))
        (layout.lineBreak depth) closing texts rest), ?_, ?_⟩
      · simp [Layout.bracket, intercalate_cons, remainder]
      · have items := items?_remainder skips (loose.lineBreak (depth + 1)) (loose.lineBreak depth)
          closes first others (Nat.lt_of_succ_le enough) rest
        obtain ⟨mark, tail, form, solid, list, record⟩ := first.first
        have different : mark ≠ closing := by
          rcases closes with rfl | rfl
          · exact list
          · exact record
        rw [form, List.cons_append] at items ⊢
        rw [enclosed?, skipSpace_append (loose.lineBreak _), skipSpace_cons _ solid]
        dsimp only
        rw [if_neg different, items]

/-- The text of a list is longer than each item, and than the count of items. -/
theorem bracket_length (layout : Layout) (opening closing : Char) (depth : Nat)
    (texts : List (List Char)) :
    texts.length < (layout.bracket opening closing depth texts).length ∧
      ∀ text ∈ texts, text.length < (layout.bracket opening closing depth texts).length := by
  rcases texts with _ | ⟨first, texts⟩
  · exact ⟨Nat.zero_lt_two, nofun⟩
  · have longer (texts : List (List Char)) : texts.length ≤
        (texts.flatMap fun text => ',' :: layout.lineBreak (depth + 1) ++ text).length ∧
        ∀ text ∈ texts, text.length ≤
          (texts.flatMap fun text => ',' :: layout.lineBreak (depth + 1) ++ text).length := by
      induction texts with
      | nil => exact ⟨Nat.le_refl _, nofun⟩
      | cons next texts inductionHypothesis =>
          obtain ⟨count, each⟩ := inductionHypothesis
          simp only [List.flatMap_cons, List.length_append, List.length_cons, List.forall_mem_cons]
            at count each ⊢
          refine ⟨by omega, by omega, fun text member => ?_⟩
          have bound := each text member
          omega
    obtain ⟨count, each⟩ := longer texts
    have size : (layout.bracket opening closing depth (first :: texts)).length =
        1 + (layout.lineBreak (depth + 1)).length + first.length +
          (texts.flatMap fun text => ',' :: layout.lineBreak (depth + 1) ++ text).length +
            (layout.lineBreak depth).length + 1 := by
      simp only [Layout.bracket, intercalate_cons, List.length_append, List.length_cons,
        List.length_nil]
      omega
    rw [size, List.length_cons, List.forall_mem_cons]
    refine ⟨by omega, by omega, fun text member => ?_⟩
    have bound := each text member
    omega

end

theorem value?_skips (fuel : Nat) : SkipsBlanks (value? fuel) := by
  intro blank text isBlank
  cases fuel with
  | zero => rfl
  | succ fuel => rw [value?, value?, skipSpace_append isBlank]

theorem field?_skips (read : Reader Data) : SkipsBlanks (field? read) := by
  intro blank text isBlank
  rw [field?, field?, skipSpace_append isBlank]

theorem solid_of_begins {mark : Char} (begins : BeginsNumber mark) : isSpace mark = false := by
  simp only [isSpace, Bool.or_eq_false_iff, decide_eq_false_iff_not]
  exact ⟨⟨⟨begins.ne (by decide), begins.ne (by decide)⟩, begins.ne (by decide)⟩,
    begins.ne (by decide)⟩

theorem value?_number (fuel : Nat) {mark : Char} (text : List Char) (begins : BeginsNumber mark) :
    value? (fuel + 1) (mark :: text) =
      (numberText? (mark :: text)).map fun (number, rest) => (number.value, rest) := by
  have other {special : Char} {found expected : List Char}
      (form : mark :: found = special :: expected)
      (noNumber : special ≠ '-' ∧ special.isDigit = false) : False :=
    begins.ne noNumber (List.cons.inj form).1
  rw [value?, skipSpace_cons _ (solid_of_begins begins)]
  split
  · rename_i form
    exact (other form (by decide)).elim
  · rename_i form
    exact (other form (by decide)).elim
  · rename_i form
    exact (other form (by decide)).elim
  · rename_i form
    exact (other form (by decide)).elim
  · rename_i form
    exact (other form (by decide)).elim
  · rename_i form
    exact (other form (by decide)).elim
  · rfl

theorem reads_number {text : List Char} {data : Data} (fuel : Nat)
    (begins : ∃ mark rest, text = mark :: rest ∧ BeginsNumber mark)
    (number : ∀ rest, EndsNumber rest → (numberText? (text ++ rest)).map
      (fun (number, rest) => (number.value, rest)) = some (data, rest)) :
    Reads (value? (fuel + 1)) text data := by
  obtain ⟨mark, tail, rfl, begins⟩ := begins
  refine ⟨⟨mark, tail, rfl, solid_of_begins begins, begins.ne (by decide), begins.ne (by decide)⟩,
    fun rest ends => ?_⟩
  rw [List.cons_append, value?_number fuel _ begins]
  exact number rest ends.number

theorem reads_text (fuel : Nat) (text : String) :
    Reads (value? (fuel + 1)) (writeText text) (.text text) := by
  refine ⟨⟨'"', _, rfl, by decide, by decide, by decide⟩, fun rest _ => ?_⟩
  have pieces := pieces?_writeText text.toList rest
  have form : writeText text ++ rest = '"' :: (text.toList.flatMap escape ++ '"' :: rest) := by
    simp [writeText]
  rw [form]
  change (pieces? _).map _ = _
  simp only [pieces, Option.map_some, textValue, joined?_pieceOf, String.ofList_toList]

/-- A field is read with its name. -/
theorem reads_field {layout : Layout} (loose : layout.IsLoose) {read : Reader Data}
    (skips : SkipsBlanks read) {text : List Char} {data : Data} (reads : Reads read text data)
    (name : String) :
    Reads (field? read) (writeText name ++ layout.colon ++ text) (some (name, data)) := by
  obtain ⟨blank, colon, isBlank⟩ := loose.colon
  refine ⟨⟨'"', _, rfl, by decide, by decide, by decide⟩, fun rest ends => ?_⟩
  have form : writeText name ++ layout.colon ++ text ++ rest =
      '"' :: (name.toList.flatMap escape ++ '"' :: (':' :: (blank ++ (text ++ rest)))) := by
    simp [writeText, colon]
  have pieces := pieces?_writeText name.toList (':' :: (blank ++ (text ++ rest)))
  simp only [form, field?, skipSpace_cons _ (by decide : isSpace '"' = false), pieces,
    skipSpace_cons _ (by decide : isSpace ':' = false), skips blank _ isBlank,
    reads.reads rest ends, joined?_pieceOf, Option.map_some, String.ofList_toList]

theorem recordValue_some (fields : List (String × Data)) :
    recordValue (fields.map some) = .record fields := by
  have read : (fields.map some).mapM id = some fields := by
    induction fields with
    | nil => rfl
    | cons field fields inductionHypothesis =>
        rw [List.map_cons, List.mapM_cons, inductionHypothesis]
        rfl
  rw [recordValue, read]

mutual

/-- The tree that is read back. -/
def echoed : Data → Data
  | .null => .null
  | .unreadable => .null
  | .moment => .null
  | .boolean value => .boolean value
  | .integer value => .integer value
  | .decimal value => if Double.IsFinite value then echo value else .null
  | .text value => .text value
  | .list items => .list (echoedItems items)
  | .record fields => .record (echoedFields fields)

def echoedItems : List Data → List Data
  | [] => []
  | item :: rest => echoed item :: echoedItems rest

def echoedFields : List (String × Data) → List (String × Data)
  | [] => []
  | (name, content) :: rest => (name, echoed content) :: echoedFields rest

end

mutual

/-- Every integer in the tree can be read as one. -/
def Fits : Data → Prop
  | .integer value => FitsInteger value
  | .list items => FitsItems items
  | .record fields => FitsFields fields
  | _ => True

def FitsItems : List Data → Prop
  | [] => True
  | item :: rest => Fits item ∧ FitsItems rest

def FitsFields : List (String × Data) → Prop
  | [] => True
  | (_, content) :: rest => Fits content ∧ FitsFields rest

end

theorem write_infinite {value : Float} (infinite : ¬ Double.IsFinite value) :
    doubleStyle.write value = "null" := by
  have notFinite : (DoublePattern.ofFloat value).isFinite ≠ true :=
    fun finite => infinite ((Double.pattern_finite value).1 finite)
  unfold DoubleStyle.write
  dsimp only
  rw [if_neg notFinite]
  split <;> rfl

theorem reads_null (fuel : Nat) : Reads (value? (fuel + 1)) "null".toList .null :=
  ⟨⟨'n', _, rfl, by decide, by decide, by decide⟩, fun _ _ => rfl⟩

theorem reads_double (fuel : Nat) (value : Float) :
    Reads (value? (fuel + 1)) (doubleStyle.write value).toList (echoed (.decimal value)) := by
  rw [echoed]
  split
  · rename_i finite
    refine reads_number fuel ?_ fun rest ends => numberText?_double finite ends
    rw [DoubleStyle.write_eq rfl finite]
    exact signed_begins (DoubleStyle.spelling_proper (by decide) value) _
  · rename_i infinite
    rw [write_infinite infinite]
    exact reads_null fuel

section

variable {layout : Layout}

theorem bracket_form (layout : Layout) (opening closing : Char) (depth : Nat)
    (texts : List (List Char)) :
    ∃ tail, layout.bracket opening closing depth texts = opening :: tail := by
  cases texts with
  | nil => exact ⟨_, rfl⟩
  | cons text texts => exact ⟨_, rfl⟩

theorem reads_list (loose : layout.IsLoose) {fuel : Nat} {texts : List (List Char)}
    {items : List Data} (reads : List.Forall₂ (Reads (value? fuel)) texts items)
    (enough : texts.length ≤ fuel) (depth : Nat) :
    Reads (value? (fuel + 1)) (layout.bracket '[' ']' depth texts) (.list items) := by
  obtain ⟨tail, form⟩ := bracket_form layout '[' ']' depth texts
  refine ⟨⟨'[', tail, form, by decide, by decide, by decide⟩, fun rest _ => ?_⟩
  obtain ⟨inner, outer, enclosed⟩ := enclosed?_bracket '[' loose (value?_skips fuel)
    (.inl rfl) reads enough depth rest
  rw [outer]
  change (enclosed? (value? fuel) ']' fuel inner).map _ = _
  rw [enclosed]
  rfl

theorem reads_record (loose : layout.IsLoose) {fuel : Nat} {texts : List (List Char)}
    {fields : List (String × Data)}
    (reads : List.Forall₂ (Reads (field? (value? fuel))) texts (fields.map some))
    (enough : texts.length ≤ fuel) (depth : Nat) :
    Reads (value? (fuel + 1)) (layout.bracket '{' '}' depth texts) (.record fields) := by
  obtain ⟨tail, form⟩ := bracket_form layout '{' '}' depth texts
  refine ⟨⟨'{', tail, form, by decide, by decide, by decide⟩, fun rest _ => ?_⟩
  obtain ⟨inner, outer, enclosed⟩ := enclosed?_bracket '{' loose
    (field?_skips (value? fuel)) (.inr rfl) reads enough depth rest
  rw [outer]
  change (enclosed? (field? (value? fuel)) '}' fuel inner).map _ = _
  simp only [enclosed, Option.map_some, recordValue_some]

mutual

theorem reads_value (loose : layout.IsLoose) :
    ∀ (data : Data) (depth fuel : Nat), Fits data → (layout.value depth data).length < fuel →
      Reads (value? fuel) (layout.value depth data) (echoed data)
  | data, depth, 0, fits, enough => by omega
  | .null, depth, fuel + 1, _, _ => by
      rw [Layout.value, echoed]
      exact reads_null fuel
  | .unreadable, depth, fuel + 1, _, _ => by
      rw [Layout.value, echoed]
      exact reads_null fuel
  | .moment, depth, fuel + 1, _, _ => by
      rw [Layout.value, echoed]
      exact reads_null fuel
  | .boolean true, depth, fuel + 1, _, _ => by
      rw [Layout.value, echoed]
      exact ⟨⟨'t', _, rfl, by decide, by decide, by decide⟩, fun _ _ => rfl⟩
  | .boolean false, depth, fuel + 1, _, _ => by
      rw [Layout.value, echoed]
      exact ⟨⟨'f', _, rfl, by decide, by decide, by decide⟩, fun _ _ => rfl⟩
  | .integer value, depth, fuel + 1, fits, _ => by
      rw [Layout.value, echoed]
      refine reads_number fuel ?_ fun rest ends => numberText?_integer fits ends
      rw [toString_eq]
      exact signed_begins (integerSpelling_proper _) _
  | .decimal value, depth, fuel + 1, _, _ => by
      rw [Layout.value]
      exact reads_double fuel value
  | .text value, depth, fuel + 1, _, _ => by
      rw [Layout.value, echoed]
      exact reads_text fuel value
  | .list items, depth, fuel + 1, fits, enough => by
      rw [Layout.value] at enough ⊢
      rw [echoed]
      obtain ⟨count, each⟩ := bracket_length layout '[' ']' depth (layout.values (depth + 1) items)
      refine reads_list loose (reads_values loose items (depth + 1) fuel fits fun text member =>
        ?_) (by omega) depth
      have shorter := each text member
      omega
  | .record fields, depth, fuel + 1, fits, enough => by
      rw [Layout.value] at enough ⊢
      rw [echoed]
      obtain ⟨count, each⟩ :=
        bracket_length layout '{' '}' depth (layout.entries (depth + 1) fields)
      refine reads_record loose (reads_entries loose fields (depth + 1) fuel fits
        fun text member => ?_) (by omega) depth
      have shorter := each text member
      omega

theorem reads_values (loose : layout.IsLoose) :
    ∀ (items : List Data) (depth fuel : Nat), FitsItems items →
      (∀ text ∈ layout.values depth items, text.length < fuel) →
      List.Forall₂ (Reads (value? fuel)) (layout.values depth items) (echoedItems items)
  | [], depth, fuel, fits, enough => by
      rw [Layout.values, echoedItems]
      exact .nil
  | item :: rest, depth, fuel, fits, enough => by
      rw [Layout.values] at enough ⊢
      rw [echoedItems]
      rw [FitsItems] at fits
      rw [List.forall_mem_cons] at enough
      exact .cons (reads_value loose item depth fuel fits.1 enough.1)
        (reads_values loose rest depth fuel fits.2 enough.2)

theorem reads_entries (loose : layout.IsLoose) :
    ∀ (fields : List (String × Data)) (depth fuel : Nat), FitsFields fields →
      (∀ text ∈ layout.entries depth fields, text.length < fuel) →
      List.Forall₂ (Reads (field? (value? fuel))) (layout.entries depth fields)
        ((echoedFields fields).map some)
  | [], depth, fuel, fits, enough => by
      rw [Layout.entries, echoedFields]
      exact .nil
  | (name, content) :: rest, depth, fuel, fits, enough => by
      rw [Layout.entries] at enough ⊢
      rw [echoedFields]
      rw [FitsFields] at fits
      rw [List.forall_mem_cons] at enough
      refine .cons (reads_field loose (value?_skips fuel)
        (reads_value loose content depth fuel fits.1 ?_) name)
        (reads_entries loose rest depth fuel fits.2 enough.2)
      have shorter := enough.1
      rw [List.length_append] at shorter
      omega

end

/-- Reading a written document gives the tree back, up to the doubles. -/
theorem read?_write (loose : layout.IsLoose) {data : Data} (fits : Fits data) :
    read? (write layout data) = some (echoed data) := by
  have reads := (reads_value loose data 0 ((layout.value 0 data).length + 1) fits
    (Nat.lt_succ_self _)).reads [] nofun
  rw [List.append_nil] at reads
  rw [read?, write, String.toList_ofList, reads]
  rfl

end

end BenchPrinter.Json
