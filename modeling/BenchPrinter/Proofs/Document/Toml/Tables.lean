import BenchPrinter.Proofs.Document.Toml.Lines

/-!
TOML documents, written and read. Each section fills the table of its heading, so the tree comes
back with the values of each table in front of its tables.
-/

namespace BenchPrinter.Toml

def Absent (name : String) (entries : Entries) : Prop := entries.lookup name = none

section

variable {name : String} {entries inner : Entries} {node : Node}

theorem lookup_append_of_absent (absent : Absent name entries) :
    (Entries.append name node entries).lookup name = some node := by
  rw [Entries.append, List.lookup_append, absent, Option.none_or, List.lookup_cons_self]

theorem absent_append {other : String} (absent : Absent other entries) (different : other ≠ name) :
    Absent other (Entries.append name node entries) := by
  have noMatch : (other == name) = false := beq_false_of_ne different
  rw [Absent, Entries.append, List.lookup_append, absent, Option.none_or, List.lookup_cons, noMatch]
  rfl

theorem replace_of_absent (absent : Absent name entries) :
    Entries.replace name node entries = entries := by
  rw [Absent, List.lookup_eq_none_iff] at absent
  rw [Entries.replace]
  refine (List.map_congr_left fun entry member => if_neg fun same => ?_).trans (List.map_id _)
  have different := absent entry member
  rw [same, bne_self_eq_false] at different
  exact Bool.false_ne_true different

theorem replace_append_of_absent (absent : Absent name entries) (other : Node) :
    Entries.replace name other (Entries.append name node entries) =
      Entries.append name other entries := by
  have kept : Entries.replace name other entries = entries := replace_of_absent absent
  rw [Entries.append, Entries.replace, List.map_append]
  rw [Entries.replace] at kept
  rw [kept]
  simp [Entries.append]

/-- What changes a table below the last entry changes nothing else. -/
theorem within_append (absent : Absent name entries) (origin : Origin)
    (change : Entries → Option Entries) (path : List String) :
    Entries.within change (name :: path) (Entries.append name (.table origin inner) entries) =
      (Entries.within change path inner).map fun inner =>
        Entries.append name (.table origin inner) entries := by
  rw [Entries.within, lookup_append_of_absent absent]
  dsimp only
  congr 1
  funext inner
  exact replace_append_of_absent absent _

end

/-- The same section one table further down. -/
def Section.below (name : String) (part : Section) : Section :=
  match part.heading with
  | .table path => { part with heading := .table ⟨name :: path.tables, path.name⟩ }
  | .item path => { part with heading := .item ⟨name :: path.tables, path.name⟩ }

theorem place_below {name : String} {entries inner : Entries} (absent : Absent name entries)
    (origin : Origin) (part : Section) :
    (part.below name).place (Entries.append name (.table origin inner) entries) =
      (part.place inner).map fun inner => Entries.append name (.table origin inner) entries := by
  rcases part with ⟨path | path, assignments⟩
  · exact within_append absent origin _ path.tables
  · exact within_append absent origin _ path.tables

/-- Sections below the last entry fill the table that it stands for. -/
theorem foldlM_below {name : String} {entries : Entries} (absent : Absent name entries)
    (origin : Origin) (parts : List Section) (inner : Entries) :
    (parts.map (Section.below name)).foldlM (fun entries (part : Section) => part.place entries)
        (Entries.append name (.table origin inner) entries) =
      (parts.foldlM (fun entries (part : Section) => part.place entries) inner).map fun inner =>
        Entries.append name (.table origin inner) entries := by
  induction parts generalizing inner with
  | nil => rfl
  | cons part parts inductionHypothesis =>
      rw [List.map_cons, List.foldlM_cons, List.foldlM_cons, place_below absent]
      cases part.place inner with
      | none => rfl
      | some inner => exact inductionHypothesis inner

mutual

theorem sectionsOf_below (name : String) :
    ∀ (path : List String) (fields : List (String × Data)),
      sectionsOf (name :: path) fields = (sectionsOf path fields).map (Section.below name)
  | path, [] => rfl
  | path, (field, data) :: rest => by
      rw [sectionsOf, sectionsOf, List.map_append, sectionsIn_below name path field data,
        sectionsOf_below name path rest]

theorem sectionsIn_below (name : String) :
    ∀ (path : List String) (field : String) (data : Data),
      sectionsIn (name :: path) field data = (sectionsIn path field data).map (Section.below name)
  | path, field, .record fields => by
      rw [sectionsIn, sectionsIn, List.map_cons, List.cons_append,
        sectionsOf_below name (path ++ [field]) fields]
      rfl
  | path, field, .null
  | path, field, .boolean _
  | path, field, .integer _
  | path, field, .decimal _
  | path, field, .text _
  | path, field, .moment
  | path, field, .unreadable
  | path, field, .list _ => rfl

end

/-- The values of a table. -/
def valueNodes : List (String × Data) → Entries
  | [] => []
  | (_, .record _) :: rest => valueNodes rest
  | (name, data) :: rest => (name, .value data) :: valueNodes rest

mutual

/-- The tables of a table. -/
def tableNodes : List (String × Data) → Entries
  | [] => []
  | (name, data) :: rest => tableNode name data ++ tableNodes rest

def tableNode (name : String) : Data → Entries
  | .record fields => [(name, .table .headed (valueNodes fields ++ tableNodes fields))]
  | _ => []

end

mutual

/-- No table names two of its fields alike. -/
def IsDistinct : Data → Prop
  | .record fields => AreDistinct fields
  | _ => True

def AreDistinct : List (String × Data) → Prop
  | [] => True
  | (name, data) :: rest => name ∉ rest.map Prod.fst ∧ IsDistinct data ∧ AreDistinct rest

end

section

variable {name : String} {data : Data} {fields : List (String × Data)} {entries : Entries}

/-- None of the fields is there yet. -/
def AreAbsent (fields : List (String × Data)) (entries : Entries) : Prop :=
  ∀ name ∈ fields.map Prod.fst, Absent name entries

theorem AreAbsent.tail (absent : AreAbsent ((name, data) :: fields) entries) :
    AreAbsent fields entries :=
  fun other member => absent other (List.mem_cons_of_mem _ member)

theorem AreAbsent.append (absent : AreAbsent ((name, data) :: fields) entries)
    (fresh : name ∉ fields.map Prod.fst) (node : Node) :
    AreAbsent fields (Entries.append name node entries) := by
  intro other member
  refine absent_append (absent other (List.mem_cons_of_mem _ member)) ?_
  rintro rfl
  exact fresh member

/-- The assignments of a table give it its values. -/
theorem assignAll_assignmentsOf (distinct : AreDistinct fields) (absent : AreAbsent fields entries) :
    Entries.assignAll (assignmentsOf fields) entries = some (entries ++ valueNodes fields) := by
  fun_induction assignmentsOf fields generalizing entries with
  | case1 =>
      rw [valueNodes, List.append_nil]
      rfl
  | case2 name inner fields inductionHypothesis =>
      rw [AreDistinct] at distinct
      rw [valueNodes]
      exact inductionHypothesis distinct.2.2 absent.tail
  | case3 name data fields scalar inductionHypothesis =>
      rw [AreDistinct] at distinct
      have first : Absent name entries := absent name List.mem_cons_self
      have later := inductionHypothesis distinct.2.2 (absent.append distinct.1 (.value data))
      rw [Entries.assignAll, List.foldlM_cons, Entries.assign, first, valueNodes]
      · rw [Entries.append, List.append_assoc] at later
        exact later
      · exact fun inner => scalar inner

theorem absent_cons {other : String} {node : Node} (different : other ≠ name)
    (absent : Absent other entries) : Absent other ((name, node) :: entries) := by
  rw [Absent, List.lookup_cons, beq_false_of_ne different]
  exact absent

theorem valueNodes_absent (fresh : name ∉ fields.map Prod.fst) : Absent name (valueNodes fields) := by
  fun_induction valueNodes fields with
  | case1 => rfl
  | case2 other inner fields inductionHypothesis =>
      exact inductionHypothesis (not_or.1 (mt List.mem_cons.2 fresh)).2
  | case3 other data fields scalar inductionHypothesis =>
      obtain ⟨different, later⟩ := not_or.1 (mt List.mem_cons.2 fresh)
      exact absent_cons different (inductionHypothesis later)

/-- None of the tables is there yet. -/
def TablesAbsent (fields : List (String × Data)) (entries : Entries) : Prop :=
  ∀ name inner, (name, Data.record inner) ∈ fields → Absent name entries

theorem tablesAbsent_valueNodes (distinct : AreDistinct fields) :
    TablesAbsent fields (valueNodes fields) := by
  fun_induction valueNodes fields with
  | case1 => exact fun _ _ _ => rfl
  | case2 other inner fields inductionHypothesis =>
      rw [AreDistinct] at distinct
      intro name found member
      rcases List.mem_cons.1 member with same | later
      · rw [(Prod.mk.inj same).1]
        exact valueNodes_absent distinct.1
      · exact inductionHypothesis distinct.2.2 name found later
  | case3 other data fields scalar inductionHypothesis =>
      rw [AreDistinct] at distinct
      intro name found member
      rcases List.mem_cons.1 member with same | later
      · exact absurd (Prod.mk.inj same).2.symm (scalar found)
      · refine absent_cons ?_ (inductionHypothesis distinct.2.2 name found later)
        rintro rfl
        exact distinct.1 (List.mem_map_of_mem later)

theorem absent_tableNode {other : String} (data : Data) (absent : Absent other entries)
    (different : other ≠ name) : Absent other (entries ++ tableNode name data) := by
  cases data with
  | record fields =>
      rw [tableNode]
      exact absent_append absent different
  | _ =>
      rw [tableNode, List.append_nil]
      · exact absent
      · exact nofun

mutual

/-- The sections of a table give it its tables. -/
theorem place_sectionsOf :
    ∀ (fields : List (String × Data)) (entries : Entries), AreDistinct fields →
      TablesAbsent fields entries →
      (sectionsOf [] fields).foldlM (fun entries (part : Section) => part.place entries) entries =
        some (entries ++ tableNodes fields)
  | [], entries, _, _ => by
      rw [sectionsOf, tableNodes, List.append_nil]
      rfl
  | (name, data) :: rest, entries, distinct, absent => by
      rw [AreDistinct] at distinct
      have first := place_sectionsIn data name entries distinct.2.1 fun inner record =>
        absent name inner (record ▸ List.mem_cons_self)
      have absentRest : TablesAbsent rest (entries ++ tableNode name data) := by
        intro other inner member
        refine absent_tableNode data (absent other inner (List.mem_cons_of_mem _ member)) ?_
        rintro rfl
        exact distinct.1 (List.mem_map_of_mem member)
      rw [sectionsOf, List.foldlM_append, first, tableNodes, ← List.append_assoc]
      exact place_sectionsOf rest _ distinct.2.2 absentRest

theorem place_sectionsIn :
    ∀ (data : Data) (name : String) (entries : Entries), IsDistinct data →
      (∀ inner, data = .record inner → Absent name entries) →
      (sectionsIn [] name data).foldlM (fun entries (part : Section) => part.place entries)
        entries = some (entries ++ tableNode name data)
  | .record fields, name, entries, distinct, absent => by
      have free := absent fields rfl
      have values : Entries.assignAll (assignmentsOf fields) [] = some (valueNodes fields) :=
        assignAll_assignmentsOf distinct fun _ _ => rfl
      have tables := place_sectionsOf fields (valueNodes fields) distinct
        (tablesAbsent_valueNodes distinct)
      have heading : Section.place ⟨.table ⟨[], name⟩, assignmentsOf fields⟩ entries =
          some (Entries.append name (.table .headed (valueNodes fields)) entries) := by
        rw [Section.place]
        dsimp only
        rw [Entries.within, Entries.headTable, free]
        dsimp only
        rw [values]
        rfl
      rw [sectionsIn, List.foldlM_cons, heading, tableNode, List.nil_append, sectionsOf_below]
      change List.foldlM _ _ _ = _
      rw [foldlM_below free, tables]
      rfl
  | .null, _, _, _, _
  | .boolean _, _, _, _, _
  | .integer _, _, _, _, _
  | .decimal _, _, _, _, _
  | .text _, _, _, _, _
  | .moment, _, _, _, _
  | .unreadable, _, _, _, _
  | .list _, _, _, _, _ => by
      rw [sectionsIn, tableNode, List.append_nil]
      · rfl
      all_goals exact nofun

end

end

/-- The lines of a document. An empty line stands between two sections. -/
def linesOf : List Section → List Line
  | [] => []
  | [part] => part.lines
  | part :: others => part.lines ++ .empty :: linesOf others

theorem sections_assignments (assignments : List Assignment) (lines : List Line) :
    sections (assignments.map Line.assignment ++ lines) =
      (assignments ++ (sections lines).1, (sections lines).2) := by
  induction assignments with
  | nil => rfl
  | cons assignment assignments inductionHypothesis =>
      rw [List.map_cons, List.cons_append, sections, inductionHypothesis]
      rfl

theorem sections_lines (part : Section) (lines : List Line) :
    sections (part.lines ++ lines) =
      ([], ⟨part.heading, part.assignments ++ (sections lines).1⟩ :: (sections lines).2) := by
  rw [Section.lines, List.cons_append, sections, sections_assignments]

theorem sections_linesOf (parts : List Section) : sections (linesOf parts) = ([], parts) := by
  fun_induction linesOf parts with
  | case1 => rfl
  | case2 part =>
      have read := sections_lines part []
      rw [List.append_nil] at read
      rw [read, sections, List.append_nil]
  | case3 part others several inductionHypothesis =>
      rw [sections_lines, sections, inductionHypothesis, List.append_nil]

/-- The blocks of a document are read as its lines. -/
theorem hasLines_intercalate {blocks : List (List Char)} {parts : List Section}
    (isBlock : List.Forall₂ IsBlock blocks parts) :
    HasLines (List.intercalate ['\n'] blocks) (linesOf parts) := by
  induction isBlock with
  | nil => exact hasLines_nil
  | @cons block part blocks parts first others inductionHypothesis =>
      cases others with
      | nil =>
          have read := first [] [] hasLines_nil
          rw [List.append_nil, List.append_nil] at read
          rw [List.intercalate_singleton]
          exact read
      | @cons second next blocks parts secondBlock others =>
          rw [List.intercalate_cons_cons, List.append_assoc]
          refine first _ _ (inductionHypothesis.cons (line?_empty _) ?_)
          exact Nat.lt_succ_self _

section

variable {fields : List (String × Data)} {text : String}

theorem assignmentsOf_nil (written : writeValues? fields = some []) : assignmentsOf fields = [] := by
  fun_induction assignmentsOf fields with
  | case1 => rfl
  | case2 name inner fields inductionHypothesis => exact inductionHypothesis written
  | case3 name data fields scalar inductionHypothesis =>
      rw [writeValues?] at written
      · split at written
        · exact absurd (Option.some_inj.1 written) (by simp)
        · exact absurd written nofun
      · exact fun inner => scalar inner

/-- Values before the first heading, and the sections. -/
theorem hasLines_document (written : write? (.record fields) = some text)
    (writable : AreWritable fields) (shallow : depthIn fields ≤ depthLimit) :
    ∃ lines, HasLines text.toList lines ∧
      sections lines = (assignmentsOf fields, sectionsOf [] fields) := by
  rw [write?] at written
  split at written
  · rename_i values blocks valuesWritten blocksWritten
    have each := writable.each
    have isBlock := blocks_of_tables fields [] blocks (List.forall_mem_nil _) writable
      (by simpa using shallow) blocksWritten
    obtain rfl := Option.some_inj.1 written
    rw [String.toList_ofList]
    rcases values with _ | ⟨character, values⟩
    · refine ⟨_, hasLines_intercalate isBlock, ?_⟩
      rw [sections_linesOf, assignmentsOf_nil valuesWritten]
    · have values {rest : List Char} {lines : List Line} (others : HasLines rest lines) :=
        hasLines_values (fun field member => (each field member).1)
          (fun field member => (each field member).2.numeric) valuesWritten others
      rw [List.isEmpty_cons, if_neg Bool.false_ne_true]
      generalize sectionsOf [] fields = parts at isBlock ⊢
      cases isBlock with
      | nil =>
          have read := values hasLines_nil
          rw [List.append_nil] at read
          rw [List.intercalate_singleton]
          refine ⟨_, read, ?_⟩
          rw [sections_assignments, sections, List.append_nil]
      | @cons block part blocks parts first others =>
          rw [List.intercalate_cons_cons, List.append_assoc]
          refine ⟨_, values ((hasLines_intercalate (.cons first others)).cons (line?_empty _)
            (Nat.lt_succ_self _)), ?_⟩
          rw [sections_assignments, sections, sections_linesOf, List.append_nil]
  · contradiction

/-- No line begins with a byte order mark. -/
theorem line?_mark (rest : List Char) : line? ('\uFEFF' :: rest) = none := rfl

theorem HasLines.dropMark_eq {text : List Char} {lines : List Line} (has : HasLines text lines) :
    dropMark text = text := by
  rw [dropMark]
  intro rest same
  have read := has text.length (Nat.le_refl _)
  rw [same, List.length_cons, lines?, line?_mark] at read
  · contradiction
  · simp

/-- A written document is read as a tree that has the values of each table in front of its
tables. -/
theorem read?_write (written : write? (.record fields) = some text)
    (writable : AreWritable fields) (shallow : depthIn fields ≤ depthLimit)
    (distinct : AreDistinct fields) :
    read? text = some (Entries.data (valueNodes fields ++ tableNodes fields)) := by
  obtain ⟨lines, has, split⟩ := hasLines_document written writable shallow
  have values : Entries.assignAll (assignmentsOf fields) [] = some (valueNodes fields) :=
    assignAll_assignmentsOf distinct fun _ _ => rfl
  rw [read?, has.dropMark_eq, has _ (Nat.le_refl _)]
  dsimp only
  rw [document?, split]
  dsimp only
  rw [values]
  dsimp only
  rw [place_sectionsOf fields _ distinct (tablesAbsent_valueNodes distinct), Option.map_some]

end

end BenchPrinter.Toml
