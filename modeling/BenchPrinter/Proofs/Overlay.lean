import BenchPrinter.Proofs.Document.Json.Grammar
import BenchPrinter.Proofs.Document.Tree
import BenchPrinter.Settings.File
import Mathlib.Logic.Relation

/-!
Partial documents of settings. A document may give any of the settings, and each of the others has
its own standard value. The order of the fields, fields that are not known, and nulls do not matter.
-/

namespace BenchPrinter

namespace Data

/-- All that the fields hold under a name. -/
def under (name : String) (fields : List (String × Data)) : List Data :=
  (fields.filter (·.1 == name)).map (·.2)

section

variable {name other : String} {content : Data} {fields others : List (String × Data)}

@[simp] theorem under_cons_same : under name ((name, content) :: fields) =
    content :: under name fields := by
  simp [under]

theorem under_cons_other (differs : other ≠ name) :
    under name ((other, content) :: fields) = under name fields := by
  simp [under, differs]

theorem under_perm (same : fields.Perm others) : (under name fields).Perm (under name others) :=
  (same.filter _).map _

/-- The first content under a name is the one that is looked up. -/
theorem lookup_eq_head? : fields.lookup name = (under name fields).head? := by
  induction fields with
  | nil => rfl
  | cons field fields inductionHypothesis =>
      obtain ⟨other, content⟩ := field
      by_cases same : other = name
      · obtain rfl := same
        rw [List.lookup_cons_self, under_cons_same, List.head?_cons]
      · rw [List.lookup_cons, beq_false_of_ne (Ne.symm same), under_cons_other same,
          ← inductionHypothesis]

theorem countP_eq_length : fields.countP (·.1 == name) = (under name fields).length := by
  rw [under, List.length_map, List.countP_eq_length_filter]

end

end Data

/-- What a name gives, when at most one field has it: without a field nothing is given. -/
inductive Gives {γ : Type} (means : Data → γ → Prop) (nothing : γ) : List Data → γ → Prop where
  | missing : Gives means nothing [] nothing
  | given {content : Data} {value : γ} (meant : means content value) :
      Gives means nothing [content] value

section

variable {β γ : Type} {means : Data → γ → Prop} {nothing value : γ} {name : String}
  {fields : List (String × Data)}

/-- A name that gives a value stands in one field at most. -/
theorem Gives.once (gives : Gives means nothing (Data.under name fields) value) :
    fields.countP (·.1 == name) ≤ 1 := by
  rw [Data.countP_eq_length]
  generalize Data.under name fields = contents at gives
  cases gives with
  | missing => exact Nat.zero_le 1
  | given => exact Nat.le_refl 1

/-- What is given is read, and the default is what nothing stands for. -/
theorem Gives.read (result : γ → β) (default : β) {read? : Data → Option β}
    (gives : Gives means nothing (Data.under name fields) value)
    (reads : ∀ content value, means content value → read? content = some (result value))
    (absent : result nothing = default) :
    Data.orDefault read? default (fields.lookup name) = some (result value) := by
  rw [Data.lookup_eq_head?]
  generalize Data.under name fields = contents at gives
  cases gives with
  | missing => rw [← absent]; rfl
  | given meant => exact reads _ _ meant

end

/-- A value that is not null. -/
inductive Present {β : Type} (means : Data → β → Prop) : Data → Option β → Prop where
  | value {content : Data} {value : β} (meant : means content value) :
      Present means content (some value)

/-- A null gives nothing. -/
inductive OrNull {β : Type} (means : Data → β → Prop) : Data → Option β → Prop where
  | null : OrNull means .null none
  | value {content : Data} {value : β} (meant : means content value) :
      OrNull means content (some value)

/-- A section gives what its fields give. -/
inductive InRecord {γ : Type} (means : List (String × Data) → γ → Prop) : Data → γ → Prop where
  | record {fields : List (String × Data)} {value : γ} (meant : means fields value) :
      InRecord means (.record fields) value

/-- A number is a double, and an integer stands for the double nearest to it. -/
inductive MeansDouble : Data → Float → Prop where
  | decimal (value : Float) : MeansDouble (.decimal value) value
  | integer (value : Int) : MeansDouble (.integer value) (Float.ofInt value)

inductive MeansWord32 : Data → UInt32 → Prop where
  | integer (word : UInt32) : MeansWord32 (.integer word.toNat) word

inductive MeansWord64 : Data → UInt64 → Prop where
  | integer (word : UInt64) : MeansWord64 (.integer word.toNat) word

inductive MeansText : Data → String → Prop where
  | text (text : String) : MeansText (.text text) text

/-- A kind of link is given by its name, or by a record of its name and a null. -/
inductive MeansLinkKind : Data → LinkKind → Prop where
  | name {name : String} {kind : LinkKind} (isName : (name, kind) ∈ LinkKind.names) :
      MeansLinkKind (.text name) kind
  | record {name : String} {kind : LinkKind} (isName : (name, kind) ∈ LinkKind.names) :
      MeansLinkKind (.record [(name, .null)]) kind

section

variable {β : Type} {means : Data → β → Prop} {read? : Data → Option β} {name : String}
  {fields : List (String × Data)} {given : Option β}
  (reads : ∀ content value, means content value → read? content = some value)

include reads

theorem Gives.read_present (gives : Gives (Present means) none (Data.under name fields) given)
    (default : β) :
    Data.orDefault read? default (fields.lookup name) = some (given.getD default) := by
  refine gives.read (·.getD default) default (fun _ _ present => ?_) rfl
  cases present with
  | value meant => exact reads _ _ meant

theorem Gives.read_orNull (noNull : ∀ value, ¬ means .null value)
    (gives : Gives (OrNull means) none (Data.under name fields) given) :
    Data.orDefault (Data.optional? read?) none (fields.lookup name) = some given := by
  refine gives.read id none (fun _ _ orNull => ?_) rfl
  cases orNull with
  | null => rfl
  | value meant =>
      rw [Data.optional?]
      · rw [reads _ _ meant]
        rfl
      · rintro rfl
        exact noNull _ meant

end

theorem MeansDouble.not_null (value : Float) : ¬ MeansDouble .null value := by
  rintro ⟨⟩

theorem MeansWord64.not_null (word : UInt64) : ¬ MeansWord64 .null word := by
  rintro ⟨⟩

theorem MeansDouble.read (content : Data) (value : Float) (meant : MeansDouble content value) :
    content.double? = some value := by
  cases meant <;> rfl

theorem MeansWord32.read (content : Data) (word : UInt32) (meant : MeansWord32 content word) :
    content.word32? = some word := by
  cases meant
  exact word32?_toNat word

theorem MeansWord64.read (content : Data) (word : UInt64) (meant : MeansWord64 content word) :
    content.word64? = some word := by
  cases meant
  exact word64?_toNat word

theorem MeansText.read (content : Data) (text : String) (meant : MeansText content text) :
    content.text? = some text := by
  cases meant
  rfl

theorem LinkKind.lookup_names {name : String} {kind : LinkKind}
    (isName : (name, kind) ∈ names) : names.lookup name = some kind := by
  simp only [names, List.mem_cons, Prod.mk.injEq, List.not_mem_nil, or_false] at isName
  rcases isName with ⟨rfl, rfl⟩ | ⟨rfl, rfl⟩ <;> rfl

theorem MeansLinkKind.read (content : Data) (kind : LinkKind)
    (meant : MeansLinkKind content kind) : LinkKind.ofData? Json.dialect content = some kind := by
  cases meant with
  | name isName => exact LinkKind.lookup_names isName
  | record isName => exact LinkKind.lookup_names isName

/-! What a document gives, and the standard values under it -/

/-- The constants that are given of a profile. -/
structure HeaterProfile.Given where
  heatRate : Option Float := none
  coolRate : Option Float := none
  noise : Option Float := none

namespace HeaterProfile.Given

/-- The fields of a record give these constants. -/
structure In (fields : List (String × Data)) (given : Given) : Prop where
  heatRate : Gives (OrNull MeansDouble) none (Data.under "heat_rate" fields) given.heatRate
  coolRate : Gives (OrNull MeansDouble) none (Data.under "cool_rate" fields) given.coolRate
  noise : Gives (OrNull MeansDouble) none (Data.under "noise" fields) given.noise

def onto (given : Given) (base : HeaterProfile Float) : HeaterProfile Float :=
  ⟨given.heatRate.getD base.heatRate, given.coolRate.getD base.coolRate,
    given.noise.getD base.noise⟩

theorem read (base : HeaterProfile Float) (content : Data) (given : Given)
    (inRecord : InRecord In content given) :
    overlay? Json.dialect base content = some (given.onto base) := by
  obtain ⟨⟨heatRate, coolRate, noise⟩⟩ := inRecord
  rw [overlay?, fields?_record]
  · simp only [heatRate.read_orNull MeansDouble.read MeansDouble.not_null,
      coolRate.read_orNull MeansDouble.read MeansDouble.not_null,
      noise.read_orNull MeansDouble.read MeansDouble.not_null]
    rfl
  · simp [fieldNames, heatRate.once, coolRate.once, noise.once]

end HeaterProfile.Given

structure ConnectionSettings.Given where
  kind : Option LinkKind := none
  port : Option String := none
  baudRate : Option UInt32 := none
  readTimeout : Option UInt64 := none
  pollInterval : Option UInt64 := none

namespace ConnectionSettings.Given

structure In (fields : List (String × Data)) (given : Given) : Prop where
  kind : Gives (Present MeansLinkKind) none (Data.under "kind" fields) given.kind
  port : Gives (Present MeansText) none (Data.under "port" fields) given.port
  baudRate : Gives (Present MeansWord32) none (Data.under "baud_rate" fields) given.baudRate
  readTimeout :
    Gives (Present MeansWord64) none (Data.under "read_timeout_ms" fields) given.readTimeout
  pollInterval :
    Gives (Present MeansWord64) none (Data.under "poll_interval_ms" fields) given.pollInterval

def settings (given : Given) : ConnectionSettings :=
  ⟨given.kind.getD standard.kind, given.port.getD standard.port,
    given.baudRate.getD standard.baudRate, given.readTimeout.getD standard.readTimeout,
    given.pollInterval.getD standard.pollInterval⟩

theorem read (content : Data) (given : Given) (inRecord : InRecord In content given) :
    ofData? Json.dialect content = some given.settings := by
  obtain ⟨⟨kind, port, baudRate, readTimeout, pollInterval⟩⟩ := inRecord
  rw [ofData?, fields?_record]
  · simp only [kind.read_present MeansLinkKind.read, port.read_present MeansText.read,
      baudRate.read_present MeansWord32.read, readTimeout.read_present MeansWord64.read,
      pollInterval.read_present MeansWord64.read]
    rfl
  · simp [kind.once, port.once, baudRate.once, readTimeout.once, pollInterval.once]

end ConnectionSettings.Given

structure TimingSettings.Given where
  busyInterval : Option UInt64 := none
  lineDelay : Option UInt64 := none

namespace TimingSettings.Given

structure In (fields : List (String × Data)) (given : Given) : Prop where
  busyInterval :
    Gives (Present MeansWord64) none (Data.under "busy_interval_ms" fields) given.busyInterval
  lineDelay : Gives (Present MeansWord64) none (Data.under "line_delay_ms" fields) given.lineDelay

def settings (given : Given) : TimingSettings :=
  ⟨given.busyInterval.getD standard.busyInterval, given.lineDelay.getD standard.lineDelay⟩

theorem read (content : Data) (given : Given) (inRecord : InRecord In content given) :
    ofData? Json.dialect content = some given.settings := by
  obtain ⟨⟨busyInterval, lineDelay⟩⟩ := inRecord
  rw [ofData?, fields?_record]
  · simp only [busyInterval.read_present MeansWord64.read,
      lineDelay.read_present MeansWord64.read]
    rfl
  · simp [busyInterval.once, lineDelay.once]

end TimingSettings.Given

/-- A seed that is null is not given either. -/
structure ThermalSettings.Given where
  room : Option Float := none
  seed : Option UInt64 := none
  hotend : HeaterProfile.Given := {}
  bed : HeaterProfile.Given := {}

namespace ThermalSettings.Given

structure In (fields : List (String × Data)) (given : Given) : Prop where
  room : Gives (Present MeansDouble) none (Data.under "room_temperature" fields) given.room
  seed : Gives (OrNull MeansWord64) none (Data.under "seed" fields) given.seed
  hotend : Gives (InRecord HeaterProfile.Given.In) {} (Data.under "hotend" fields) given.hotend
  bed : Gives (InRecord HeaterProfile.Given.In) {} (Data.under "bed" fields) given.bed

/-- Each heater keeps its own standard constants, and without a seed there is none. -/
def settings (given : Given) : ThermalSettings :=
  ⟨given.room.getD standard.room, given.seed, given.hotend.onto (.standard .hotend),
    given.bed.onto (.standard .bed)⟩

theorem read (content : Data) (given : Given) (inRecord : InRecord In content given) :
    ofData? Json.dialect content = some given.settings := by
  obtain ⟨⟨room, seed, hotend, bed⟩⟩ := inRecord
  rw [ofData?, fields?_record]
  · have noSeed : standard.seed = none := rfl
    simp only [room.read_present MeansDouble.read, noSeed,
      seed.read_orNull MeansWord64.read MeansWord64.not_null,
      hotend.read _ standard.hotend (HeaterProfile.Given.read standard.hotend) rfl,
      bed.read _ standard.bed (HeaterProfile.Given.read standard.bed) rfl]
    rfl
  · simp [room.once, seed.once, hotend.once, bed.once]

end ThermalSettings.Given

structure Settings.Given where
  connection : ConnectionSettings.Given := {}
  timing : TimingSettings.Given := {}
  thermal : ThermalSettings.Given := {}
  ignoredStart : Option String := none

namespace Settings.Given

/-- The last section has a single field. -/
def InSession (fields : List (String × Data)) (start : Option String) : Prop :=
  Gives (Present MeansText) none (Data.under "ignore_prefix" fields) start

structure In (fields : List (String × Data)) (given : Given) : Prop where
  connection :
    Gives (InRecord ConnectionSettings.Given.In) {} (Data.under "connection" fields)
      given.connection
  timing : Gives (InRecord TimingSettings.Given.In) {} (Data.under "timing" fields) given.timing
  thermal : Gives (InRecord ThermalSettings.Given.In) {} (Data.under "thermal" fields) given.thermal
  session : Gives (InRecord InSession) none (Data.under "session" fields) given.ignoredStart

/-- Every setting that is not given has its standard value. -/
def settings (given : Given) : Settings :=
  ⟨given.connection.settings, given.timing.settings, given.thermal.settings,
    given.ignoredStart.getD standard.ignoredStart⟩

theorem read_session (content : Data) (start : Option String)
    (inRecord : InRecord InSession content start) :
    ignoredStart? Json.dialect content = some (start.getD standard.ignoredStart) := by
  obtain ⟨gives⟩ := inRecord
  have once := Gives.once gives
  rw [ignoredStart?, fields?_record]
  · exact Gives.read_present MeansText.read gives standard.ignoredStart
  · simp [once]

theorem read {fields : List (String × Data)} {given : Given} (gives : given.In fields) :
    ofData? Json.dialect (.record fields) = some given.settings := by
  obtain ⟨connection, timing, thermal, session⟩ := gives
  rw [ofData?, fields?_record]
  · simp only [connection.read _ standard.connection ConnectionSettings.Given.read rfl,
      timing.read _ standard.timing TimingSettings.Given.read rfl,
      thermal.read _ standard.thermal ThermalSettings.Given.read rfl,
      session.read _ standard.ignoredStart read_session rfl]
    rfl
  · simp [connection.once, timing.once, thermal.once, session.once]

end Settings.Given

/-! Documents that give the same -/

/-- Two records with some relation between them. -/
abbrev Likeness := List (String × Data) → List (String × Data) → Prop

/-- The fields of a record differ in what does not matter: their order, a field that is not known,
a null where nothing is given, or the fields of a section. -/
inductive Differs (known nullable : List String) (sections : List (String × Likeness)) :
    Likeness where
  | order {fields others : List (String × Data)} (reordered : fields.Perm others) :
      Differs known nullable sections fields others
  | unknown {fields : List (String × Data)} {name : String} (content : Data)
      (isUnknown : name ∉ known) :
      Differs known nullable sections fields ((name, content) :: fields)
  | null {fields : List (String × Data)} {name : String} (isNullable : name ∈ nullable)
      (missing : Data.under name fields = []) :
      Differs known nullable sections fields ((name, .null) :: fields)
  | within {fields inner changed : List (String × Data)} {name : String} {likeness : Likeness}
      (isSection : (name, likeness) ∈ sections) (alike : likeness inner changed) :
      Differs known nullable sections ((name, .record inner) :: fields)
        ((name, .record changed) :: fields)

/-- Any number of such differences, in either direction. -/
def Alike (known nullable : List String) (sections : List (String × Likeness)) : Likeness :=
  Relation.EqvGen (Differs known nullable sections)

section

variable {γ : Type} {means : Data → γ → Prop} {nothing value : γ} {name : String}
  {known nullable : List String} {sections : List (String × Likeness)}
  {fields others : List (String × Data)}

theorem Gives.perm {contents changed : List Data} (reordered : contents.Perm changed)
    (gives : Gives means nothing contents value) : Gives means nothing changed value := by
  cases gives with
  | missing =>
      obtain rfl := List.nil_perm.1 reordered
      exact .missing
  | given meant =>
      obtain rfl := List.singleton_perm.1 reordered
      exact .given meant

theorem Gives.cons_iff {content : Data} {contents : List Data} :
    Gives means nothing (content :: contents) value ↔ contents = [] ∧ means content value := by
  constructor
  · rintro ⟨⟩
    exact ⟨rfl, ‹_›⟩
  · rintro ⟨rfl, meant⟩
    exact .given meant

theorem Gives.nil_iff : Gives means nothing [] value ↔ value = nothing := by
  constructor
  · rintro ⟨⟩
    rfl
  · rintro rfl
    exact .missing

/-- A known name gives the same after one difference. -/
theorem Differs.gives (differs : Differs known nullable sections fields others)
    (isKnown : name ∈ known)
    (null : name ∈ nullable → ∀ value, means .null value ↔ value = nothing)
    (within : ∀ likeness, (name, likeness) ∈ sections → ∀ inner changed, likeness inner changed →
      ∀ value, means (.record inner) value ↔ means (.record changed) value) :
    Gives means nothing (Data.under name fields) value ↔
      Gives means nothing (Data.under name others) value := by
  cases differs with
  | order reordered =>
      -- At most one field has the name, so there is nothing to reorder among its contents.
      exact ⟨.perm (Data.under_perm reordered), .perm (Data.under_perm reordered.symm)⟩
  | @unknown _ other content isUnknown =>
      have differs : other ≠ name := by
        rintro rfl
        exact isUnknown isKnown
      rw [Data.under_cons_other differs]
  | @null _ other isNullable missing =>
      by_cases same : other = name
      · -- No field had the name, and its null gives what no field gives.
        obtain rfl := same
        rw [Data.under_cons_same, missing, Gives.nil_iff, Gives.cons_iff, null isNullable]
        exact (and_iff_right rfl).symm
      · rw [Data.under_cons_other same]
  | @within _ inner changed other _ isSection alike =>
      by_cases same : other = name
      · obtain rfl := same
        rw [Data.under_cons_same, Data.under_cons_same, Gives.cons_iff, Gives.cons_iff,
          within _ isSection _ _ alike]
      · rw [Data.under_cons_other same, Data.under_cons_other same]

theorem Alike.gives (alike : Alike known nullable sections fields others) (isKnown : name ∈ known)
    (null : name ∈ nullable → ∀ value, means .null value ↔ value = nothing)
    (within : ∀ likeness, (name, likeness) ∈ sections → ∀ inner changed, likeness inner changed →
      ∀ value, means (.record inner) value ↔ means (.record changed) value) :
    Gives means nothing (Data.under name fields) value ↔
      Gives means nothing (Data.under name others) value := by
  induction alike with
  | rel _ _ differs => exact differs.gives isKnown null within
  | refl => exact Iff.rfl
  | symm _ _ _ inductionHypothesis => exact inductionHypothesis.symm
  | trans _ _ _ _ _ first second => exact first.trans second

/-- What a name gives outside of the sections, when it may not be null. -/
theorem Alike.present {β : Type} {means : Data → β → Prop} {given : Option β}
    (alike : Alike known nullable sections fields others) (isKnown : name ∈ known)
    (noNull : name ∉ nullable) (noSection : ∀ likeness, (name, likeness) ∉ sections)
    (gives : Gives (Present means) none (Data.under name fields) given) :
    Gives (Present means) none (Data.under name others) given :=
  (alike.gives isKnown (fun isNullable => absurd isNullable noNull)
    fun _ isSection => absurd isSection (noSection _)).1 gives

/-- What a name gives outside of the sections, when it may be null. -/
theorem Alike.orNull {β : Type} {means : Data → β → Prop} {given : Option β}
    (alike : Alike known nullable sections fields others) (isKnown : name ∈ known)
    (noNull : ∀ value, ¬ means .null value) (noSection : ∀ likeness, (name, likeness) ∉ sections)
    (gives : Gives (OrNull means) none (Data.under name fields) given) :
    Gives (OrNull means) none (Data.under name others) given := by
  refine (alike.gives isKnown (fun _ value => ⟨fun orNull => ?_, ?_⟩)
    fun _ isSection => absurd isSection (noSection _)).1 gives
  · cases orNull with
    | null => rfl
    | value meant => exact absurd meant (noNull _)
  · rintro rfl
    exact .null

/-- What a section gives, when alike sections give the same. -/
theorem Alike.section {means : List (String × Data) → γ → Prop} {likeness : Likeness}
    (alike : Alike known nullable sections fields others) (isKnown : name ∈ known)
    (noNull : name ∉ nullable)
    (only : ∀ other, (name, other) ∈ sections → other = likeness)
    (symmetric : ∀ inner changed, likeness inner changed → likeness changed inner)
    (keeps : ∀ inner changed, likeness inner changed →
      ∀ value, means inner value → means changed value)
    (gives : Gives (InRecord means) nothing (Data.under name fields) value) :
    Gives (InRecord means) nothing (Data.under name others) value := by
  refine (alike.gives isKnown (fun isNullable => absurd isNullable noNull)
    fun other isSection inner changed related value => ?_).1 gives
  obtain rfl := only other isSection
  constructor
  · rintro ⟨meant⟩
    exact .record (keeps _ _ related _ meant)
  · rintro ⟨meant⟩
    exact .record (keeps _ _ (symmetric _ _ related) _ meant)

end

namespace HeaterProfile

/-- Every constant may be null. -/
def AreAlike : Likeness := Alike fieldNames fieldNames []

theorem AreAlike.gives (fields others : List (String × Data)) (alike : AreAlike fields others)
    (given : Given) (gives : given.In fields) : given.In others where
  heatRate := Alike.orNull alike (by decide) MeansDouble.not_null nofun gives.heatRate
  coolRate := Alike.orNull alike (by decide) MeansDouble.not_null nofun gives.coolRate
  noise := Alike.orNull alike (by decide) MeansDouble.not_null nofun gives.noise

end HeaterProfile

namespace ConnectionSettings

def AreAlike : Likeness :=
  Alike ["kind", "port", "baud_rate", "read_timeout_ms", "poll_interval_ms"] [] []

theorem AreAlike.gives (fields others : List (String × Data)) (alike : AreAlike fields others)
    (given : Given) (gives : given.In fields) : given.In others where
  kind := Alike.present alike (by decide) nofun nofun gives.kind
  port := Alike.present alike (by decide) nofun nofun gives.port
  baudRate := Alike.present alike (by decide) nofun nofun gives.baudRate
  readTimeout := Alike.present alike (by decide) nofun nofun gives.readTimeout
  pollInterval := Alike.present alike (by decide) nofun nofun gives.pollInterval

end ConnectionSettings

namespace TimingSettings

def AreAlike : Likeness := Alike ["busy_interval_ms", "line_delay_ms"] [] []

theorem AreAlike.gives (fields others : List (String × Data)) (alike : AreAlike fields others)
    (given : Given) (gives : given.In fields) : given.In others where
  busyInterval := Alike.present alike (by decide) nofun nofun gives.busyInterval
  lineDelay := Alike.present alike (by decide) nofun nofun gives.lineDelay

end TimingSettings

namespace ThermalSettings

def AreAlike : Likeness :=
  Alike ["room_temperature", "seed", "hotend", "bed"] ["seed"]
    [("hotend", HeaterProfile.AreAlike), ("bed", HeaterProfile.AreAlike)]

theorem AreAlike.gives (fields others : List (String × Data)) (alike : AreAlike fields others)
    (given : Given) (gives : given.In fields) : given.In others where
  room := Alike.present alike (by decide) (by decide) (by simp) gives.room
  seed := Alike.orNull alike (by decide) MeansWord64.not_null (by simp) gives.seed
  hotend := Alike.section alike (by decide) (by decide) (by simp) .symm HeaterProfile.AreAlike.gives
    gives.hotend
  bed := Alike.section alike (by decide) (by decide) (by simp) .symm HeaterProfile.AreAlike.gives
    gives.bed

end ThermalSettings

namespace Settings

/-- The last section has a single field. -/
def AreSessionsAlike : Likeness := Alike ["ignore_prefix"] [] []

theorem AreSessionsAlike.gives (fields others : List (String × Data))
    (alike : AreSessionsAlike fields others) (start : Option String)
    (gives : Given.InSession fields start) : Given.InSession others start :=
  Alike.present alike (by decide) nofun nofun gives

/-- Two documents differ only in the order of their fields, in unknown fields and in nulls. -/
def AreAlike : Likeness :=
  Alike ["connection", "timing", "thermal", "session"] []
    [("connection", ConnectionSettings.AreAlike), ("timing", TimingSettings.AreAlike),
      ("thermal", ThermalSettings.AreAlike), ("session", AreSessionsAlike)]

theorem AreAlike.gives {fields others : List (String × Data)} (alike : AreAlike fields others)
    {given : Given} (gives : given.In fields) : given.In others where
  connection := Alike.section alike (by decide) nofun (by simp) .symm
    ConnectionSettings.AreAlike.gives gives.connection
  timing := Alike.section alike (by decide) nofun (by simp) .symm TimingSettings.AreAlike.gives
    gives.timing
  thermal := Alike.section alike (by decide) nofun (by simp) .symm ThermalSettings.AreAlike.gives
    gives.thermal
  session := Alike.section alike (by decide) nofun (by simp) .symm AreSessionsAlike.gives
    gives.session

theorem ofText_document {text : String} {fields : List (String × Data)} {given : Given}
    (document : Json.IsDocument text (.record fields)) (gives : given.In fields) :
    ofText .json text = .ok given.settings := by
  rw [ofText, Json.read?_document document, Option.bind_some, Given.read gives]

/-- A document may give any of the settings. Each setting that it gives has the value it gives, and
each other setting has its own standard value; the order of the fields, unknown fields and nulls
make no difference. -/
theorem partial_documents_overlay_standard {text : String} {fields : List (String × Data)}
    {given : Given} (document : Json.IsDocument text (.record fields)) (gives : given.In fields) :
    ofText .json text = .ok given.settings ∧
      ∀ other others, Json.IsDocument other (.record others) → AreAlike fields others →
        ofText .json other = .ok given.settings :=
  ⟨ofText_document document gives,
    fun _ _ other alike => ofText_document other (alike.gives gives)⟩

/-- Only the rate that the bed cools with is given. -/
def slowBed : Given := { thermal := { bed := { coolRate := some (Float.ofInt 2) } } }

def slowBedFields : List (String × Data) :=
  [("thermal", .record [("bed", .record [("cool_rate", .integer 2)])])]

def slowBedText : String := "\x7b\"thermal\": \x7b\"bed\": \x7b\"cool_rate\": 2\x7d\x7d\x7d"

set_option maxRecDepth 4096 in
/-- The second document has an unknown field and two nulls. The hotend and the other constants of
the bed stay as they are. -/
theorem slow_bed_overlays_standard :
    let settings : Settings :=
      { standard with
        thermal := { ThermalSettings.standard with
          bed := { HeaterProfile.standard .bed with coolRate := Float.ofInt 2 } } }
    Json.IsDocument slowBedText (.record slowBedFields) ∧ slowBed.In slowBedFields ∧
      ofText .json slowBedText = .ok settings ∧
      ofText .json ("\x7b\"fan\": [9], \"thermal\": \x7b\"seed\": null, " ++
        "\"bed\": \x7b\"cool_rate\": 2, \"noise\": null\x7d\x7d\x7d") = .ok settings := by
  intro settings
  have bed : HeaterProfile.Given.In [("cool_rate", .integer 2)] slowBed.thermal.bed :=
    ⟨.missing, .given (.value (.integer 2)), .missing⟩
  have thermal : ThermalSettings.Given.In
      [("bed", .record [("cool_rate", .integer 2)])] slowBed.thermal :=
    ⟨.missing, .missing, .missing, .given (.record bed)⟩
  have gives : slowBed.In slowBedFields :=
    ⟨.missing, .missing, .given (.record thermal), .missing⟩
  have bedsAlike : HeaterProfile.AreAlike [("cool_rate", .integer 2)]
      [("cool_rate", .integer 2), ("noise", .null)] :=
    .trans _ _ _ (.rel _ _ (.null (by decide) rfl)) (.rel _ _ (.order (.swap _ _ _)))
  have sectionsAlike : ThermalSettings.AreAlike [("bed", .record [("cool_rate", .integer 2)])]
      [("seed", .null), ("bed", .record [("cool_rate", .integer 2), ("noise", .null)])] :=
    .trans _ _ _ (.rel _ _ (.within (by simp) bedsAlike)) (.rel _ _ (.null (by decide) rfl))
  have alike : AreAlike slowBedFields
      [("fan", .list [.integer 9]), ("thermal", .record
        [("seed", .null), ("bed", .record [("cool_rate", .integer 2), ("noise", .null)])])] :=
    .trans _ _ _ (.rel _ _ (.within (by simp) sectionsAlike)) (.rel _ _ (.unknown _ (by decide)))
  have document : Json.IsDocument slowBedText (.record slowBedFields) :=
    Json.isDocument_iff.2 rfl
  have overlay := partial_documents_overlay_standard document gives
  exact ⟨document, gives, overlay.1, overlay.2 _ _ (Json.isDocument_iff.2 rfl) alike⟩

end Settings

end BenchPrinter
