import BenchPrinter.Settings.Document

/-!
The tree of settings. Reading the tree that settings are written as gives the settings back, as long
as each double does not change on the way.
-/

namespace BenchPrinter

/-- The tree of a profile, with a tree of its own for each double. -/
def HeaterProfile.tree (tree : Float → Data) (profile : HeaterProfile Float) : Data :=
  .record [("heat_rate", tree profile.heatRate), ("cool_rate", tree profile.coolRate),
    ("noise", tree profile.noise)]

def HeaterProfile.doubles (profile : HeaterProfile Float) : List Float :=
  [profile.heatRate, profile.coolRate, profile.noise]

def ThermalSettings.tree (tree : Float → Data) (settings : ThermalSettings) : Data :=
  .record (("room_temperature", tree settings.room) :: seedField settings.seed ++
    [("hotend", settings.hotend.tree tree), ("bed", settings.bed.tree tree)])

def Settings.tree (tree : Float → Data) (settings : Settings) : Data :=
  .record [("connection", settings.connection.data), ("timing", settings.timing.data),
    ("thermal", settings.thermal.tree tree),
    ("session", .record [("ignore_prefix", .text settings.ignoredStart)])]

def Settings.doubles (settings : Settings) : List Float :=
  settings.thermal.room :: settings.thermal.hotend.doubles ++ settings.thermal.bed.doubles

theorem Settings.data_eq_tree (settings : Settings) : settings.data = settings.tree .decimal := rfl

section

variable (dialect : Dialect)

theorem word32?_toNat (word : UInt32) : Data.word32? (.integer word.toNat) = some word := by
  have fits : (0 : Int) ≤ word.toNat ∧ (word.toNat : Int) < UInt32.size :=
    ⟨Int.natCast_nonneg _, by exact_mod_cast word.toNat_lt_size⟩
  rw [Data.word32?, Data.natural?, if_pos fits]
  simp

theorem word64?_toNat (word : UInt64) : Data.word64? (.integer word.toNat) = some word := by
  have fits : (0 : Int) ≤ word.toNat ∧ (word.toNat : Int) < UInt64.size :=
    ⟨Int.natCast_nonneg _, by exact_mod_cast word.toNat_lt_size⟩
  rw [Data.word64?, Data.natural?, if_pos fits]
  simp

theorem LinkKind.ofData?_data (kind : LinkKind) : ofData? dialect kind.data = some kind := by
  cases kind <;> rfl

theorem orDefault_some {β : Type} (read? : Data → Option β) (default : β) (data : Data) :
    Data.orDefault read? default (some data) = read? data := by
  rw [Data.orDefault]

/-- A record whose names differ gives each field by its name. -/
theorem fields?_record {β : Type} {names : List String} {fields : List (String × Data)}
    (distinct : (names.all fun name => fields.countP (·.1 == name) ≤ 1) = true)
    (next : (String → Option Data) → Option β) :
    (Data.fields? dialect names (.record fields) >>= next) =
      next fun name => fields.lookup name := by
  rw [Data.fields?, if_pos distinct]
  rfl

theorem ConnectionSettings.ofData?_data (settings : ConnectionSettings) :
    ofData? dialect settings.data = some settings := by
  rw [ofData?, data, fields?_record dialect (by simp [List.countP_cons])]
  simp only [List.lookup_cons, BEq.rfl, String.reduceBEq, orDefault_some, LinkKind.ofData?_data,
    Data.text?, word32?_toNat, word64?_toNat]
  rfl

theorem TimingSettings.ofData?_data (settings : TimingSettings) :
    ofData? dialect settings.data = some settings := by
  rw [ofData?, data, fields?_record dialect (by simp [List.countP_cons])]
  simp only [List.lookup_cons, BEq.rfl, String.reduceBEq, orDefault_some, word64?_toNat]
  rfl

theorem Settings.ignoredStart?_data (start : String) :
    ignoredStart? dialect (.record [("ignore_prefix", .text start)]) = some start := by
  rw [ignoredStart?, fields?_record dialect (by simp [List.countP_cons])]
  simp only [List.lookup_cons, BEq.rfl, orDefault_some, Data.text?]

variable {tree : Float → Data} (present : ∀ value, tree value ≠ .null)

include present

theorem optional?_tree (value : Float) :
    Data.optional? Data.double? (tree value) = (Data.double? (tree value)).map some := by
  have some := present value
  rcases form : tree value <;> first | rfl | exact absurd form some

/-- A profile is unchanged when its doubles are. -/
theorem HeaterProfile.overlay?_tree (base profile : HeaterProfile Float) :
    overlay? dialect base (profile.tree tree) = some profile ↔
      ∀ value ∈ profile.doubles, Data.double? (tree value) = some value := by
  obtain ⟨heatRate, coolRate, noise⟩ := profile
  rw [overlay?, HeaterProfile.tree, fields?_record dialect (by simp [fieldNames, List.countP_cons])]
  simp only [List.lookup_cons, BEq.rfl, String.reduceBEq, orDefault_some, optional?_tree present,
    Option.bind_eq_bind, Option.bind_eq_some_iff, Option.map_eq_some_iff, doubles,
    List.forall_mem_cons]
  constructor
  · rintro ⟨_, ⟨heat, heatRead, rfl⟩, _, ⟨cool, coolRead, rfl⟩, _, ⟨spread, noiseRead, rfl⟩, same⟩
    obtain ⟨rfl, rfl, rfl⟩ := HeaterProfile.mk.inj (Option.some_inj.1 same)
    exact ⟨heatRead, coolRead, noiseRead, nofun⟩
  · rintro ⟨heatRead, coolRead, noiseRead, -⟩
    exact ⟨_, ⟨_, heatRead, rfl⟩, _, ⟨_, coolRead, rfl⟩, _, ⟨_, noiseRead, rfl⟩, rfl⟩

omit present in
/-- The seed is read back, whether it was written or not. -/
theorem ThermalSettings.seed_tree (tree : Float → Data) (settings : ThermalSettings) :
    Data.orDefault (Data.optional? Data.word64?) standard.seed
      ((("room_temperature", tree settings.room) :: (seedField settings.seed ++
        [("hotend", settings.hotend.tree tree), ("bed", settings.bed.tree tree)])).lookup "seed") =
          some settings.seed := by
  rcases settings.seed with _ | seed
  · simp only [seedField, List.nil_append, List.lookup_cons, String.reduceBEq, List.lookup_nil]
    rfl
  · simp only [seedField, List.cons_append, List.lookup_cons, String.reduceBEq, BEq.rfl,
      orDefault_some, Data.optional?, word64?_toNat, Option.map_some]

theorem ThermalSettings.ofData?_tree (settings : ThermalSettings) :
    ofData? dialect (settings.tree tree) = some settings ↔
      Data.double? (tree settings.room) = some settings.room ∧
        (∀ value ∈ settings.hotend.doubles, Data.double? (tree value) = some value) ∧
          ∀ value ∈ settings.bed.doubles, Data.double? (tree value) = some value := by
  rw [← HeaterProfile.overlay?_tree dialect present standard.hotend,
    ← HeaterProfile.overlay?_tree dialect present standard.bed]
  have seed := seed_tree tree settings
  have noSeed (name : String) (other : (name == "seed") = false) :
      (seedField settings.seed).lookup name = none := by
    cases settings.seed with
    | none => rfl
    | some seed => rw [seedField, List.lookup_cons, other, List.lookup_nil]
  rw [ofData?, ThermalSettings.tree, List.cons_append, fields?_record dialect (by
    cases settings.seed <;> simp [seedField, List.countP_cons])]
  simp only [seed]
  simp only [List.lookup_cons, List.lookup_append, BEq.rfl, String.reduceBEq, orDefault_some,
    noSeed, Option.none_or, Option.bind_eq_bind, Option.bind_eq_some_iff]
  constructor
  · rintro ⟨room, roomRead, _, -, hotend, hotendRead, bed, bedRead, same⟩
    obtain rfl := Option.some_inj.1 same
    exact ⟨roomRead, hotendRead, bedRead⟩
  · rintro ⟨roomRead, hotendRead, bedRead⟩
    exact ⟨_, roomRead, _, rfl, _, hotendRead, _, bedRead, rfl⟩

/-- Settings are read back from their tree exactly when every double is. -/
theorem Settings.ofData?_tree (settings : Settings) :
    ofData? dialect (settings.tree tree) = some settings ↔
      ∀ value ∈ settings.doubles, Data.double? (tree value) = some value := by
  rw [doubles, List.cons_append, List.forall_mem_cons, List.forall_mem_append,
    ← ThermalSettings.ofData?_tree dialect present, ofData?, Settings.tree,
    fields?_record dialect (by simp [List.countP_cons])]
  simp only [List.lookup_cons, BEq.rfl, String.reduceBEq, orDefault_some,
    ConnectionSettings.ofData?_data, TimingSettings.ofData?_data, ignoredStart?_data,
    Option.bind_eq_bind, Option.bind_eq_some_iff]
  constructor
  · rintro ⟨_, -, _, -, thermal, thermalRead, _, -, same⟩
    obtain rfl := Option.some_inj.1 same
    exact thermalRead
  · exact fun thermalRead => ⟨_, rfl, _, rfl, _, thermalRead, _, rfl, rfl⟩

end

end BenchPrinter
