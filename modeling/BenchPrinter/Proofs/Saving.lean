import BenchPrinter.Proofs.Document.Json.Tree
import BenchPrinter.Proofs.Document.Toml.Tables
import BenchPrinter.Proofs.Document.Tree
import BenchPrinter.Proofs.Encoding
import BenchPrinter.Proofs.Preparation

/-!
Saving settings. What was saved is read back; only JSON may move a double, because its reader does
not look for the nearest one.
-/

namespace BenchPrinter

namespace Files

variable {files after : Files} {path : String} {content : List UInt8}

/-- A new file changes no folder, so every path still leads where it led. -/
theorem follow_put (written : Place) {place found : Place} {parts : List String}
    (followed : files.follow place parts = .ok found) :
    (files.put written content).follow place parts = .ok found := by
  induction parts generalizing place with
  | nil => exact followed
  | cons part parts inductionHypothesis =>
      rw [follow] at followed ⊢
      have folders : (files.put written content).isFolder place = files.isFolder place := rfl
      rw [folders]
      split at followed
      · rename_i folder
        rw [if_pos folder]
        split at followed
        · rename_i stays
          rw [if_pos stays]
          exact inductionHypothesis followed
        · rename_i moves
          rw [if_neg moves]
          split at followed
          · rename_i up
            rw [if_pos up]
            exact inductionHypothesis followed
          · rename_i down
            rw [if_neg down]
            split at followed
            · contradiction
            · rename_i short
              rw [if_neg short]
              exact inductionHypothesis followed
      · contradiction

theorem locate_put (written : Place) {found : Place} (located : files.locate path = .ok found) :
    (files.put written content).locate path = .ok found := by
  unfold locate followFrom at located ⊢
  split at located
  · contradiction
  · exact follow_put written located

/-- A file is written where its path leads, unless a folder is there. -/
theorem put_of_write (written : files.write path content = .ok after) :
    ∃ place, files.locate path = .ok place ∧ ¬ files.isFolder place = true ∧
      files.put place content = after := by
  unfold write at written
  split at written
  · split at written <;> contradiction
  · split at written
    · contradiction
    · rename_i place located
      split at written
      · contradiction
      · rename_i noFolder
        exact ⟨place, located, noFolder, Except.ok.inj written⟩

/-- What was written to a file is what is read from it. -/
theorem read_of_write (written : files.write path content = .ok after) :
    after.read path = .ok content := by
  obtain ⟨place, located, noFolder, rfl⟩ := put_of_write written
  have folders : (files.put place content).isFolder place = files.isFolder place := rfl
  have there : (files.put place content).content? place = some content := List.lookup_cons_self
  rw [read, locate_put place located]
  dsimp only
  rw [folders, if_neg noFolder, there]

end Files

namespace Settings

variable {files after : Files} {path : String} {settings : Settings}

theorem isFinite_of_quantity {value : Float} (finite : Quantity.isFinite value = true) :
    Double.IsFinite value := by
  rw [← Double.pattern_finite]
  by_contra infinite
  have same : Quantity.exact value = (DoublePattern.ofFloat value).exact := rfl
  rw [Quantity.isFinite, same, DoublePattern.exact, if_neg infinite] at finite
  split at finite
  · rename_i form
    split at form <;> contradiction
  · exact absurd finite (by decide)

theorem profile_finite {id : HeaterId} {profile : HeaterProfile Float}
    (checked : ThermalSettings.checkProfile id profile = .ok ()) :
    ∀ value ∈ profile.doubles, Double.IsFinite value := by
  obtain ⟨heat, cool, noise⟩ :
      ThermalSettings.checkConstant id "heat_rate" false profile.heatRate = .ok () ∧
      ThermalSettings.checkConstant id "cool_rate" false profile.coolRate = .ok () ∧
      ThermalSettings.checkConstant id "noise" true profile.noise = .ok () := by
    simpa only [ThermalSettings.checkProfile, checks_ok] using checked
  simp only [HeaterProfile.doubles, List.forall_mem_cons]
  exact ⟨isFinite_of_quantity (ThermalSettings.checkConstant_ok.1 heat).1,
    isFinite_of_quantity (ThermalSettings.checkConstant_ok.1 cool).1,
    isFinite_of_quantity (ThermalSettings.checkConstant_ok.1 noise).1, List.forall_mem_nil _⟩

/-- Settings that pass the check have no doubles but numbers. -/
theorem doubles_finite (checked : settings.check = .ok ()) :
    ∀ value ∈ settings.doubles, Double.IsFinite value := by
  obtain ⟨-, -, hotend, bed, room⟩ : settings.connection.check = .ok () ∧
      settings.timing.check = .ok () ∧
      ThermalSettings.checkProfile .hotend settings.thermal.hotend = .ok () ∧
      ThermalSettings.checkProfile .bed settings.thermal.bed = .ok () ∧
      ThermalSettings.checkRoom settings.thermal.room = .ok () := by
    simpa only [Settings.check, ThermalSettings.check, checks_ok] using checked
  have roomFinite : Quantity.isFinite settings.thermal.room = true := by
    by_contra infinite
    rw [ThermalSettings.checkRoom, if_neg infinite] at room
    contradiction
  rw [doubles, List.cons_append, List.forall_mem_cons, List.forall_mem_append]
  exact ⟨isFinite_of_quantity roomFinite, profile_finite hotend, profile_finite bed⟩

/-! The tree of settings can be written in either format. -/

theorem fitsInteger_word (word : UInt64) : Json.FitsInteger word.toNat :=
  ⟨by omega, by exact_mod_cast word.toNat_lt_size⟩

theorem json_fits (settings : Settings) : Json.Fits settings.data := by
  have small : UInt32.size ≤ UInt64.size := by decide
  have baudRate : Json.FitsInteger settings.connection.baudRate.toNat :=
    ⟨by omega, by exact_mod_cast settings.connection.baudRate.toNat_lt_size.trans_le small⟩
  rcases kind : settings.connection.kind <;> rcases seed : settings.thermal.seed <;>
    simp [data, ConnectionSettings.data, LinkKind.data, TimingSettings.data, ThermalSettings.data,
      ThermalSettings.seedField, HeaterProfile.data, Json.Fits, Json.FitsFields, fitsInteger_word,
      baudRate, kind, seed]

theorem echoed_data (finite : ∀ value ∈ settings.doubles, Double.IsFinite value) :
    Json.echoed settings.data = settings.tree Json.echo := by
  simp only [doubles, HeaterProfile.doubles, List.cons_append, List.nil_append,
    List.forall_mem_cons] at finite
  rcases kind : settings.connection.kind <;> rcases seed : settings.thermal.seed <;>
    simp [data, ConnectionSettings.data, LinkKind.data, TimingSettings.data, ThermalSettings.data,
      ThermalSettings.seedField, HeaterProfile.data, Json.echoed, Json.echoedFields, Settings.tree,
      ThermalSettings.tree, HeaterProfile.tree, finite, kind, seed]

theorem toml_writable (finite : ∀ value ∈ settings.doubles, Double.IsFinite value) :
    Toml.IsWritable settings.data := by
  simp only [doubles, HeaterProfile.doubles, List.cons_append, List.nil_append,
    List.forall_mem_cons] at finite
  rcases kind : settings.connection.kind <;> rcases seed : settings.thermal.seed <;>
    simp only [data, ConnectionSettings.data, LinkKind.data, TimingSettings.data,
      ThermalSettings.data, ThermalSettings.seedField, HeaterProfile.data, Toml.IsWritable,
      Toml.AreWritable, List.cons_append, List.nil_append, finite, kind, seed, true_and,
      and_true] <;>
    decide +kernel

theorem toml_distinct (settings : Settings) : Toml.IsDistinct settings.data := by
  rcases kind : settings.connection.kind <;> rcases seed : settings.thermal.seed <;>
    simp [data, ConnectionSettings.data, LinkKind.data, TimingSettings.data, ThermalSettings.data,
      ThermalSettings.seedField, HeaterProfile.data, Toml.IsDistinct, Toml.AreDistinct, kind, seed]

theorem toml_shallow (settings : Settings) : Toml.depthOf settings.data ≤ Toml.depthLimit := by
  have depth : Toml.depthOf settings.data = 3 := by
    simp only [data, ConnectionSettings.data, ThermalSettings.data, ThermalSettings.seedField]
    rcases settings.connection.kind <;> rcases settings.thermal.seed <;> rfl
  rw [depth]
  decide

/-- The values of each section stand in front of its tables already. -/
theorem toml_order {fields : List (String × Data)} (form : settings.data = .record fields) :
    Toml.Entries.data (Toml.valueNodes fields ++ Toml.tableNodes fields) = settings.data := by
  obtain rfl := (Data.record.inj form).symm
  simp only [data, ConnectionSettings.data, ThermalSettings.data, ThermalSettings.seedField]
  rcases settings.connection.kind <;> rcases settings.thermal.seed <;> rfl

/-! What was written as text is read from it. -/

theorem echo_ne_null (value : Float) : Json.echo value ≠ .null := by
  rw [Json.echo]
  cases Json.reread? value <;> simp

theorem double?_echo (value : Float) : Data.double? (Json.echo value) = Json.reread? value := by
  rw [Json.echo]
  cases Json.reread? value <;> rfl

theorem ofText_json (checked : settings.check = .ok ()) :
    ofText .json (Json.write .pretty settings.data) = .ok settings ↔
      ∀ value ∈ settings.doubles, Json.reread? value = some value := by
  have read : (Json.read? (Json.write .pretty settings.data)).bind (ofData? Json.dialect) =
      ofData? Json.dialect (settings.tree Json.echo) := by
    rw [Json.read?_write Json.isLoose_pretty (json_fits settings),
      echoed_data (doubles_finite checked), Option.bind_some]
  have tree := ofData?_tree Json.dialect echo_ne_null settings
  simp only [double?_echo] at tree
  rw [← tree, ofText, read]
  cases ofData? Json.dialect (settings.tree Json.echo) <;> simp

theorem ofText_toml {text : String} (checked : settings.check = .ok ())
    (written : Toml.write? settings.data = some text) : ofText .toml text = .ok settings := by
  obtain ⟨fields, form⟩ : ∃ fields, settings.data = .record fields := ⟨_, rfl⟩
  have writable := toml_writable (doubles_finite checked)
  have distinct := toml_distinct settings
  have shallow := toml_shallow settings
  have order := toml_order form
  rw [form] at written writable distinct shallow order
  rw [Toml.IsWritable] at writable
  rw [Toml.IsDistinct] at distinct
  rw [Toml.depthOf] at shallow
  have numbers (value : Float) : Data.decimal value ≠ .null := by simp
  have tree : ofData? Toml.dialect (settings.tree .decimal) = some settings :=
    (ofData?_tree Toml.dialect numbers settings).2 fun _ _ => rfl
  rw [ofText, Toml.read?_write written writable (by omega) distinct, order, Option.bind_some, ← form,
    data_eq_tree, tree]

/-- The text that is saved. What can go wrong before a file is written goes wrong here. -/
def savedText (path : String) (settings : Settings) : Except SettingsFailure String := do
  settings.check
  let format ← FileFormat.ofPath path
  settings.toText format

theorem savedText_ok {text : String} : savedText path settings = .ok text ↔
    settings.check = .ok () ∧
      ∃ format, FileFormat.ofPath path = .ok format ∧ settings.toText format = .ok text := by
  unfold savedText
  rcases settings.check with failure | ⟨⟩
  · simp [bind, Except.bind]
  rcases FileFormat.ofPath path with failure | format <;> simp [bind, Except.bind]

theorem save_eq (files : Files) (path : String) (settings : Settings) :
    save files path settings = match savedText path settings with
      | .error failure => .error failure
      | .ok text =>
          match files.write path (Utf8.encode text) with
          | .error fault => .error (.notSaved path fault.message)
          | .ok after => .ok after := by
  unfold save savedText
  rcases settings.check with failure | ⟨⟩
  · rfl
  rcases FileFormat.ofPath path with failure | format
  · rfl
  simp only [bind, Except.bind]
  rcases settings.toText format with failure | text
  · rfl
  dsimp only
  rcases files.write path (Utf8.encode text) with fault | written <;> rfl

theorem save_ok : save files path settings = .ok after ↔ ∃ text,
    savedText path settings = .ok text ∧ files.write path (Utf8.encode text) = .ok after := by
  rw [save_eq]
  rcases savedText path settings with failure | text
  · simp
  rcases put : files.write path (Utf8.encode text) with fault | written <;> simp [put]

/-- Loading what was saved is reading what was written. -/
theorem load_saved (saved : save files path settings = .ok after) : settings.check = .ok () ∧
    ∃ format text, FileFormat.ofPath path = .ok format ∧ settings.toText format = .ok text ∧
      (load after path = .ok settings ↔ ofText format text = .ok settings) := by
  obtain ⟨text, prepared, put⟩ := save_ok.1 saved
  obtain ⟨checked, format, named, written⟩ := savedText_ok.1 prepared
  have read : after.readText path = .ok text :=
    Files.readText_ok.2 ⟨Utf8.encode text, text.toList, Files.read_of_write put,
      by rw [Utf8.encode_eq, Utf8.decode?_encodeChars], String.ofList_toList⟩
  refine ⟨checked, format, text, named, written, ?_⟩
  simp only [load, named, read, bind, Except.bind]
  constructor
  · intro loaded
    split at loaded
    · contradiction
    · rename_i found reads
      split at loaded
      · contradiction
      · rw [reads]
        exact loaded
  · intro reads
    simp [reads, checked, pure, Except.pure]

theorem load_saved_toml (saved : save files path settings = .ok after)
    (named : FileFormat.ofPath path = .ok .toml) : load after path = .ok settings := by
  obtain ⟨checked, format, text, found, written, reload⟩ := load_saved saved
  obtain rfl := Except.ok.inj (named.symm.trans found)
  rw [reload]
  refine ofText_toml checked ?_
  rw [toText] at written
  split at written
  · rename_i form
    rw [form, Except.ok.inj written]
  · contradiction

theorem load_saved_json (saved : save files path settings = .ok after)
    (named : FileFormat.ofPath path = .ok .json) :
    load after path = .ok settings ↔ ∀ value ∈ settings.doubles, Json.reread? value = some value := by
  obtain ⟨checked, format, text, found, written, reload⟩ := load_saved saved
  obtain rfl := Except.ok.inj (named.symm.trans found)
  obtain rfl := Except.ok.inj written
  rw [reload, ofText_json checked]

/-- JSON keeps settings whose doubles have few digits. -/
theorem load_saved_short (saved : save files path settings = .ok after)
    (named : FileFormat.ofPath path = .ok .json)
    (short : ∀ value ∈ settings.doubles, (Json.doubleStyle.spelling value).digits < 2 ^ 53 ∧
      |(Json.doubleStyle.spelling value).exponent| ≤ 22) :
    load after path = .ok settings := by
  have finite := doubles_finite (load_saved saved).1
  refine (load_saved_json saved named).2 fun value member => ?_
  exact Json.reread?_of_short (finite value member) (short value member).1 (short value member).2

/-- A save that fails before it writes does not look at the files. -/
theorem save_error {failure : SettingsFailure} (failed : save files path settings = .error failure)
    (early : ∀ reason, failure ≠ .notSaved path reason) (others : Files) :
    save others path settings = .error failure := by
  rw [save_eq] at failed ⊢
  rcases prepared : savedText path settings with refused | text
  · rw [prepared] at failed
    exact failed
  rw [prepared] at failed
  dsimp only at failed
  split at failed
  · exact absurd (Except.error.inj failed).symm (early _)
  · contradiction

theorem exists_of_saves (saves : (save files path settings).isOk = true) :
    ∃ after, save files path settings = .ok after := by
  rcases saved : save files path settings with failure | after
  · rw [saved] at saves
    contradiction
  · exact ⟨after, rfl⟩

/-- Saved settings reload unchanged from TOML. From JSON they do exactly when its reader gives back
each of their doubles. What keeps settings from being saved does so before any file is written. -/
theorem saved_settings_reload (files : Files) (path : String) (settings : Settings) :
    (∀ after, save files path settings = .ok after →
      (FileFormat.ofPath path = .ok .toml → load after path = .ok settings) ∧
      (FileFormat.ofPath path = .ok .json → (load after path = .ok settings ↔
        ∀ value ∈ settings.doubles, Json.reread? value = some value))) ∧
    (∀ failure, save files path settings = .error failure →
      (∀ reason, failure ≠ .notSaved path reason) →
        ∀ others, save others path settings = .error failure) :=
  ⟨fun _ saved => ⟨load_saved_toml saved, load_saved_json saved⟩,
    fun _ failed early others => save_error failed early others⟩

/-- Settings with a quote and a line break in a text, and with a seed. -/
theorem quoted_settings_reload :
    let settings : Settings :=
      { standard with
        thermal := { ThermalSettings.standard with seed := some 7 }
        ignoredStart := "\"\n" }
    (∃ after, save ⟨[], [], []⟩ "c.toml" settings = .ok after ∧
      load after "c.toml" = .ok settings) ∧
    (∃ after, save ⟨[], [], []⟩ "c.json" settings = .ok after ∧
      load after "c.json" = .ok settings) ∧
    ∀ files, save files "c.txt" settings = .error (.unsupportedFormat "txt") := by
  intro settings
  obtain ⟨toml, savedToml⟩ : ∃ after, save ⟨[], [], []⟩ "c.toml" settings = .ok after :=
    exists_of_saves (by decide +kernel)
  obtain ⟨json, savedJson⟩ : ∃ after, save ⟨[], [], []⟩ "c.json" settings = .ok after :=
    exists_of_saves (by decide +kernel)
  refine ⟨⟨toml, savedToml, ?_⟩, ⟨json, savedJson, ?_⟩, ?_⟩
  · exact ((saved_settings_reload _ _ settings).1 toml savedToml).1 (by decide +kernel)
  · exact (((saved_settings_reload _ _ settings).1 json savedJson).2 (by decide +kernel)).2
      (by decide +kernel)
  · exact (saved_settings_reload ⟨[], [], []⟩ _ settings).2 _ (by decide +kernel) (by simp)

/-- A room of 55 degrees Fahrenheit is moved: the JSON reader scales its digits by one division,
which misses the nearest double. -/
theorem fahrenheit_room_moves :
    let settings : Settings :=
      { standard with thermal := { ThermalSettings.standard with room := 12.777777777777779 } }
    ∃ after, save ⟨[], [], []⟩ "c.json" settings = .ok after ∧
      load after "c.json" ≠ .ok settings := by
  intro settings
  obtain ⟨after, saved⟩ : ∃ after, save ⟨[], [], []⟩ "c.json" settings = .ok after :=
    exists_of_saves (by decide +kernel)
  refine ⟨after, saved, fun reloaded => ?_⟩
  have given := (load_saved_json saved (by decide +kernel)).1 reloaded settings.thermal.room
    List.mem_cons_self
  exact absurd given (by decide +kernel)

end Settings

end BenchPrinter
