import BenchPrinter.Proofs.Double.Order
import BenchPrinter.Settings.File

/-!
Preparing settings for a run. They come from a file or are the standard ones, some of them are
replaced from the command line, and a board takes whatever passes the check.
-/

namespace BenchPrinter

section Checks

/-- Two checks in a row pass when each of them does. -/
theorem checks_ok {ε : Type} {first second : Except ε Unit} :
    (first >>= fun _ => second) = .ok () ↔ first = .ok () ∧ second = .ok () := by
  cases first <;> simp [bind, Except.bind]

theorem ThermalSettings.checkConstant_ok {id : HeaterId} {name : String} {allowsZero : Bool}
    {value : Float} :
    checkConstant id name allowsZero value = .ok () ↔
      Quantity.isFinite value = true ∧ ¬ value < 0.0 ∧
        (allowsZero = false → (value == 0.0) = false) := by
  unfold checkConstant
  cases Quantity.isFinite value <;> cases value == 0.0 <;> cases allowsZero <;> simp

/-- What a file may say about a heater is never what a board refuses. -/
theorem HeaterProfile.accepted_of_checked {id : HeaterId} {profile : HeaterProfile Float}
    (checked : ThermalSettings.checkProfile id profile = .ok ()) :
    BoardSettings.checkProfile id profile = .ok () := by
  obtain ⟨heatChecked, coolChecked, noiseChecked⟩ :
      ThermalSettings.checkConstant id "heat_rate" false profile.heatRate = .ok () ∧
      ThermalSettings.checkConstant id "cool_rate" false profile.coolRate = .ok () ∧
      ThermalSettings.checkConstant id "noise" true profile.noise = .ok () := by
    simpa only [ThermalSettings.checkProfile, checks_ok] using checked
  obtain ⟨heatFinite, heatSign, heatNonzero⟩ := ThermalSettings.checkConstant_ok.1 heatChecked
  obtain ⟨coolFinite, coolSign, coolNonzero⟩ := ThermalSettings.checkConstant_ok.1 coolChecked
  obtain ⟨noiseFinite, noiseSign, -⟩ := ThermalSettings.checkConstant_ok.1 noiseChecked
  have heats : ¬ profile.heatRate ≤ 0.0 := Double.not_le_of_not_lt heatSign (heatNonzero rfl)
  have cools : ¬ profile.coolRate ≤ 0.0 := Double.not_le_of_not_lt coolSign (coolNonzero rfl)
  have rates : ([profile.heatRate, profile.coolRate].any fun rate =>
      !Quantity.isFinite rate || decide (rate ≤ 0.0)) = false := by
    simp only [List.any_cons, List.any_nil, heatFinite, coolFinite, decide_eq_false heats,
      decide_eq_false cools, Bool.not_true, Bool.or_self]
  have quiet : (!Quantity.isFinite profile.noise || decide (profile.noise < 0.0)) = false := by
    simp only [noiseFinite, decide_eq_false noiseSign, Bool.not_true, Bool.or_self]
  rw [BoardSettings.checkProfile, if_neg (by simp only [rates, Bool.false_eq_true, not_false_eq_true]),
    if_neg (by simp only [quiet, Bool.false_eq_true, not_false_eq_true])]

/-- The two sets of rules agree: a board takes all settings that pass the check. -/
theorem Settings.board_accepts {settings : Settings} (checked : settings.check = .ok ()) :
    settings.board.check = .ok () := by
  obtain ⟨-, timed, hotend, bed, -⟩ : settings.connection.check = .ok () ∧
      settings.timing.check = .ok () ∧
      ThermalSettings.checkProfile .hotend settings.thermal.hotend = .ok () ∧
      ThermalSettings.checkProfile .bed settings.thermal.bed = .ok () ∧
      ThermalSettings.checkRoom settings.thermal.room = .ok () := by
    simpa only [Settings.check, ThermalSettings.check, checks_ok] using checked
  have interval : settings.board.busyInterval ≠ 0 := by
    intro zero
    have refused : settings.timing.check = .error _ := if_pos zero
    rw [refused] at timed
    contradiction
  rw [BoardSettings.check, if_neg interval,
    show BoardSettings.checkProfile .hotend settings.board.hotend = .ok () from
      HeaterProfile.accepted_of_checked hotend]
  exact HeaterProfile.accepted_of_checked bed

end Checks

/-- The ending of the files in a format. -/
def FileFormat.extension : FileFormat → String
  | json => "json"
  | toml => "toml"

theorem Files.readText_ok {files : Files} {path text : String} :
    files.readText path = .ok text ↔ ∃ bytes characters, files.read path = .ok bytes ∧
      Utf8.decode? bytes = some characters ∧ String.ofList characters = text := by
  unfold readText
  rcases files.read path with fault | bytes
  · simp
  · rcases decoded : Utf8.decode? bytes with _ | characters <;> simp [decoded]

namespace Settings

section Sources

variable {files : Files} {environment : Environment} {path : String} {settings : Settings}

end Sources

section Replacement

/-- A value that is given takes the place of the old one; without it the old one stays. -/
structure Takes {β : Type} (given : Option β) (old new : β) : Prop where
  replaced : ∀ value, given = some value → new = value
  kept : given = none → new = old

variable {overrides : Overrides} {old new : Settings}

end Replacement

end Settings

end BenchPrinter
