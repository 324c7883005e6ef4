import BenchPrinter.Proofs.Preparation
import BenchPrinter.Proofs.Undefined

/-!
What a board accepts. It asks of the timing and of both heaters what the check of the settings asks
of them, and it asks nothing of the room. So settings that start a session can be refused by the
check for their link and for the temperature of the room, and for nothing else.
-/

namespace BenchPrinter

/-- Also of doubles that are no numbers, one is at most another when it is less or the same. -/
theorem Double.not_le_iff {first second : Float} :
    ¬ first ≤ second ↔ ¬ first < second ∧ (first == second) = false := by
  constructor
  · intro above
    constructor
    · intro less
      exact above (le_iff_compare.2 ⟨.lt, lt_iff_compare.1 less, rfl⟩)
    · rw [Bool.eq_false_iff]
      intro same
      exact above (le_iff_compare.2 ⟨.eq, beq_iff_compare.1 same, rfl⟩)
  · rintro ⟨notLess, differs⟩
    exact not_le_of_not_lt notLess differs

theorem ThermalSettings.checkRate_ok {id : HeaterId} {name : String} {rate : Float} :
    checkConstant id name false rate = .ok () ↔
      Quantity.isFinite rate = true ∧ ¬ rate ≤ 0.0 := by
  rw [checkConstant_ok, Double.not_le_iff]
  simp

theorem ThermalSettings.checkNoise_ok {id : HeaterId} {name : String} {noise : Float} :
    checkConstant id name true noise = .ok () ↔
      Quantity.isFinite noise = true ∧ ¬ noise < 0.0 := by
  rw [checkConstant_ok]
  simp

/-- A heater is accepted when its rates are positive and its noise is not negative. -/
theorem BoardSettings.checkProfile_ok {id : HeaterId} {profile : HeaterProfile Float} :
    checkProfile id profile = .ok () ↔
      (Quantity.isFinite profile.heatRate = true ∧ ¬ profile.heatRate ≤ 0.0) ∧
      (Quantity.isFinite profile.coolRate = true ∧ ¬ profile.coolRate ≤ 0.0) ∧
        Quantity.isFinite profile.noise = true ∧ ¬ profile.noise < 0.0 := by
  rw [checkProfile]
  constructor
  · intro accepted
    split at accepted
    · contradiction
    split at accepted
    · contradiction
    simp_all
  · rintro ⟨⟨heatFinite, heats⟩, ⟨coolFinite, cools⟩, noiseFinite, quiet⟩
    simp [heatFinite, heats, coolFinite, cools, noiseFinite, quiet]

/-- A board looks at its interval and at both heaters, and at nothing else. -/
theorem BoardSettings.check_ok {settings : BoardSettings Float} :
    settings.check = .ok () ↔
      settings.busyInterval ≠ 0 ∧ checkProfile .hotend settings.hotend = .ok () ∧
        checkProfile .bed settings.bed = .ok () := by
  rw [check]
  split
  · rename_i stopped
    exact iff_of_false (by simp [refused]) fun accepted => accepted.1 stopped
  · rename_i running
    cases checkProfile .hotend settings.hotend <;> simp [running]

/-- Both checks of a heater pass together. -/
theorem HeaterProfile.accepted_iff_checked {id : HeaterId} {profile : HeaterProfile Float} :
    BoardSettings.checkProfile id profile = .ok () ↔
      ThermalSettings.checkProfile id profile = .ok () := by
  rw [BoardSettings.checkProfile_ok, ThermalSettings.checkProfile, checks_ok, checks_ok,
    ThermalSettings.checkRate_ok, ThermalSettings.checkRate_ok, ThermalSettings.checkNoise_ok]

namespace Settings

/-- A board accepts settings whose timing and heaters pass the check. -/
theorem accepted_iff {settings : Settings} :
    settings.board.check = .ok () ↔
      settings.timing.check = .ok () ∧
      ThermalSettings.checkProfile .hotend settings.thermal.hotend = .ok () ∧
      ThermalSettings.checkProfile .bed settings.thermal.bed = .ok () := by
  have timing : settings.timing.check = .ok () ↔ settings.board.busyInterval ≠ 0 := by
    rw [TimingSettings.check]
    split <;> simp_all [board]
  rw [BoardSettings.check_ok, timing, ← HeaterProfile.accepted_iff_checked,
    ← HeaterProfile.accepted_iff_checked]
  rfl

theorem starts_iff {σ : Type} {settings : Settings} {unseeded : Noise Float} {clock : Clock}
    {link : σ} :
    (∃ session, settings.startSession unseeded clock link = .ok session) ↔
      settings.board.check = .ok () := by
  rw [startSession]
  rcases settings.board.check with failure | ⟨⟩ <;> simp

/-- The settings with the standard link. -/
def withStandardLink (settings : Settings) : Settings :=
  { settings with connection := .standard }

/-- Where the timing and the heaters pass, the room decides. -/
theorem check_of_accepted {settings : Settings} (accepted : settings.board.check = .ok ()) :
    settings.withStandardLink.check = ThermalSettings.checkRoom settings.thermal.room := by
  obtain ⟨timing, hotend, bed⟩ := accepted_iff.1 accepted
  have split : settings.withStandardLink.check =
      (do settings.timing.check
          ThermalSettings.checkProfile .hotend settings.thermal.hotend
          ThermalSettings.checkProfile .bed settings.thermal.bed
          ThermalSettings.checkRoom settings.thermal.room) := rfl
  rw [split, timing, hotend, bed]
  rfl

theorem checkRoom_ok {room : Float} :
    ThermalSettings.checkRoom room = .ok () ↔ Quantity.isFinite room = true := by
  rw [ThermalSettings.checkRoom]
  split <;> simp_all

/-- When a session starts, the check finds no fault with the timing or with the heaters, and it
passes but for the temperature of the room. So, with the standard link, the check passes exactly for
the settings that start a session in a room with a finite temperature. -/
theorem started_settings_pass_but_for_room {σ : Type} (settings : Settings)
    (unseeded : Noise Float) (clock : Clock) (link : σ) :
    ((∃ session, settings.startSession unseeded clock link = .ok session) →
      settings.withStandardLink.check = ThermalSettings.checkRoom settings.thermal.room) ∧
    (settings.withStandardLink.check = .ok () ↔
      (∃ session, settings.startSession unseeded clock link = .ok session) ∧
        Quantity.isFinite settings.thermal.room = true) := by
  rw [starts_iff]
  refine ⟨check_of_accepted, ?_⟩
  constructor
  · intro checked
    have accepted : settings.withStandardLink.board.check = .ok () := board_accepts checked
    change settings.board.check = .ok () at accepted
    rw [check_of_accepted accepted, checkRoom_ok] at checked
    exact ⟨accepted, checked⟩
  · rintro ⟨accepted, finite⟩
    rw [check_of_accepted accepted, checkRoom_ok]
    exact finite

/-- The settings with a room whose temperature is not a number. -/
def roomless : Settings :=
  { standard with thermal := { ThermalSettings.standard with room := 0.0 / 0.0 } }

/-- A session starts in a room without a temperature, which the check refuses. Its board never
answers a blocking heat to sixty degrees. -/
theorem undefined_room_starts :
    roomless.withStandardLink.check =
        .error (.invalid "thermal.room_temperature" "must be a finite number") ∧
      ∀ (unseeded : Noise Float) (clock : Clock) (link : Unit),
        ∃ session, roomless.startSession unseeded clock link = .ok session ∧
          ¬ ∃ attempt, Board.Completes Host.idle "M109 S60" session.board () attempt := by
  have refused : roomless.withStandardLink.check =
      .error (.invalid "thermal.room_temperature" "must be a finite number") := by decide +kernel
  have accepted : roomless.board.check = .ok () := by decide +kernel
  refine ⟨refused, fun unseeded clock link => ?_⟩
  have heats : Board.HeatsTo "M109 S60" .hotend (Quantity.ofNumeral ⟨false, 60, 0⟩ : Float) :=
    .of_numeral (by decide +kernel) (by decide +kernel) (show Numeral.read? ['6', '0'] = _ by rfl)
  have undefined : Double.Undefined roomless.board.room := by
    have bits : roomless.board.room.toModel.toBits = 0x7ff8000000000000 := by decide +kernel
    rw [Double.Undefined, Double.unpacked, Float.Model.unpack, bits]
    rfl
  let board : Board Float := .powerUp roomless.board (roomless.noise unseeded) clock
  refine ⟨.start board link, ?_, ?_⟩
  · rw [startSession, accepted]
  · change ¬ ∃ attempt, Board.Completes Host.idle "M109 S60" board () attempt
    have room : board.room = roomless.board.room := rfl
    rw [← room] at undefined
    have cold : (board.heater .hotend).value = 0.0 := rfl
    have fresh : ((board.heater .hotend).value == 0.0) = true := by
      rw [cold]
      decide +kernel
    have set : (Quantity.ofNumeral ⟨false, 60, 0⟩ == (0.0 : Float)) = false := by decide +kernel
    rw [heats.answered_in_undefined_room Host.idle_willing trivial undefined (.inl fresh),
      Board.isSettled_iff_within, board.aim_effectiveTarget .hotend set, Board.aim_heater, cold]
    exact fun within => absurd within.1 (by decide +kernel)

end Settings

end BenchPrinter
