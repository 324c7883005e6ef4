import BenchPrinter.Proofs.Returning
import BenchPrinter.Proofs.Travel

/-!
What a line can change. Each part of the printer changes only at a line whose command is there to
change it, and a line that fails leaves no half of a change behind.
-/

namespace BenchPrinter

attribute [ext] Position Heater Heaters Printer

theorem Position.ext_get {α : Type} {first second : Position α}
    (same : ∀ axis, first.get axis = second.get axis) : first = second :=
  Position.ext (same .x) (same .y) (same .z)

namespace Step

variable {α : Type} [Quantity α]

omit [Quantity α] in
theorem ne_updateHeaters_of_busy {interval : UInt64} {count : Nat} {step : Step α}
    (member : step ∈ busy interval count) : step ≠ updateHeaters := by
  rcases mem_busy member with rfl | rfl | rfl <;> exact nofun

omit [Quantity α] in
theorem ne_updateHeaters_of_probing {interval : UInt64} {step : Step α}
    (member : step ∈ probing interval) : step ≠ updateHeaters := by
  rcases mem_probing member with talk | ⟨text, rfl, -⟩
  · exact ne_updateHeaters_of_busy talk
  · exact nofun

end Step

namespace Board

variable {α σ : Type} [Quantity α]

/-- The command is the one that the line is given to. -/
def Calls (line : String) (command : Command) : Prop :=
  (Command.find? line.toList).map Prod.snd = some command

theorem Calls.unique {line : String} {command other : Command} (calls : Calls line command)
    (alsoCalls : Calls line other) : other = command :=
  Option.some.inj (alsoCalls.symm.trans calls)

/-- Neither a temperature nor the time of an update nor the noise is other than before. -/
structure SameHeat (before after : Board α) : Prop where
  noise : after.noise = before.noise
  value : ∀ id, (after.heater id).value = (before.heater id).value
  lastUpdate : ∀ id, (after.heater id).lastUpdate = (before.heater id).lastUpdate

theorem keeps_heat {step : Step α} (idle : step ≠ .updateHeaters) (before : Board α) :
    step.Keeps (SameHeat before) := by
  intro board same
  cases step with
  | updateHeaters => exact absurd rfl idle
  | aim id target =>
      refine ⟨same.noise, fun other => ?_, fun other => ?_⟩ <;>
        rw [Step.apply_aim_heater] <;> split
      · rename_i isId
        exact isId ▸ same.value id
      · exact same.value other
      · rename_i isId
        exact isId ▸ same.lastUpdate id
      · exact same.lastUpdate other
  | sleep | checkpoint | send | sendTemperatures | move | home | setMode =>
      exact ⟨same.noise, same.value, same.lastUpdate⟩

theorem keeps_target {step : Step α} {id : HeaterId} (still : ∀ target, step ≠ .aim id target)
    (target : α) : step.Keeps (AimsAt id target) := by
  intro board aims
  cases step with
  | updateHeaters => exact updateHeaters_aimsAt id target board aims
  | aim other goal =>
      rw [AimsAt, Step.apply_aim_heater, if_neg]
      · exact aims
      · rintro rfl
        exact still goal rfl
  | sleep | checkpoint | send | sendTemperatures | move | home | setMode => exact aims

/-- No step ever changes what a heater is made of. -/
theorem keeps_profile (step : Step α) (id : HeaterId) (profile : HeaterProfile α) :
    step.Keeps fun board => (board.heater id).profile = profile := by
  intro board same
  cases step with
  | updateHeaters =>
      obtain ⟨drawn, advanced⟩ := board.updateHeaters_advances id
      change (board.updateHeaters.heater id).profile = profile
      rw [advanced]
      exact same
  | aim other target =>
      rw [Step.apply_aim_heater]
      split
      · rename_i isOther
        exact isOther ▸ same
      · exact same
  | sleep | checkpoint | send | sendTemperatures | move | home | setMode => exact same

variable (host : Host σ) (patience : Nat) (line : String) (board : Board α) (state : σ)

theorem process_profile (id : HeaterId) :
    ((process host patience line board state).board.heater id).profile =
      (board.heater id).profile :=
  process_keeps (fun _ => keeps_profile _ id _) (keeps_profile _ id _) host patience line state
    (fun step _ => keeps_profile step id _) rfl

/-- Only a report and a wait touch the heaters. -/
theorem process_heat :
    SameHeat board (process host patience line board state).board ∨
      Calls line .reportTemperatures ∨ ∃ id, Calls line (.heatAndWait id) := by
  rcases Plan.waits_or_not board line with unhurried | ⟨id, target, heats⟩
  · by_cases reports : Calls line .reportTemperatures
    · exact .inr (.inl reports)
    have idle : ∀ step ∈ (Plan.ofLine board line).steps, step ≠ .updateHeaters := by
      intro step member
      rcases Plan.mem_ofLine member with rfl | ⟨command, found, prescribed⟩
      · exact nofun
      cases prescribed with
      | talk member => exact Step.ne_updateHeaters_of_busy member
      | probing member => exact Step.ne_updateHeaters_of_probing member
      | update => exact absurd found reports
      | home | move | setMode | aim | heat => exact nofun
    left
    rw [process_of_unhurried host patience line board state unhurried]
    exact andThen_keeps
      (follow_keeps host state (fun step member => keeps_heat (idle step member) board)
        ⟨rfl, fun _ => rfl, fun _ => rfl⟩) fun _ _ _ same => same
  · exact .inr (.inr ⟨id, heats.command⟩)

/-- A new target is the one that the line carries. -/
theorem process_target (id : HeaterId) :
    let target := ((process host patience line board state).board.heater id).target
    target = (board.heater id).target ∨
      (Calls line (.setTarget id) ∧ Words.target? line.toList = some target) ∨
        Calls line (.heatAndWait id) ∧ Words.waitTarget? line.toList = some target := by
  intro target
  by_cases aims : ∃ goal, .aim id goal ∈ (Plan.ofLine board line).steps
  · obtain ⟨goal, member⟩ := aims
    have reached : target = goal := by
      rcases Plan.aims_or_not board line with never | ⟨other, carried, steps, -⟩
      · exact absurd member (never id goal)
      · obtain ⟨rfl, rfl⟩ : id = other ∧ goal = carried := by simpa [steps] using member
        exact process_aimsAt host patience line board state steps
    rw [reached]
    rcases Plan.mem_ofLine member with isSleep | ⟨command, found, prescribed⟩
    · cases isSleep
    cases prescribed with
    | talk member => exact absurd member (Step.not_aim_of_busy id goal _ _)
    | probing member => exact absurd member (Step.not_aim_of_probing id goal _)
    | aim carried => exact .inr (.inl ⟨found, carried⟩)
    | heat carried => exact .inr (.inr ⟨found, carried⟩)
  · have still (step : Step α) (member : step ∈ (Plan.ofLine board line).steps) (goal : α) :
        step ≠ .aim id goal := by
      rintro rfl
      exact aims ⟨goal, member⟩
    exact .inl (process_keeps (fun _ => keeps_target nofun _) (keeps_target nofun _) host patience
      line state (fun step member => keeps_target (still step member) _) rfl)

theorem process_mode :
    let mode := (process host patience line board state).board.printer.mode
    mode = board.printer.mode ∨ Calls line (.axisMode mode) := by
  intro mode
  have selected := (process_travels host patience state line board).mode
  change mode = _ at selected
  unfold AxisMode.ofLine? at selected
  split at selected
  · rename_i found
    exact .inr (selected ▸ found)
  · exact .inl selected

theorem process_position :
    let attempt := process host patience line board state
    attempt.board.printer.position = board.printer.position ∨
      Calls line .linearMove ∨ Calls line .home ∧ attempt.outcome.isOk = true := by
  intro attempt
  have shifted := (process_travels host patience state line board).position
  change ∀ axis, attempt.board.printer.position.get axis = _ at shifted
  by_cases moves : Calls line .linearMove ∨ Calls line .home ∧ attempt.outcome.isOk = true
  · exact .inr moves
  have unmoved (axis : Axis) :
      Shift.ofLine? (α := α) axis board.printer.mode line.toList attempt.outcome.isOk = none := by
    unfold Shift.ofLine?
    split
    · rename_i found
      exact absurd (.inl found) moves
    · rename_i found
      exact if_neg fun answered => moves (.inr ⟨found, answered.1⟩)
    · rfl
  exact .inl (Position.ext_get fun axis => by rw [shifted axis, unmoved axis]; rfl)

variable {host} {patience} {line} {board} {state}

/-- The work on the line takes its time, and the host is asked about it. -/
def TakesTime (line : String) : Prop :=
  Calls line .home ∨ Calls line .probeBed ∨ ∃ id, Calls line (.heatAndWait id)

theorem TakesTime.not_calls (takesTime : TakesTime line) {command : Command}
    (notHome : command ≠ .home) (notProbe : command ≠ .probeBed)
    (notHeat : ∀ id, command ≠ .heatAndWait id) : ¬ Calls line command := by
  intro calls
  rcases takesTime with homes | probes | ⟨id, heats⟩
  · exact notHome (homes.unique calls)
  · exact notProbe (probes.unique calls)
  · exact notHeat id (heats.unique calls)

theorem takesTime_of_error {stop : Stop}
    (failed : (process host patience line board state).outcome = .error stop) :
    TakesTime line := by
  rcases Plan.waits_or_not board line with unhurried | ⟨id, target, heats⟩
  · by_contra others
    have quiet : ∀ step ∈ (Plan.ofLine board line).steps, step.IsQuiet := by
      intro step member
      rcases Plan.mem_ofLine member with rfl | ⟨command, found, prescribed⟩
      · exact fun _ => rfl
      cases prescribed with
      | talk | home => exact absurd (.inl found) others
      | probing => exact absurd (.inr (.inl found)) others
      | move | setMode | aim | heat | update => exact fun _ => rfl
    rw [process_of_unhurried host patience line board state unhurried,
      Attempt.andThen_of_ok (follow_of_quiet host quiet board state).1] at failed
    cases failed
  · exact .inr (.inr ⟨id, heats.command⟩)

omit [Quantity α] in
/-- Nothing else belongs to a printer. -/
theorem printer_eq {before after : Board α}
    (position : after.printer.position = before.printer.position)
    (mode : after.printer.mode = before.printer.mode) (heat : SameHeat before after)
    (target : ∀ id, (after.heater id).target = (before.heater id).target)
    (profile : ∀ id, (after.heater id).profile = (before.heater id).profile) :
    after.printer = before.printer := by
  have heater (id : HeaterId) : after.heater id = before.heater id :=
    Heater.ext (heat.value id) (target id) (heat.lastUpdate id) (profile id)
  exact Printer.ext position mode (Heaters.ext (heater .hotend) (heater .bed))

/-- Each part of the printer is as before, or the line calls a command that may change it. -/
structure Footprint (line : String) (board : Board α) (attempt : Attempt α σ String) : Prop where
  position : attempt.board.printer.position = board.printer.position ∨
    Calls line .linearMove ∨ Calls line .home ∧ attempt.outcome.isOk = true
  mode : attempt.board.printer.mode = board.printer.mode ∨
    Calls line (.axisMode attempt.board.printer.mode)
  target : ∀ id, (attempt.board.heater id).target = (board.heater id).target ∨
    (Calls line (.setTarget id) ∧
      Words.target? line.toList = some (attempt.board.heater id).target) ∨
    Calls line (.heatAndWait id) ∧
      Words.waitTarget? line.toList = some (attempt.board.heater id).target
  heat : SameHeat board attempt.board ∨
    Calls line .reportTemperatures ∨ ∃ id, Calls line (.heatAndWait id)
  profile : ∀ id, (attempt.board.heater id).profile = (board.heater id).profile

/-- What is left of a line that failed. -/
structure Unspoiled (line : String) (before after : Board α) : Prop where
  takesTime : TakesTime line
  position : after.printer.position = before.printer.position
  mode : after.printer.mode = before.printer.mode
  printer : Calls line .home ∨ Calls line .probeBed → after.printer = before.printer
  otherTarget : ∀ id, Calls line (.heatAndWait id) → ∀ other, other ≠ id →
    (after.heater other).target = (before.heater other).target

/-- The commands that can fail change nothing else, and only a wait changes anything before its
end. -/
theorem Footprint.unspoiled {attempt : Attempt α σ String}
    (footprint : Footprint line board attempt)
    (takesTime : TakesTime line) {stop : Stop} (failed : attempt.outcome = .error stop) :
    Unspoiled line board attempt.board := by
  have position : attempt.board.printer.position = board.printer.position := by
    rcases footprint.position with same | moves | ⟨-, answered⟩
    · exact same
    · exact absurd moves (takesTime.not_calls nofun nofun nofun)
    · rw [failed] at answered
      cases answered
  have mode : attempt.board.printer.mode = board.printer.mode :=
    footprint.mode.resolve_right (takesTime.not_calls nofun nofun nofun)
  refine ⟨takesTime, position, mode, fun talks => ?_, fun id heats other isOther => ?_⟩
  · have unheated (id : HeaterId) : ¬ Calls line (.heatAndWait id) := by
      intro heats
      rcases talks with homes | probes
      · cases homes.unique heats
      · cases probes.unique heats
    have target (id : HeaterId) : (attempt.board.heater id).target = (board.heater id).target := by
      rcases footprint.target id with same | ⟨sets, -⟩ | ⟨heats, -⟩
      · exact same
      · exact absurd sets (takesTime.not_calls nofun nofun nofun)
      · exact absurd heats (unheated id)
    have heat : SameHeat board attempt.board := by
      rcases footprint.heat with same | reports | ⟨id, heats⟩
      · exact same
      · exact absurd reports (takesTime.not_calls nofun nofun nofun)
      · exact absurd heats (unheated id)
    exact printer_eq position mode heat target footprint.profile
  · rcases footprint.target other with same | ⟨sets, -⟩ | ⟨alsoHeats, -⟩
    · exact same
    · cases heats.unique sets
    · exact absurd (Command.heatAndWait.inj (heats.unique alsoHeats)) isOther

/-- Whatever the host does and wherever the work ends, a line changes only what its command is there
for. A line that fails has moved nothing, and homing and probing leave no trace of a failure. -/
theorem process_footprint (host : Host σ) (patience : Nat) (line : String) (board : Board α)
    (state : σ) :
    let attempt := process host patience line board state
    Footprint line board attempt ∧
      ∀ stop, attempt.outcome = .error stop → Unspoiled line board attempt.board := by
  intro attempt
  have footprint : Footprint line board attempt :=
    { position := process_position host patience line board state
      mode := process_mode host patience line board state
      target := process_target host patience line board state
      heat := process_heat host patience line board state
      profile := process_profile host patience line board state }
  exact ⟨footprint, fun stop failed => footprint.unspoiled (takesTime_of_error failed) failed⟩

end Board

end BenchPrinter
