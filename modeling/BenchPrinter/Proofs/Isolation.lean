import Mathlib.Data.List.Forall2
import BenchPrinter.Proofs.Lockstep
import BenchPrinter.Proofs.Promptness

/-!
Motion and heating keep to themselves. Where the axes stand is seen in a report of the position
only, and nothing about the heaters is seen outside a report of the temperatures and a wait.
-/

namespace BenchPrinter

namespace Plan

variable {α : Type} [Quantity α]

theorem reply_ofLine (board other : Board α) (line : String) :
    (ofLine other line).reply = (ofLine board line).reply := by
  cases found : (Command.find? line.toList).map Prod.snd with
  | none =>
      rw [Option.map_eq_none_iff] at found
      simp only [ofLine, found]
  | some command =>
      rw [ofLine_of_found other found, ofLine_of_found board found]
      cases command <;> rfl

/-- Only two commands report what the board knows. -/
theorem reply_or_report (board : Board α) (line : String) :
    (∃ text, ∀ after : Board α, (ofLine board line).reply.render after = text) ∨
      (Board.Calls line .reportTemperatures ∧ (ofLine board line).reply = .temperatures) ∨
        Board.Calls line .reportPosition ∧ (ofLine board line).reply = .position := by
  cases found : (Command.find? line.toList).map Prod.snd with
  | none =>
      rw [Option.map_eq_none_iff] at found
      exact .inl ⟨Command.fallback line.toList, fun _ => by simp only [ofLine, found]; rfl⟩
  | some command =>
      rw [ofLine_of_found board found]
      cases command with
      | reportTemperatures => exact .inr (.inl ⟨found, rfl⟩)
      | reportPosition => exact .inr (.inr ⟨found, rfl⟩)
      | setTarget id =>
          left
          simp only [ofCommand]
          split <;> exact ⟨_, fun _ => rfl⟩
      | heatAndWait id =>
          left
          simp only [ofCommand, heatAndWait]
          split <;> exact ⟨_, fun _ => rfl⟩
      | feedRate =>
          left
          simp only [ofCommand]
          split <;> exact ⟨_, fun _ => rfl⟩
      | linearMove | home | probeBed | axisMode | fanOn | fanOff => exact .inl ⟨_, fun _ => rfl⟩

/-- The intervals of a board say when a text is sent, and not which. -/
theorem texts_ofLine (board other : Board α) (line : String) :
    (ofLine other line).steps.filterMap Step.text? =
      (ofLine board line).steps.filterMap Step.text? := by
  cases found : (Command.find? line.toList).map Prod.snd with
  | none =>
      rw [Option.map_eq_none_iff] at found
      simp only [ofLine, found]
      rfl
  | some command =>
      rw [ofLine_of_found other found, ofLine_of_found board found]
      cases command with
      | home | linearMove | axisMode | setTarget | heatAndWait | reportTemperatures => rfl
      | reportPosition | fanOn | fanOff | feedRate => rfl
      | probeBed =>
          simp only [ofCommand, acknowledge, Step.probing_eq, List.filterMap_cons, Step.text?,
            List.filterMap_append, Step.texts_announcing]

end Plan

namespace Board

variable {α σ τ : Type} [Quantity α]

/-- The boards differ in nothing but where the axes stand and how coordinates are read. -/
structure SameHeating (board other : Board α) : Prop where
  heaters : other.printer.heaters = board.printer.heaters
  room : other.room = board.room
  noise : other.noise = board.noise
  clock : other.clock = board.clock
  busyInterval : other.busyInterval = board.busyInterval
  lineDelay : other.lineDelay = board.lineDelay

theorem likeness_sameHeating : Likeness (α := α) SameHeating where
  request step same := by
    cases step with
    | sendTemperatures => simp only [Step.request, same.heaters]
    | sleep | checkpoint | send | updateHeaters | move | home | setMode | aim => rfl
  apply step same := by
    obtain ⟨heaters, room, noise, clock, busyInterval, lineDelay⟩ := same
    cases step with
    | sleep milliseconds =>
        exact ⟨heaters, room, noise, by simp only [Step.apply, clock], busyInterval, lineDelay⟩
    | updateHeaters =>
        refine ⟨?_, room, ?_, clock, busyInterval, lineDelay⟩ <;>
          simp only [Step.apply, updateHeaters, heaters, room, noise, clock]
    | aim id target =>
        exact ⟨by simp only [Step.apply, heaters], room, noise, clock, busyInterval, lineDelay⟩
    | checkpoint | send | sendTemperatures | move | home | setMode =>
        exact ⟨heaters, room, noise, clock, busyInterval, lineDelay⟩
  isSettled id same := by simp only [isSettled, same.heaters, same.room]
  busyInterval same := same.busyInterval
  lineDelay same := same.lineDelay

/-- A line, and what became of it. -/
structure Hearing (α σ : Type) where
  line : String
  attempt : Attempt α σ String

/-- The board hears one line after the other, whatever becomes of each. -/
def hearLines (host : Host σ) (patience : Nat) :
    List String → Board α → σ → List (Hearing α σ)
  | [], _, _ => []
  | line :: later, board, state =>
      let attempt := process host patience line board state
      ⟨line, attempt⟩ :: hearLines host patience later attempt.board attempt.host

/-- Where the axes stand makes no difference to the line, but to the answer if it asks for the
position. -/
structure HidesMotion (hearing other : Hearing α σ) : Prop where
  line : other.line = hearing.line
  kind : (∃ stop, hearing.attempt.outcome = .error stop ∧ other.attempt.outcome = .error stop) ∨
    ∃ response otherResponse, hearing.attempt.outcome = .ok response ∧
      other.attempt.outcome = .ok otherResponse
  answer : ¬ Calls hearing.line .reportPosition →
    other.attempt.outcome = hearing.attempt.outcome
  actions : other.attempt.actions = hearing.attempt.actions
  host : other.attempt.host = hearing.attempt.host
  heating : SameHeating hearing.attempt.board other.attempt.board

/-- The heaters and the time make no difference to the line, but to the answer if it asks for the
temperatures, and to what is sent before the answer if it waits. -/
structure HidesHeating (hearing : Hearing α σ) (other : Hearing α τ) : Prop where
  line : other.line = hearing.line
  position : other.attempt.board.printer.position = hearing.attempt.board.printer.position
  mode : other.attempt.board.printer.mode = hearing.attempt.board.printer.mode
  answer : ¬ Calls hearing.line .reportTemperatures →
    other.attempt.outcome = hearing.attempt.outcome
  texts : (∀ id, ¬ Calls hearing.line (.heatAndWait id)) →
    sentTexts other.attempt.actions = sentTexts hearing.attempt.actions

theorem process_hidesMotion (host : Host σ) (patience : Nat) (line : String)
    {board other : Board α} (same : SameHeating board other) (state : σ) :
    HidesMotion ⟨line, process host patience line board state⟩
      ⟨line, process host patience line other state⟩ := by
  obtain ⟨outcome, actions, heating, inStep⟩ := process_lockstep likeness_sameHeating
    host.agrees_self patience line same (rfl : state = state)
  refine ⟨rfl, outcome.imp_right fun ⟨answered, alsoAnswered⟩ => ⟨_, _, answered, alsoAnswered⟩,
    fun elsewhere => ?_, actions, inStep.symm, heating⟩
  · rcases outcome with ⟨stop, failed, alsoFailed⟩ | ⟨answered, alsoAnswered⟩
    · exact alsoFailed.trans failed.symm
    · rw [answered, alsoAnswered]
      rcases Plan.reply_or_report board line with ⟨text, fixed⟩ | ⟨-, reply⟩ | ⟨asks, -⟩
      · rw [fixed, fixed]
      · simp only [reply, Reply.render, heating.heaters]
      · exact absurd asks elsewhere

/-- A line that is answered without a wait has sent the texts of its plan. -/
theorem sentTexts_of_answer {host : Host σ} {patience : Nat} {line : String} {board : Board α}
    {state : σ} (noHeat : ∀ id, ¬ Calls line (.heatAndWait id))
    (answered : (process host patience line board state).outcome.isOk = true) :
    sentTexts (process host patience line board state).actions =
      (Plan.ofLine board line).steps.filterMap Step.text? := by
  have unhurried : (Plan.ofLine board line).waitsFor = none := by
    rcases Plan.waits_or_not board line with unhurried | ⟨id, target, heats⟩
    · exact unhurried
    · exact absurd heats.command (noHeat id)
  rw [process_of_unhurried host patience line board state unhurried] at answered ⊢
  cases reached : (follow host (Plan.ofLine board line).steps board state).outcome with
  | ok _ =>
      rw [Attempt.andThen_of_ok reached, Attempt.actions_after, sentTexts_append,
        sentTexts_of_follow host (Plan.sendTemperatures_not_mem_ofLine board line) reached]
      exact List.append_nil _
  | error stop =>
      rw [Attempt.andThen_of_error reached] at answered
      cases answered

theorem process_hidesHeating {host : Host σ} {otherHost : Host τ} {patience otherPatience : Nat}
    {line : String} {board other : Board α} {state : σ} {otherState : τ}
    (position : other.printer.position = board.printer.position)
    (mode : other.printer.mode = board.printer.mode)
    (answered : (process host patience line board state).outcome.isOk = true)
    (otherAnswered : (process otherHost otherPatience line other otherState).outcome.isOk = true) :
    HidesHeating ⟨line, process host patience line board state⟩
      ⟨line, process otherHost otherPatience line other otherState⟩ := by
  have travels := process_travels host patience state line board
  have otherTravels := process_travels otherHost otherPatience otherState line other
  have samePosition : (process otherHost otherPatience line other
      otherState).board.printer.position =
        (process host patience line board state).board.printer.position := by
    apply Position.ext_get
    intro axis
    rw [travels.position, otherTravels.position, answered, otherAnswered, position, mode]
  refine ⟨rfl, samePosition, ?_, fun elsewhere => ?_, fun noHeat => ?_⟩
  · rw [travels.mode, otherTravels.mode, mode]
  · have reply := response_of_process host patience line board state
    have otherReply := response_of_process otherHost otherPatience line other otherState
    cases outcome : (process host patience line board state).outcome with
    | error stop =>
        rw [outcome] at answered
        cases answered
    | ok response =>
        cases otherOutcome : (process otherHost otherPatience line other otherState).outcome with
        | error stop =>
            rw [otherOutcome] at otherAnswered
            cases otherAnswered
        | ok otherResponse =>
            rw [reply response outcome, otherReply otherResponse otherOutcome,
              Plan.reply_ofLine board other]
            rcases Plan.reply_or_report board line with ⟨text, fixed⟩ | ⟨asks, -⟩ | ⟨-, isPosition⟩
            · rw [fixed, fixed]
            · exact absurd asks elsewhere
            · simp only [isPosition, Reply.render, samePosition]
  · rw [sentTexts_of_answer noHeat answered, sentTexts_of_answer noHeat otherAnswered,
      Plan.texts_ofLine board other]

theorem hearLines_hideMotion (host : Host σ) (patience : Nat) (lines : List String)
    {board other : Board α} (same : SameHeating board other) (state : σ) :
    List.Forall₂ HidesMotion (hearLines host patience lines board state)
      (hearLines host patience lines other state) := by
  induction lines generalizing board other state with
  | nil => exact .nil
  | cons line later inductionHypothesis =>
      have hides := process_hidesMotion host patience line same state
      have sameHost : (process host patience line other state).host =
          (process host patience line board state).host := hides.host
      refine .cons hides ?_
      rw [sameHost]
      exact inductionHypothesis hides.heating _

theorem hearLines_hideHeating {host : Host σ} {otherHost : Host τ} {patience otherPatience : Nat}
    {lines : List String} {board other : Board α} {state : σ} {otherState : τ}
    (position : other.printer.position = board.printer.position)
    (mode : other.printer.mode = board.printer.mode)
    (answered : ∀ hearing ∈ hearLines host patience lines board state,
      hearing.attempt.outcome.isOk = true)
    (otherAnswered : ∀ hearing ∈ hearLines otherHost otherPatience lines other otherState,
      hearing.attempt.outcome.isOk = true) :
    List.Forall₂ HidesHeating (hearLines host patience lines board state)
      (hearLines otherHost otherPatience lines other otherState) := by
  induction lines generalizing board other state otherState with
  | nil => exact .nil
  | cons line later inductionHypothesis =>
      obtain ⟨first, rest⟩ := List.forall_mem_cons.1 answered
      obtain ⟨otherFirst, otherRest⟩ := List.forall_mem_cons.1 otherAnswered
      have hides := process_hidesHeating position mode first otherFirst
      exact .cons hides (inductionHypothesis hides.position hides.mode rest otherRest)

/-- Boards that differ only in their motion go through any lines in front of the same host alike,
and only a report of the position tells them apart. Boards that agree in their motion, and in nothing
else, go through the same motion wherever both answer every line; only reports of the temperatures
and waits tell them apart. -/
theorem motion_and_heating_are_isolated :
    (∀ {σ : Type} (host : Host σ) (patience : Nat) (lines : List String) (board other : Board α)
      (state : σ), SameHeating board other →
        List.Forall₂ HidesMotion (hearLines host patience lines board state)
          (hearLines host patience lines other state)) ∧
    ∀ {σ τ : Type} (host : Host σ) (otherHost : Host τ) (patience otherPatience : Nat)
      (lines : List String) (board other : Board α) (state : σ) (otherState : τ),
        other.printer.position = board.printer.position →
        other.printer.mode = board.printer.mode →
        (∀ hearing ∈ hearLines host patience lines board state,
          hearing.attempt.outcome.isOk = true) →
        (∀ hearing ∈ hearLines otherHost otherPatience lines other otherState,
          hearing.attempt.outcome.isOk = true) →
        List.Forall₂ HidesHeating (hearLines host patience lines board state)
          (hearLines otherHost otherPatience lines other otherState) := by
  constructor
  · intro σ host patience lines board other state same
    exact hearLines_hideMotion host patience lines same state
  · intro σ τ host otherHost patience otherPatience lines board other state otherState position mode
      answered otherAnswered
    exact hearLines_hideHeating position mode answered otherAnswered

/-- A board whose axes stand elsewhere, and that reads coordinates as differences. -/
def movedBoard : Board Rat :=
  { exactBoard with
    printer := { exactBoard.printer with position := ⟨5, 2, 1⟩, mode := .relative } }

/-- A board in a cold room, with other heaters, another clock and shorter intervals. -/
def winterBoard : Board Rat :=
  .powerUp ⟨5, ⟨1, 2, 0⟩, ⟨3, 1, 1⟩, 250, 0, none⟩ (.cycle [1 / 4]) ⟨5000⟩

/-- In front of a host that cancels after two keep-alives the homing fails, in front of an idle host
it succeeds. -/
def homingLines : List String := ["G91", "M105", "G1 X7", "G28 Y", "M114"]

theorem homing_is_isolated :
    (SameHeating exactBoard movedBoard ∧
      List.Forall₂ HidesMotion (hearLines (.countdown 2) 0 homingLines exactBoard 0)
        (hearLines (.countdown 2) 0 homingLines movedBoard 0)) ∧
    ((winterBoard.printer.position = exactBoard.printer.position ∧
        winterBoard.printer.mode = exactBoard.printer.mode ∧
        (∀ hearing ∈ hearLines .idle 0 homingLines exactBoard (),
          hearing.attempt.outcome.isOk = true) ∧
        ∀ hearing ∈ hearLines .idle 0 homingLines winterBoard (),
          hearing.attempt.outcome.isOk = true) ∧
      List.Forall₂ HidesHeating (hearLines .idle 0 homingLines exactBoard ())
        (hearLines .idle 0 homingLines winterBoard ())) := by
  have same : SameHeating exactBoard movedBoard := ⟨rfl, rfl, rfl, rfl, rfl, rfl⟩
  have answered : ∀ hearing ∈ hearLines .idle 0 homingLines exactBoard (),
      hearing.attempt.outcome.isOk = true := List.all_eq_true.1 (by decide +kernel)
  have otherAnswered : ∀ hearing ∈ hearLines .idle 0 homingLines winterBoard (),
      hearing.attempt.outcome.isOk = true := List.all_eq_true.1 (by decide +kernel)
  exact ⟨⟨same, motion_and_heating_are_isolated.1 _ _ _ _ _ _ same⟩,
    ⟨rfl, rfl, answered, otherAnswered⟩,
    motion_and_heating_are_isolated.2 _ _ _ _ _ _ _ _ _ rfl rfl answered otherAnswered⟩

end Board

end BenchPrinter
