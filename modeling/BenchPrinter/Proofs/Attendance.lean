import BenchPrinter.Proofs.Answering
import BenchPrinter.Proofs.Beginning
import BenchPrinter.Proofs.Course
import BenchPrinter.Proofs.Holding
import BenchPrinter.Proofs.Planning

/-!
How long a board may be left alone. Its temperatures stay physical as long as the host asks for them
in time, and a wait asks often enough by itself.
-/

namespace BenchPrinter

open Double

namespace Step

variable {α : Type}

/-- The target that the step sets for the heater. -/
def aimed? (id : HeaterId) : Step α → Option α
  | aim other target => if other = id then some target else none
  | _ => none

end Step

/-- Only asking for the temperatures updates the heaters before any wait. -/
theorem Plan.updates_or_not {α : Type} [Quantity α] (board : Board α) (line : String) :
    Board.Reports line ∨ Step.updateHeaters ∉ (Plan.ofLine board line).steps := by
  refine or_iff_not_imp_right.2 fun updates => ?_
  rcases mem_ofLine (not_not.1 updates) with isSleep | ⟨command, found, prescribed⟩
  · cases isSleep
  have noTalk {interval : UInt64} {count : Nat} :
      (Step.updateHeaters : Step α) ∉ Step.busy interval count := by
    intro member
    rcases Step.mem_busy member with same | same | same <;> cases same
  cases prescribed with
  | talk member => exact absurd member noTalk
  | probing member =>
      rcases Step.mem_probing member with talk | ⟨text, same, -⟩
      · exact absurd talk noTalk
      · cases same
  | update => exact found

namespace Board

/-- Before, between and after the steps the board has the property. -/
def Throughout {α : Type} [Quantity α] (property : Board α → Prop) :
    List (Step α) → Board α → Prop
  | [], board => property board
  | step :: rest, board => property board ∧ Throughout property rest (step.apply board)

theorem Throughout.afterSteps {α : Type} [Quantity α] {property : Board α → Prop}
    {done rest : List (Step α)} {board : Board α}
    (throughout : Throughout property (done ++ rest) board) :
    property (board.afterSteps done) := by
  induction done generalizing board with
  | nil =>
      cases rest with
      | nil => exact throughout
      | cons step rest => exact throughout.1
  | cons step done inductionHypothesis => exact inductionHypothesis throughout.2

/-- So it has the property wherever a host stops the work. -/
theorem follow_throughout {α σ : Type} [Quantity α] {property : Board α → Prop} (host : Host σ)
    {steps : List (Step α)} {board : Board α} (state : σ)
    (throughout : Throughout property steps board) :
    property (follow host steps board state).board := by
  obtain ⟨done, rest, rfl, reached, -⟩ := follow_beginning host steps board state
  rw [reached]
  exact throughout.afterSteps

end Board

namespace Board.Tame

variable {σ : Type} {targets : HeaterId → List Float} {board : Board Float}

/-- Further targets only allow more. -/
theorem widen (tame : board.Tame targets) {more : HeaterId → List Float}
    (wider : ∀ id, targets id ⊆ more id) (gentle : ∀ id, ∀ target ∈ more id, Gentle target) :
    board.Tame more := by
  refine ⟨tame.toSound, gentle, fun id => (tame.listed id).imp_right (@wider id _), fun id => ?_⟩
  obtain ⟨low, bound, member, high⟩ := tame.physical id
  have wide : bound ∈ bounds (more id) :=
    List.cons_subset_cons _ (List.map_subset _ (wider id)) member
  exact ⟨low, bound, wide, high⟩

theorem aim (tame : board.Tame targets) (id : HeaterId) {target : Float}
    (member : target ∈ targets id) : ((Step.aim id target).apply board).Tame targets := by
  obtain ⟨finite, size⟩ := tame.gentle id target member
  have unsigned : Unsigned target := .inl ⟨finite, by rcases size with size | size <;> linarith⟩
  refine ⟨tame.toSound.aim id unsigned, tame.gentle, fun other => ?_, fun other => ?_⟩
  · rw [Step.apply_aim_heater]
    split
    · rename_i same
      exact .inr (same ▸ member)
    · exact tame.listed other
  · rw [Step.apply_aim_heater]
    split
    · rename_i same
      exact same ▸ tame.physical id
    · exact tame.physical other

/-- Only an update can lead out of reach. -/
theorem apply (step : Step Float) (still : step ≠ .updateHeaters)
    (aims : ∀ id target, step = .aim id target → target ∈ targets id) :
    step.Keeps (Tame targets) := by
  intro board tame
  cases step with
  | sleep milliseconds => exact tame.sleep milliseconds
  | updateHeaters => exact absurd rfl still
  | aim id target => exact tame.aim id (aims id target rfl)
  | checkpoint | send | sendTemperatures => exact tame
  | move | home | setMode =>
      exact ⟨{ tame.toSound with }, tame.gentle, tame.listed, tame.physical⟩

/-- One second after a tick everything is in reach. -/
theorem inReach_of_tick (tame : board.tick.Tame targets) (sound : Sound board) :
    InReach targets ((Step.sleep board.busyInterval).apply board.tick) := by
  apply (tame.sleep board.busyInterval).inReach_of_prompt
  intro id
  have seconds := (sound.ticking id).seconds
  change worth ((board.tick.heater id).elapsedSeconds board.tick.tick.clock.now) ≤ 6
  rcases seconds with second | ⟨nothing, -⟩ <;> linarith

/-- Once the first update of a wait is in reach, the wait is attended to the end. -/
theorem await (tame : board.Tame targets) (host : Host σ) (id : HeaterId) (patience : Nat)
    (state : σ)
    (timely : board.isSettled id = false →
      InReach targets ((Step.sleep board.busyInterval).apply board)) :
    (Board.await host id patience board state).board.Tame targets := by
  induction patience generalizing board state with
  | zero => rw [Board.await]; split <;> exact tame
  | succ patience inductionHypothesis =>
      cases settled : board.isSettled id with
      | true => rw [await_of_settled host id _ state settled]; exact tame
      | false =>
          have tick : board.tick.Tame targets :=
            (tame.sleep board.busyInterval).updateHeaters (timely settled)
          have second : board.tick.tick.Tame targets :=
            (tick.sleep board.busyInterval).updateHeaters (tick.inReach_of_tick tame.toSound)
          have throughout : Throughout (Tame targets) (Step.waitingRound board.busyInterval)
              board :=
            ⟨tame, tame, tame, tame.sleep _, tick, tick, tick, tick.sleep _, second, second⟩
          have round := follow_throughout host state throughout
          rw [await_of_unsettled host id _ state settled]
          obtain ⟨done, rest, split, reached, succeeded⟩ :=
            follow_beginning host (Step.waitingRound board.busyInterval) board state
          cases outcome :
              (follow host (Step.waitingRound board.busyInterval) board state).outcome with
          | error stop => rw [Attempt.andThen_of_error outcome]; exact round
          | ok value =>
              obtain rfl := succeeded.1 outcome
              rw [List.append_nil] at split
              rw [← split] at reached
              rw [Attempt.andThen_of_ok outcome, Attempt.board_after, reached]
              exact inductionHypothesis second _
                fun _ => second.inReach_of_tick tame.toSound.tick

end Board.Tame

namespace Board

/-- The targets that a line sets for a heater. -/
def targetsOf (board : Board Float) (line : String) (id : HeaterId) : List Float :=
  (Plan.ofLine board line).steps.filterMap (Step.aimed? id)

/-- The first update that the line makes ends in reach. Asking for the temperatures makes one after
the line delay, and a wait one interval after it has begun. -/
structure Timely (targets : HeaterId → List Float) (line : String) (board : Board Float) :
    Prop where
  report : Reports line → InReach targets ((Step.sleep board.lineDelay).apply board)
  wait : ∀ id target, HeatsTo line id target → (board.aim id target).isSettled id = false →
    InReach targets ((Step.sleep board.busyInterval).apply (board.aim id target))

/-- No heater was last updated more than six seconds before the first update that the line makes. -/
structure Prompt (line : String) (board : Board Float) : Prop where
  report : Reports line → ∀ id,
    worth ((board.heater id).elapsedSeconds (board.clock.now + board.lineDelay)) ≤ 6
  wait : ∀ id target, HeatsTo line id (target : Float) → ∀ other,
    worth ((board.heater other).elapsedSeconds
      (board.clock.now + board.lineDelay + board.busyInterval)) ≤ 6

theorem mem_targetsOf {board : Board Float} {line : String} {id : HeaterId} {target : Float}
    (member : .aim id target ∈ (Plan.ofLine board line).steps) :
    target ∈ board.targetsOf line id :=
  List.mem_filterMap.2 ⟨_, member, by simp [Step.aimed?]⟩

namespace Tame

variable {targets : HeaterId → List Float} {board : Board Float} {line : String}

theorem withTargets (tame : board.Tame targets)
    (gentle : ∀ id, ∀ target ∈ board.targetsOf line id, Gentle target) :
    board.Tame fun id => targets id ++ board.targetsOf line id :=
  tame.widen (fun _ => List.subset_append_left _ _)
    fun id => List.forall_mem_append.2 ⟨tame.gentle id, gentle id⟩

/-- Whoever asks promptly asks in time. -/
theorem timely_of_prompt (tame : board.Tame targets)
    (listed : ∀ id, board.targetsOf line id ⊆ targets id) (prompt : board.Prompt line) :
    board.Timely targets line where
  report reports := (tame.sleep board.lineDelay).inReach_of_prompt (prompt.report reports)
  wait id target heats _ := by
    have member : target ∈ targets id :=
      listed id (mem_targetsOf (by simp [heats.plan board]))
    have aimed := ((tame.sleep board.lineDelay).aim id member).sleep board.busyInterval
    refine aimed.inReach_of_prompt fun other => ?_
    have early := prompt.wait id target heats other
    cases id <;> cases other <;> exact early

theorem process {σ : Type} (tame : board.Tame targets)
    (listed : ∀ id, board.targetsOf line id ⊆ targets id) (timely : board.Timely targets line)
    (host : Host σ) (patience : Nat) (state : σ) :
    (Board.process host patience line board state).board.Tame targets := by
  have aims (id : HeaterId) (target : Float)
      (member : .aim id target ∈ (Plan.ofLine board line).steps) : target ∈ targets id :=
    listed id (mem_targetsOf member)
  rcases Plan.waits_or_not board line with unhurried | ⟨id, target, heats⟩
  · rcases Plan.updates_or_not board line with reports | still
    · rw [reports.process]
      exact (tame.sleep board.lineDelay).updateHeaters (timely.report reports)
    · have keeps : ∀ step ∈ (Plan.ofLine board line).steps, step.Keeps (Tame targets) :=
        fun step member => Tame.apply step (by rintro rfl; exact still member)
          fun id target isAim => aims id target (isAim ▸ member)
      rw [process_of_unhurried host patience line board state unhurried]
      exact andThen_keeps (follow_keeps host state keeps tame) fun _ _ _ tame => tame
  · have member : target ∈ targets id := aims id target (by simp [heats.plan board])
    have aimed := (tame.sleep board.lineDelay).aim id member
    rw [heats.process_eq]
    exact andThen_keeps (aimed.await host id patience state (timely.wait id target heats))
      fun _ _ _ tame => tame

end Tame

/-- The boards that power-up, pauses and timely lines lead to, with the targets set so far. -/
inductive Attended : (HeaterId → List Float) → Board Float → Prop where
  | powerUp (noise : Noise Float) (clock : Clock) (unit : ∀ index, IsSample (noise.sample index)) :
      Attended (fun _ => []) (.powerUp .standard noise clock)
  | pause {targets : HeaterId → List Float} {board : Board Float} (milliseconds : UInt64)
      (earlier : Attended targets board) :
      Attended targets { board with clock := board.clock.after milliseconds }
  | line {σ : Type} {targets : HeaterId → List Float} {board : Board Float} (host : Host σ)
      (patience : Nat) (line : String) (state : σ) (earlier : Attended targets board)
      (gentle : ∀ id, ∀ target ∈ board.targetsOf line id, Gentle target)
      (timely : board.Timely (fun id => targets id ++ board.targetsOf line id) line) :
      Attended (fun id => targets id ++ board.targetsOf line id)
        (process host patience line board state).board

theorem Attended.tame {targets : HeaterId → List Float} {board : Board Float}
    (attended : Attended targets board) : board.Tame targets := by
  induction attended with
  | powerUp noise clock unit =>
      have isZero : ((0.0 : Float) == 0.0) = true ∧ (0.0 : Float) ≤ 0.0 ∧ (0.0 : Float) ≤ 22.5 := by
        decide +kernel
      refine ⟨.powerUp clock unit, by simp, fun id => ?_, fun id => ?_⟩
      · cases id <;> exact .inl isZero.1
      · cases id <;> exact ⟨isZero.2.1, 22.5, .head _, isZero.2.2⟩
  | pause milliseconds _ tame => exact tame.sleep milliseconds
  | line host patience line state _ gentle timely tame =>
      exact (tame.withTargets gentle).process (fun _ => List.subset_append_right _ _) timely host
        patience state

/-- A board stays attended with every line that comes within six seconds of the last update. -/
theorem Attended.line_of_prompt {σ : Type} {targets : HeaterId → List Float} {board : Board Float}
    (attended : Attended targets board) {line : String}
    (gentle : ∀ id, ∀ target ∈ board.targetsOf line id, Gentle target)
    (prompt : board.Prompt line) (host : Host σ) (patience : Nat) (state : σ) :
    Attended (fun id => targets id ++ board.targetsOf line id)
      (process host patience line board state).board :=
  attended.line host patience line state gentle
    ((attended.tame.withTargets gentle).timely_of_prompt
      (fun _ => List.subset_append_right _ _) prompt)

/-- On an attended board the temperatures are physical, and a line that comes promptly leaves it
attended. Conversely, a report after which each temperature lies strictly between zero and a bound
was in reach. -/
theorem physical_while_attended {targets : HeaterId → List Float} {board : Board Float}
    (attended : Attended targets board) :
    (∀ id, Physical (targets id) (board.heater id).value) ∧
      (∀ line, (∀ id, ∀ target ∈ board.targetsOf line id, Gentle target) → board.Prompt line →
        ∀ {σ : Type} (host : Host σ) (patience : Nat) (state : σ),
        Attended (fun id => targets id ++ board.targetsOf line id)
          (process host patience line board state).board) ∧
      ∀ line, Reports line → ∀ {σ : Type} (host : Host σ) (patience : Nat) (state : σ),
        let after := (process host patience line board state).board
        (∀ id, 0.0 < (after.heater id).value ∧
          ∃ bound ∈ bounds (targets id), (after.heater id).value < bound) →
        InReach targets ((Step.sleep board.lineDelay).apply board) := by
  have tame := attended.tame
  refine ⟨tame.physical, fun line gentle prompt σ => attended.line_of_prompt gentle prompt,
    fun line reports σ host patience state => ?_⟩
  rw [reports.process]
  exact (tame.sleep board.lineDelay).inReach_of_updateHeaters

/-- The line sets a target without waiting for it. -/
structure SetsTo {α : Type} [Quantity α] (line : String) (id : HeaterId) (target : α) : Prop where
  command : (Command.find? line.toList).map Prod.snd = some (.setTarget id)
  carried : Words.target? line.toList = some target

theorem SetsTo.of_numeral {α : Type} [Quantity α] {line : String} {id : HeaterId}
    {text : List Char} {numeral : Numeral}
    (command : (Command.find? line.toList).map Prod.snd = some (.setTarget id))
    (found : findWord? ['S'] .unsigned line.toList = some text)
    (read : Numeral.read? text = some numeral) :
    SetsTo line id (Quantity.ofNumeral numeral : α) := by
  refine ⟨command, ?_⟩
  rw [Words.target?, Words.value?, found]
  simp only [read, Option.map_some]

theorem SetsTo.plan {α : Type} [Quantity α] {line : String} {id : HeaterId} {target : α}
    (sets : SetsTo line id target) (board : Board α) :
    Plan.ofLine board line =
      ⟨[.sleep board.lineDelay, .aim id target], none, .acknowledgement⟩ := by
  obtain ⟨⟨code, command⟩, found, rfl⟩ := Option.map_eq_some_iff.1 sets.command
  simp [Plan.ofLine, found, Plan.ofCommand, sets.carried, Plan.acknowledge]

theorem SetsTo.process {α σ : Type} [Quantity α] {line : String} {id : HeaterId} {target : α}
    (sets : SetsTo line id target) (host : Host σ) (patience : Nat) (board : Board α) (state : σ) :
    (Board.process host patience line board state).board = board.aim id target := by
  rw [Board.process, sets.plan board]
  rfl

/-- The steady board is given a target and then left alone before the temperatures are asked for. -/
def afterSilence (line : String) (silence : UInt64) : Board Float :=
  let aimed := (process Host.idle 0 line steadyBoard ()).board
  (process Host.idle 0 "M105" { aimed with clock := aimed.clock.after silence } ()).board

theorem afterSilence_reachable (line : String) (silence : UInt64) :
    Reachable (afterSilence line silence) :=
  .line _ _ _ _ (.pause _ (.line _ _ _ _ steadyBoard_reachable))

theorem afterSilence_eq {line : String} {target : Float} (sets : SetsTo line .hotend target)
    (silence : UInt64) :
    afterSilence line silence =
      (process Host.idle 0 "M105" { steadyBoard.aim .hotend target with
        clock := (steadyBoard.aim .hotend target).clock.after silence } ()).board := by
  rw [afterSilence, sets.process Host.idle 0 steadyBoard ()]

/-- The hotend starts at twenty degrees and drifts for the time of the silence. -/
theorem afterSilence_drift {line : String} {target : Float} (sets : SetsTo line .hotend target)
    (finite : IsFinite target) (set : (target == (0.0 : Float)) = false) (silence : UInt64) :
    (afterSilence line silence).clock.now = 20 + silence + 10 ∧
      ((afterSilence line silence).heater .hotend).target = target ∧
      Drift (.standard .hotend)
        (Quantity.ofNat (elapsedBetween 10 (20 + silence + 10)) / 1000.0) (worth target) 20
        ((afterSilence line silence).heater .hotend).value := by
  obtain ⟨valueFinite, value, updated, now⟩ := steadyBoard_hotend
  have sound := steadyBoard_reachable.sound
  have planned : .aim .hotend target ∈ (Plan.ofLine steadyBoard line).steps := by
    simp [sets.plan]
  have unsigned : Unsigned target := (Plan.aims_of_mem planned).2
  have aimedNow : (steadyBoard.aim .hotend target).clock.now = 20 := by
    change steadyBoard.clock.now + steadyBoard.lineDelay = 20
    rw [now, sound.delay]
    rfl
  have aimedSound : Sound (steadyBoard.aim .hotend target) :=
    (sound.sleep steadyBoard.lineDelay).aim .hotend unsigned
  have asked := reports_m105.process Host.idle 0
    { steadyBoard.aim .hotend target with
      clock := (steadyBoard.aim .hotend target).clock.after silence } ()
  have delay : (steadyBoard.aim .hotend target).lineDelay = 10 := aimedSound.delay
  generalize later : ({ steadyBoard.aim .hotend target with
    clock := ((steadyBoard.aim .hotend target).clock.after silence).after
      (steadyBoard.aim .hotend target).lineDelay } : Board Float) = board at asked
  have time : board.clock.now = 20 + silence + 10 := by
    rw [← later, ← aimedNow, ← delay]
    rfl
  have hotend : board.heater .hotend = { steadyBoard.heater .hotend with target } := by
    rw [← later]
    exact aim_heater _ _ _
  have laterSound : Sound board := by
    rw [← later]
    exact (aimedSound.sleep silence).sleep _
  have reported : afterSilence line silence = board.updateHeaters :=
    (afterSilence_eq sets silence).trans asked
  have goal : (board.heater .hotend).effectiveTarget board.room = target := by
    rw [hotend, Heater.effectiveTarget]
    exact if_neg (by simp [set])
  have drift := laterSound.drift (board.updateHeaters_advances .hotend) (by rwa [goal])
  obtain ⟨drawn, advanced⟩ := board.updateHeaters_advances .hotend
  rw [reported]
  refine ⟨time, ?_, ?_⟩
  · rw [advanced, hotend]
    rfl
  · rw [goal, hotend, value] at drift
    rwa [Heater.elapsedSeconds, updated, time] at drift

section

variable {after elapsed : Float} (isElapsed : Elapsed elapsed)
  (long : 1000 ≤ worth elapsed)

include isElapsed long

/-- The hotend cools at its full rate, since no bound is left between ten and fifteen degrees. -/
theorem negative_after_cooling
    (drift : Drift (.standard .hotend) elapsed 10 20 after) : after < 0.0 := by
  have marks : (IsFinite (-1.0) ∧ worth (-1.0) = -1) ∧ IsFinite 15.0 ∧ worth 15.0 = 15 := by
    decide +kernel
  obtain ⟨⟨below, belowWorth⟩, middle, middleWorth⟩ := marks
  obtain ⟨zero, zeroWorth⟩ := literal_worths.1
  have fast : 17 / 256 ≤ worth (HeaterProfile.standard .hotend).coolRate := by decide +kernel
  cases drift with
  | initialized cold => norm_num at cold
  | heating _ far => norm_num at far
  | settled _ _ near => norm_num at near
  | approachingFromBelow _ _ below => norm_num at below
  | approachingFromAbove _ near =>
      have reached := near 15.0 middle (by rw [middleWorth]; norm_num)
      rw [middleWorth] at reached
      norm_num at reached
  | cooling _ _ rounded =>
      have way := long_way (Rate.standard .hotend).2.1 isElapsed fast long
      have fallen := rounded.le_worth below (by rw [belowWorth]; linarith)
      rw [lt_iff rounded.finite zero, zeroWorth]
      linarith

theorem overshoot_after_heating
    (drift : Drift (.standard .hotend) elapsed 60 20 after) : 62.0 < after := by
  have marks : (IsFinite 85.0 ∧ worth 85.0 = 85) ∧ (IsFinite 62.0 ∧ worth 62.0 = 62) ∧
      IsFinite 25.0 ∧ worth 25.0 = 25 := by
    decide +kernel
  obtain ⟨⟨high, highWorth⟩, ⟨limit, limitWorth⟩, middle, middleWorth⟩ := marks
  have fast : 17 / 256 ≤ worth (HeaterProfile.standard .hotend).heatRate := by decide +kernel
  cases drift with
  | initialized cold => norm_num at cold
  | cooling _ far => norm_num at far
  | settled _ _ near => norm_num [abs] at near
  | approachingFromAbove _ _ above => norm_num at above
  | approachingFromBelow _ near =>
      have reached := near 25.0 middle (by rw [middleWorth]; norm_num)
      rw [middleWorth] at reached
      norm_num at reached
  | heating _ _ rounded =>
      have way := long_way (Rate.standard .hotend).1.1 isElapsed fast long
      have risen := rounded.worth_le high (by rw [highWorth]; linarith)
      rw [lt_iff limit rounded.finite, limitWorth]
      linarith

end

def cooledBoard : Board Float := afterSilence "M104 S10" 1000000

def heatedBoard : Board Float := afterSilence "M104 S60" 1000000

/-- After a thousand seconds a cooling hotend is reported below zero, and a heating one is reported
more than two degrees above its target. -/
theorem silence_is_unphysical :
    (Reachable cooledBoard ∧ cooledBoard.clock.now = 1000030 ∧
        (IsFinite (cooledBoard.heater .hotend).target ∧
          worth (cooledBoard.heater .hotend).target = 10) ∧
        (cooledBoard.heater .hotend).value < 0.0) ∧
      Reachable heatedBoard ∧ heatedBoard.clock.now = 1000030 ∧
        (IsFinite (heatedBoard.heater .hotend).target ∧
          worth (heatedBoard.heater .hotend).target = 60) ∧
        62.0 < (heatedBoard.heater .hotend).value := by
  have toTen : SetsTo "M104 S10" .hotend (Quantity.ofNumeral ⟨false, 10, 0⟩ : Float) :=
    .of_numeral (by decide +kernel) (by decide +kernel) (show Numeral.read? ['1', '0'] = _ by rfl)
  have toSixty : SetsTo "M104 S60" .hotend (Quantity.ofNumeral ⟨false, 60, 0⟩ : Float) :=
    .of_numeral (by decide +kernel) (by decide +kernel) (show Numeral.read? ['6', '0'] = _ by rfl)
  have ten : IsFinite (Quantity.ofNumeral ⟨false, 10, 0⟩) ∧
      worth (Quantity.ofNumeral ⟨false, 10, 0⟩) = 10 ∧
      (Quantity.ofNumeral ⟨false, 10, 0⟩ == (0.0 : Float)) = false := by
    decide +kernel
  have sixty : IsFinite (Quantity.ofNumeral ⟨false, 60, 0⟩) ∧
      worth (Quantity.ofNumeral ⟨false, 60, 0⟩) = 60 ∧
      (Quantity.ofNumeral ⟨false, 60, 0⟩ == (0.0 : Float)) = false := by
    decide +kernel
  obtain ⟨tenNow, tenTarget, cools⟩ := afterSilence_drift toTen ten.1 ten.2.2 1000000
  obtain ⟨sixtyNow, sixtyTarget, heats⟩ := afterSilence_drift toSixty sixty.1 sixty.2.2 1000000
  rw [← cooledBoard] at tenNow tenTarget cools
  rw [← heatedBoard] at sixtyNow sixtyTarget heats
  have passed : elapsedBetween 10 (20 + 1000000 + 10) = 1000020 := by decide
  have isElapsed : Elapsed (Quantity.ofNat 1000020 / 1000.0) :=
    (elapsed_of_count (by norm_num)).1
  have long : 1000 ≤ worth (Quantity.ofNat 1000020 / 1000.0 : Float) :=
    thousand_seconds (by norm_num) (by norm_num)
  rw [passed, ten.2.1] at cools
  rw [passed, sixty.2.1] at heats
  generalize (Quantity.ofNat 1000020 / 1000.0 : Float) = elapsed at cools heats isElapsed long
  refine ⟨⟨afterSilence_reachable _ _, tenNow, ?_, negative_after_cooling isElapsed long cools⟩,
    afterSilence_reachable _ _, sixtyNow, ?_, overshoot_after_heating isElapsed long heats⟩
  · rw [tenTarget]
    exact ⟨ten.1, ten.2.1⟩
  · rw [sixtyTarget]
    exact ⟨sixty.1, sixty.2.1⟩

/-! Five seconds are not too long. -/

theorem inReach_of_cold {targets : HeaterId → List Float} {board : Board Float}
    (cold : ∀ id, ((board.heater id).value == 0.0) = true) : board.InReach targets := by
  intro id
  simp [Heater.course, Heater.regime, cold id, Course.InReach]

theorem Reports.timely {line : String} (reports : Reports line)
    {targets : HeaterId → List Float} {board : Board Float}
    (inReach : InReach targets ((Step.sleep board.lineDelay).apply board)) :
    board.Timely targets line :=
  ⟨fun _ => inReach, fun _ _ heats => nomatch reports.symm.trans heats.command⟩

theorem SetsTo.timely {line : String} {id : HeaterId} {target : Float}
    (sets : SetsTo line id target) (targets : HeaterId → List Float) (board : Board Float) :
    board.Timely targets line :=
  ⟨fun reports => (nomatch reports.symm.trans sets.command),
    fun _ _ heats => (nomatch sets.command.symm.trans heats.command)⟩

theorem Reports.targetsOf {line : String} (reports : Reports line) (board : Board Float)
    (id : HeaterId) : board.targetsOf line id = [] := by
  obtain ⟨⟨code, command⟩, found, rfl⟩ := Option.map_eq_some_iff.1 reports
  simp [Board.targetsOf, Plan.ofLine, found, Plan.ofCommand, Step.aimed?]

theorem SetsTo.targetsOf {line : String} {id : HeaterId} {target : Float}
    (sets : SetsTo line id target) (board : Board Float) (other : HeaterId) :
    board.targetsOf line other = if id = other then [target] else [] := by
  rw [Board.targetsOf, sets.plan board]
  by_cases same : id = other <;> simp [List.filterMap_cons, Step.aimed?, same]

namespace Attended

variable {σ : Type} {targets : HeaterId → List Float} {board : Board Float} {line : String}

theorem report (attended : Attended targets board) (reports : Reports line)
    (inReach : InReach targets ((Step.sleep board.lineDelay).apply board)) (host : Host σ)
    (patience : Nat) (state : σ) :
    Attended targets (process host patience line board state).board := by
  have same : (fun id => targets id ++ board.targetsOf line id) = targets :=
    funext fun id => by rw [reports.targetsOf, List.append_nil]
  have gentle : ∀ id, ∀ target ∈ board.targetsOf line id, Gentle target := by
    simp [reports.targetsOf]
  have reported := attended.line host patience line state gentle
    (reports.timely (by rw [same]; exact inReach))
  rwa [same] at reported

/-- The temperatures may be asked for whenever no heater was last updated more than six seconds
ago. -/
theorem report_of_prompt (attended : Attended targets board) (reports : Reports line)
    (prompt : ∀ id, worth ((board.heater id).elapsedSeconds
      (board.clock.now + board.lineDelay)) ≤ 6)
    (host : Host σ) (patience : Nat) (state : σ) :
    Attended targets (process host patience line board state).board :=
  attended.report reports ((attended.tame.sleep board.lineDelay).inReach_of_prompt prompt) host
    patience state

theorem set (attended : Attended targets board) {id : HeaterId} {target : Float}
    (sets : SetsTo line id target) (gentle : Gentle target) :
    Attended (fun other => targets other ++ if id = other then [target] else [])
      (board.aim id target) := by
  have allGentle : ∀ other, ∀ goal ∈ board.targetsOf line other, Gentle goal := by
    intro other goal member
    rw [sets.targetsOf] at member
    split at member <;> simp at member
    exact member ▸ gentle
  have aimed := attended.line Host.idle 0 line () allGentle (sets.timely _ board)
  rw [sets.process] at aimed
  simpa only [sets.targetsOf] using aimed

end Attended

theorem steadyBoard_attended : Attended (fun _ => []) steadyBoard := by
  have unset : ((0.0 : Float) == 0.0) = true := by decide +kernel
  have powered := Attended.powerUp (.cycle [0.0]) ⟨0⟩ fun index => by
    rw [cycle_single]
    constructor <;> decide +kernel
  exact powered.report reports_m105 (inReach_of_cold fun id => by cases id <;> exact unset)
    Host.idle 0 ()

theorem steadyBoard_updated (id : HeaterId) :
    (steadyBoard.heater id).lastUpdate = some 10 := by
  have updated : steadyBoard = (Board.powerUp .standard (.cycle [0.0]) ⟨10⟩).updateHeaters :=
    reports_m105.process Host.idle 0 _ ()
  rw [updated]
  cases id <;> rfl

/-- After five seconds the heating hotend is still below its target. -/
theorem afterSilence_physical :
    ∃ targets, Attended targets (afterSilence "M104 S60" 5000) ∧
      (∀ target ∈ targets .hotend, worth target = 60) ∧
      ∀ id, Physical (targets id) ((afterSilence "M104 S60" 5000).heater id).value := by
  have sets : SetsTo "M104 S60" .hotend (Quantity.ofNumeral ⟨false, 60, 0⟩ : Float) :=
    .of_numeral (by decide +kernel) (by decide +kernel) (show Numeral.read? ['6', '0'] = _ by rfl)
  have sixty : IsFinite (Quantity.ofNumeral ⟨false, 60, 0⟩) ∧
      worth (Quantity.ofNumeral ⟨false, 60, 0⟩) = 60 := by
    decide +kernel
  have short : worth (Quantity.ofNat 5020 / 1000.0 : Float) ≤ 6 := by decide +kernel
  generalize (Quantity.ofNumeral ⟨false, 60, 0⟩ : Float) = target at sets sixty
  have silent := (steadyBoard_attended.set sets
    ⟨sixty.1, .inr (by rw [sixty.2]; norm_num)⟩).pause 5000
  have reported := afterSilence_eq sets 5000
  generalize later : ({ steadyBoard.aim .hotend target with
    clock := (steadyBoard.aim .hotend target).clock.after 5000 } : Board Float) = board
      at silent reported
  have updated (id : HeaterId) : (board.heater id).lastUpdate = some 10 := by
    rw [← later]
    cases id with
    | hotend => exact steadyBoard_updated .hotend
    | bed => exact steadyBoard_updated .bed
  have now : board.clock.now + board.lineDelay = 5030 := by
    rw [← later]
    change steadyBoard.clock.now + steadyBoard.lineDelay + 5000 + steadyBoard.lineDelay = 5030
    rw [steadyBoard_hotend.2.2.2, steadyBoard_reachable.sound.delay]
    rfl
  have prompt (id : HeaterId) : worth ((board.heater id).elapsedSeconds
      (board.clock.now + board.lineDelay)) ≤ 6 := by
    rw [now, Heater.elapsedSeconds, updated]
    exact short
  have physical := silent.report_of_prompt reports_m105 prompt Host.idle 0 ()
  rw [← reported] at physical
  exact ⟨_, physical, by simp [sixty.2], (physical_while_attended physical).1⟩

end Board

end BenchPrinter
