import BenchPrinter.Proofs.Willing

/-!
Waiting as a run of ticks. In a tick one busy interval passes and the heaters are brought up to the
time; a round of waiting is two ticks, and the heater is looked at before each round.
-/

namespace BenchPrinter.Board

variable {α : Type} [Quantity α]

omit [Quantity α] in
def heater (board : Board α) (id : HeaterId) : Heater α :=
  board.printer.heaters.get id

@[simp] theorem updateHeaters_room (board : Board α) : board.updateHeaters.room = board.room := rfl

@[simp] theorem updateHeaters_clock (board : Board α) :
    board.updateHeaters.clock = board.clock := rfl

@[simp] theorem updateHeaters_busyInterval (board : Board α) :
    board.updateHeaters.busyInterval = board.busyInterval := rfl

/-- What a heater becomes when it is advanced with one of the samples of the stream. -/
def Advances (room : α) (samples : Nat → α) (now : UInt64) (heater after : Heater α) : Prop :=
  ∃ drawn, after = (heater.advance room now ⟨samples, drawn⟩).1

/-- The temperature after an update. Each kind of update carries the guards that lead to it. -/
inductive Update (room target elapsed : α) (samples : Nat → α) (profile : HeaterProfile α)
    (value : α) : α → Prop where
  | initialized (drawn : Nat) (cold : (value == 0.0) = true) :
      Update room target elapsed samples profile value (room + samples drawn * 5.0 / 2.0)
  | heating (warm : (value == 0.0) = false) (farBelow : value + 5.0 < target) :
      Update room target elapsed samples profile value (value + profile.heatRate * elapsed)
  | cooling (warm : (value == 0.0) = false) (notBelow : ¬ value + 5.0 < target)
      (farAbove : target < value - 5.0) :
      Update room target elapsed samples profile value (value - profile.coolRate * elapsed)
  | settled (drawn : Nat) (warm : (value == 0.0) = false) (notBelow : ¬ value + 5.0 < target)
      (notAbove : ¬ target < value - 5.0) (near : Quantity.magnitude (value - target) < 2.0) :
      Update room target elapsed samples profile value
        (target + profile.noise * (samples drawn - 0.5))
  | approachingFromBelow (warm : (value == 0.0) = false) (notBelow : ¬ value + 5.0 < target)
      (notAbove : ¬ target < value - 5.0) (apart : ¬ Quantity.magnitude (value - target) < 2.0)
      (below : value < target) :
      Update room target elapsed samples profile value (value + profile.heatRate / 3.0 * elapsed)
  | approachingFromAbove (warm : (value == 0.0) = false) (notBelow : ¬ value + 5.0 < target)
      (notAbove : ¬ target < value - 5.0) (apart : ¬ Quantity.magnitude (value - target) < 2.0)
      (above : ¬ value < target) :
      Update room target elapsed samples profile value (value - profile.coolRate / 3.0 * elapsed)

theorem Advances.update {room : α} {samples : Nat → α} {now : UInt64} {heater after : Heater α}
    (advances : Advances room samples now heater after) :
    Update room (heater.effectiveTarget room) (heater.elapsedSeconds now) samples heater.profile
      heater.value after.value := by
  obtain ⟨drawn, rfl⟩ := advances
  simp only [Heater.advance, Heater.step, Heater.regime]
  cases cold : heater.value == 0.0 with
  | true => exact .initialized drawn cold
  | false =>
      by_cases farBelow : heater.value + 5.0 < heater.effectiveTarget room
      · simpa [farBelow] using .heating cold farBelow
      by_cases farAbove : heater.effectiveTarget room < heater.value - 5.0
      · simpa [farBelow, farAbove] using .cooling cold farBelow farAbove
      by_cases near : Quantity.magnitude (heater.value - heater.effectiveTarget room) < 2.0
      · simpa [farBelow, farAbove, near] using .settled drawn cold farBelow farAbove near
      by_cases below : heater.value < heater.effectiveTarget room
      · simpa [farBelow, farAbove, near, below] using
          .approachingFromBelow cold farBelow farAbove near below
      · simpa [farBelow, farAbove, near, below] using
          .approachingFromAbove cold farBelow farAbove near below

theorem sample_of_advance (heater : Heater α) (room : α) (now : UInt64) (noise : Noise α) :
    (heater.advance room now noise).2.sample = noise.sample := by
  simp only [Heater.advance, Heater.step]
  split <;> rfl

@[simp] theorem updateHeaters_sample (board : Board α) :
    board.updateHeaters.noise.sample = board.noise.sample := by
  simp [updateHeaters, Heaters.advance, sample_of_advance]

theorem updateHeaters_advances (board : Board α) (id : HeaterId) :
    Advances board.room board.noise.sample board.clock.now (board.heater id)
      (board.updateHeaters.heater id) := by
  cases id with
  | hotend => exact ⟨board.noise.drawn, rfl⟩
  | bed =>
      have same := sample_of_advance board.printer.heaters.hotend board.room board.clock.now
        board.noise
      refine ⟨(board.printer.heaters.hotend.advance board.room board.clock.now
        board.noise).2.drawn, ?_⟩
      rw [← same]
      rfl

/-- One interval passes, and then the heaters are brought up to the time. -/
def tick (board : Board α) : Board α :=
  updateHeaters { board with clock := board.clock.after board.busyInterval }

theorem round_eq_ticks (board : Board α) : board.round = board.tick.tick := rfl

@[simp] theorem tick_room (board : Board α) : board.tick.room = board.room := rfl

@[simp] theorem tick_busyInterval (board : Board α) :
    board.tick.busyInterval = board.busyInterval := rfl

@[simp] theorem tick_now (board : Board α) :
    board.tick.clock.now = board.clock.now + board.busyInterval := rfl

@[simp] theorem tick_sample (board : Board α) : board.tick.noise.sample = board.noise.sample :=
  updateHeaters_sample _

theorem tick_advances (board : Board α) (id : HeaterId) :
    Advances board.room board.noise.sample (board.clock.now + board.busyInterval)
      (board.heater id) (board.tick.heater id) :=
  updateHeaters_advances { board with clock := board.clock.after board.busyInterval } id

@[simp] theorem tick_target (board : Board α) (id : HeaterId) :
    (board.tick.heater id).target = (board.heater id).target := by
  obtain ⟨drawn, advanced⟩ := tick_advances board id
  rw [advanced]
  rfl

@[simp] theorem tick_profile (board : Board α) (id : HeaterId) :
    (board.tick.heater id).profile = (board.heater id).profile := by
  obtain ⟨drawn, advanced⟩ := tick_advances board id
  rw [advanced]
  rfl

@[simp] theorem tick_lastUpdate (board : Board α) (id : HeaterId) :
    (board.tick.heater id).lastUpdate = some (board.clock.now + board.busyInterval) := by
  obtain ⟨drawn, advanced⟩ := tick_advances board id
  rw [advanced]
  rfl

@[simp] theorem tick_effectiveTarget (board : Board α) (id : HeaterId) :
    (board.tick.heater id).effectiveTarget board.room =
      (board.heater id).effectiveTarget board.room := by
  rw [Heater.effectiveTarget, Heater.effectiveTarget, tick_target]

/-- An interval that makes the clock wrap counts as no time. -/
theorem elapsed_of_interval (now interval : UInt64) :
    elapsedBetween now (now + interval) = interval.toNat ∨
      elapsedBetween now (now + interval) = 0 ∧ (now + interval).toNat < now.toNat := by
  have first := now.toNat_lt
  have second := interval.toNat_lt
  rw [elapsedBetween, UInt64.toNat_add]
  omega

/-- What every tick keeps, the whole wait keeps. -/
theorem Settles.keeps {id : HeaterId} {board final : Board α} (settles : Settles id board final)
    (property : Board α → Prop) (stays : ∀ board, property board → property board.tick)
    (start : property board) : property final := by
  induction settles with
  | reached => exact start
  | later _ _ inductionHypothesis =>
      apply inductionHypothesis
      rw [round_eq_ticks]
      exact stays _ (stays _ start)

theorem Settles.effectiveTarget {id : HeaterId} {board final : Board α}
    (settles : Settles id board final) :
    (final.heater id).effectiveTarget final.room =
      (board.heater id).effectiveTarget board.room := by
  refine settles.keeps (fun later => (later.heater id).effectiveTarget later.room =
    (board.heater id).effectiveTarget board.room) ?_ rfl
  intro later same
  rw [tick_room, tick_effectiveTarget, same]

/-- A wait ends when every tick lowers a measure, or settles the heater for two looks in a row. The
heater is looked at after every second tick only, so one look is not enough. -/
theorem settles_of_progress {id : HeaterId} {Measure : Type} {less : Measure → Measure → Prop}
    (wellFounded : WellFounded less) (measure : Board α → Measure) (keeps : Board α → Prop)
    (advances : ∀ board, keeps board →
      board.tick.isSettled id = true ∧
          (board.isSettled id = true ∨ board.tick.tick.isSettled id = true) ∨
        keeps board.tick ∧ less (measure board.tick) (measure board))
    {board : Board α} (start : keeps board.tick) : ∃ final, Settles id board final := by
  induction board using
      (InvImage.wf (fun board : Board α => measure board.tick) wellFounded.transGen).induction with
  | _ board inductionHypothesis =>
      cases settled : board.isSettled id with
      | true => exact ⟨board, .reached settled⟩
      | false =>
          obtain ⟨final, settles⟩ : ∃ final, Settles id board.round final := by
            rw [round_eq_ticks]
            cases looked : board.tick.tick.isSettled id with
            | true => exact ⟨_, .reached looked⟩
            | false =>
                rcases advances board.tick start with ⟨first, -⟩ | ⟨kept, lower⟩
                · exact absurd first (by simp [looked])
                rcases advances board.tick.tick kept with ⟨-, second⟩ | ⟨keptOn, lowest⟩
                · rw [looked] at second
                  exact ⟨_, .later looked (.reached (second.resolve_left (by simp)))⟩
                · exact inductionHypothesis _ (.tail (.single lowest) lower) keptOn
          exact ⟨final, .later settled settles⟩

/-- The line is a blocking heat of the heater, and it carries the temperature. -/
structure HeatsTo (line : String) (id : HeaterId) (target : α) : Prop where
  command : (Command.find? line.toList).map Prod.snd = some (.heatAndWait id)
  carried : Words.waitTarget? line.toList = some target

/-- The board once the delay of the line has passed and the heater has its target. -/
def aim (id : HeaterId) (target : α) (board : Board α) : Board α :=
  (Step.aim id target).apply ((Step.sleep board.lineDelay).apply board)

@[simp] theorem aim_heater (board : Board α) (id : HeaterId) (target : α) :
    (board.aim id target).heater id = { board.heater id with target } := by
  cases id <;> rfl

theorem aim_effectiveTarget (board : Board α) (id : HeaterId) {target : α}
    (set : (target == (0.0 : α)) = false) :
    ((board.aim id target).heater id).effectiveTarget (board.aim id target).room = target := by
  rw [aim_heater, Heater.effectiveTarget]
  exact if_neg (by rw [set]; simp)

theorem HeatsTo.of_numeral {line : String} {id : HeaterId}
    {text : List Char} {numeral : Numeral}
    (command : (Command.find? line.toList).map Prod.snd = some (.heatAndWait id))
    (found : findWord? ['S', 'R'] .unsigned line.toList = some text)
    (read : Numeral.read? text = some numeral) :
    HeatsTo line id (Quantity.ofNumeral numeral : α) := by
  refine ⟨command, ?_⟩
  rw [Words.waitTarget?, Words.value?, found]
  simp only [read, Option.map_some]

theorem HeatsTo.plan {line : String} {id : HeaterId} {target : α} (heats : HeatsTo line id target)
    (board : Board α) :
    Plan.ofLine board line = ⟨[.sleep board.lineDelay, .aim id target], some id, .silence⟩ := by
  obtain ⟨⟨code, command⟩, found, rfl⟩ := Option.map_eq_some_iff.1 heats.command
  simp [Plan.ofLine, found, Plan.ofCommand, Plan.heatAndWait, heats.carried]

/-- A blocking heat is answered with silence once its wait ends. -/
theorem HeatsTo.completes_of_settles {σ : Type} {host : Host σ} {good : σ → Prop}
    (willing : host.Willing good) {state : σ} (start : good state) {line : String} {id : HeaterId}
    {target : α} (heats : HeatsTo line id target) {board final : Board α}
    (settles : Settles id (board.aim id target) final) :
    ∃ after actions, good after ∧
      Completes host line board state ⟨.ok "", final, after, actions⟩ := by
  have ends : EndsWait (Plan.ofLine board line).waitsFor
      (board.afterSteps (Plan.ofLine board line).steps) final := by
    rw [heats.plan board]
    exact settles
  have answer : (Plan.ofLine board line).reply.render final = "" := by
    rw [heats.plan board]
    rfl
  rw [← answer]
  exact completes_of_endsWait willing ends start

end BenchPrinter.Board

namespace BenchPrinter

theorem Step.apply_aim_heater {α : Type} [Quantity α] (board : Board α) (id other : HeaterId)
    (target : α) : ((Step.aim id target).apply board).heater other =
      if other = id then { board.heater id with target } else board.heater other := by
  cases id <;> cases other <;> rfl

/-- Only a blocking heat that carries a temperature waits. -/
theorem Plan.waits_or_not {α : Type} [Quantity α] (board : Board α) (line : String) :
    (Plan.ofLine board line).waitsFor = none ∨ ∃ id target, Board.HeatsTo (α := α) line id target := by
  unfold Plan.ofLine
  split
  · rename_i entry found
    cases named : entry.2 with
    | heatAndWait id =>
        cases carried : Words.waitTarget? (α := α) line.toList with
        | some target => exact .inr ⟨id, target, by rw [found, Option.map_some, named], carried⟩
        | none => exact .inl (by simp [ofCommand, heatAndWait, carried, ofReply])
    | feedRate =>
        left
        simp only [ofCommand]
        split <;> rfl
    | setTarget id =>
        left
        simp only [ofCommand]
        split <;> rfl
    | home | probeBed | linearMove | axisMode | reportTemperatures | reportPosition | fanOn
    | fanOff => exact .inl rfl
  · exact .inl rfl

end BenchPrinter
