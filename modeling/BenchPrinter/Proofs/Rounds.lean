import BenchPrinter.Proofs.Convergence
import BenchPrinter.Proofs.Footprint
import BenchPrinter.Proofs.Traces

/-!
What a blocking heat says and does in front of a willing host. Its reports show a run of both
heaters with one update for each interval that passes, and it ends at the first look that finds its
heater settled.
-/

namespace BenchPrinter

variable {α σ : Type} [Quantity α]

/-- Both heaters after an update at each of the times. They draw from one noise, the hotend first. -/
def Heaters.advanceAll (room : α) : List UInt64 → Heaters α → Noise α → Heaters α × Noise α
  | [], heaters, noise => (heaters, noise)
  | now :: later, heaters, noise =>
      let (hotend, leftByHotend) := heaters.hotend.advance room now noise
      let (bed, leftByBed) := heaters.bed.advance room now leftByHotend
      advanceAll room later ⟨hotend, bed⟩ leftByBed

theorem Heaters.advanceAll_concat (room : α) (times : List UInt64) (now : UInt64)
    (heaters : Heaters α) (noise : Noise α) :
    heaters.advanceAll room (times ++ [now]) noise =
      (heaters.advanceAll room times noise).1.advance room now
        (heaters.advanceAll room times noise).2 := by
  induction times generalizing heaters noise with
  | nil => rfl
  | cons first later inductionHypothesis => exact inductionHypothesis _ _

namespace Board

/-- The times of the first updates of a wait that begins now. -/
def updateTimes (board : Board α) (count : Nat) : List UInt64 :=
  (List.range count).map fun index => board.clock.now + (index + 1).toUInt64 * board.busyInterval

/-- The board once so many intervals have passed, with an update at the end of each. -/
def warmed (board : Board α) (count : Nat) : Board α :=
  let (heaters, noise) :=
    board.printer.heaters.advanceAll board.room (board.updateTimes count) board.noise
  { board with
    printer := { board.printer with heaters }
    noise
    clock := board.clock.after (count.toUInt64 * board.busyInterval) }

theorem succ_intervals (count : Nat) (interval : UInt64) :
    (count + 1).toUInt64 * interval = count.toUInt64 * interval + interval := by
  rw [Nat.toUInt64_eq, Nat.toUInt64_eq, UInt64.ofNat_add, UInt64.add_mul]
  simp

variable (board : Board α)

omit [Quantity α] in
theorem updateTimes_succ (count : Nat) : board.updateTimes (count + 1) =
    board.updateTimes count ++
      [board.clock.now + count.toUInt64 * board.busyInterval + board.busyInterval] := by
  rw [updateTimes, List.range_succ, List.map_append, List.map_singleton, succ_intervals,
    ← UInt64.add_assoc]
  rfl

theorem warmed_zero : board.warmed 0 = board := by
  obtain ⟨printer, room, noise, ⟨now⟩, busyInterval, lineDelay⟩ := board
  simp [warmed, updateTimes, Heaters.advanceAll, Clock.after]

theorem warmed_succ (count : Nat) : board.warmed (count + 1) = (board.warmed count).tick := by
  rw [warmed, updateTimes_succ, Heaters.advanceAll_concat, succ_intervals, Clock.after,
    ← UInt64.add_assoc]
  rfl

/-- An update for each interval is a run of ticks. -/
theorem warmed_eq (count : Nat) : board.warmed count = tick^[count] board := by
  induction count with
  | zero => exact board.warmed_zero
  | succ count inductionHypothesis =>
      rw [warmed_succ, inductionHypothesis, Function.iterate_succ_apply']

theorem warmed_round (count : Nat) : board.round.warmed count = board.warmed (count + 2) := by
  rw [warmed_eq, warmed_eq, round_eq_ticks]
  rfl

/-- What is reported after so many updates. -/
def report (count : Nat) : String :=
  Report.temperatures (board.warmed count).printer.heaters false

/-- What is seen of one round. -/
def roundActions (round : Nat) : List Action :=
  [.sent Report.busy, .slept board.busyInterval, .sent (board.report (2 * round + 1)),
    .slept board.busyInterval, .sent (board.report (2 * round + 2))]

theorem roundActions_round (count : Nat) :
    board.round.roundActions count = board.roundActions (count + 1) := by
  simp only [roundActions, report, warmed_round]
  rfl

theorem trace_waitingRound :
    trace (Step.waitingRound board.busyInterval) board = board.roundActions 0 := by
  simp only [roundActions, report, warmed_eq]
  rfl

/-- The steps are so many rounds of a wait, and the heater is not settled before any of them. -/
structure GoesInRounds (id : HeaterId) (steps : List (Step α)) (count : Nat) : Prop where
  reaches : board.afterSteps steps = board.warmed (2 * count)
  seen : trace steps board = (List.range count).flatMap board.roundActions
  unsettled : ∀ earlier < count, (board.warmed (2 * earlier)).isSettled id = false

namespace GoesInRounds

variable {board : Board α} {id : HeaterId}

theorem none : GoesInRounds board id [] 0 :=
  ⟨board.warmed_zero.symm, rfl, nofun⟩

theorem later {steps : List (Step α)} {count : Nat} (unsettled : board.isSettled id = false)
    (goes : GoesInRounds board.round id steps count) :
    GoesInRounds board id (Step.waitingRound board.busyInterval ++ steps) (count + 1) where
  reaches := by
    rw [afterSteps_append]
    exact goes.reaches.trans (board.warmed_round (2 * count))
  seen := by
    have shifted : (List.range count).flatMap board.round.roundActions =
        ((List.range count).map Nat.succ).flatMap board.roundActions := by
      rw [List.flatMap_map]
      exact congrArg (List.flatMap · _) (funext board.roundActions_round)
    rw [trace_append, trace_waitingRound, List.range_succ_eq_map, List.flatMap_cons, ← shifted]
    exact congrArg _ goes.seen
  unsettled
    | 0, _ => by
        rw [Nat.mul_zero, warmed_zero]
        exact unsettled
    | earlier + 1, fewer => by
        have before := goes.unsettled earlier (Nat.lt_of_succ_lt_succ fewer)
        rw [warmed_round] at before
        exact before

end GoesInRounds

variable {host : Host σ} {good : σ → Prop} {state : σ} {board} {line : String} {id : HeaterId}

/-- From the cold the hotend is settled at twenty-five degrees after five rounds. -/
example : ((exactBoard.aim .hotend 25).warmed 8).isSettled .hotend = false ∧
    ((exactBoard.aim .hotend 25).warmed 10).isSettled .hotend = true := by
  decide +kernel

end Board

end BenchPrinter
