import BenchPrinter.Proofs.Motion

/-!
A blocking heat comes to an end, with the heater at its target. The claim is about a board that
computes with rationals.
-/

namespace BenchPrinter

/-- One busy interval in seconds. -/
def Board.interval {α : Type} (board : Board α) : Rat := board.busyInterval.toNat / 1000

/-- Everything that a wait for the heater relies on, and that the wait leaves alone. -/
structure Warming (id : HeaterId) (board : Board Rat) : Prop where
  roomy : 0 < board.room
  unit : ∀ index, 0 ≤ board.noise.sample index ∧ board.noise.sample index < 1
  tame : (board.heater id).profile.Tame board.interval
  aimed : 2 < (board.heater id).effectiveTarget board.room

namespace Warming

variable {id : HeaterId} {board : Board Rat}

theorem tick (warming : Warming id board) : Warming id board.tick where
  roomy := warming.roomy
  unit := by
    rw [Board.tick_sample]
    exact warming.unit
  tame := by
    rw [Board.tick_profile]
    exact warming.tame
  aimed := by
    rw [Board.tick_room, Board.tick_effectiveTarget]
    exact warming.aimed

end Warming

/-- From the first tick on the heater was last updated when the time is now. -/
structure Underway (id : HeaterId) (board : Board Rat) : Prop extends Warming id board where
  stamped : (board.heater id).lastUpdate = some board.clock.now

namespace Underway

variable {id : HeaterId} {board : Board Rat}

theorem tick (warming : Warming id board) : Underway id board.tick :=
  ⟨warming.tick, board.tick_lastUpdate id⟩

/-- In each tick the heater makes a motion of one interval, or of no time when the clock wraps. -/
theorem motion (underway : Underway id board) :
    ∃ elapsed, (elapsed = board.interval ∨
        elapsed = 0 ∧ board.tick.clock.now.toNat < board.clock.now.toNat) ∧
      Motion board.room ((board.heater id).effectiveTarget board.room) elapsed
        (board.heater id).profile (board.heater id).value (board.tick.heater id).value := by
  have update := Heater.motion_of_advances (board.tick_advances id) underway.unit
  refine ⟨_, ?_, update⟩
  rw [Heater.elapsedSeconds, underway.stamped]
  simp only [Heater.seconds_eq]
  rcases Board.elapsed_of_interval board.clock.now board.busyInterval with passed | ⟨none, wraps⟩
  · exact .inl (by rw [passed, Board.interval])
  · exact .inr ⟨by simp [none], wraps⟩

theorem remains (underway : Underway id board) (settled : board.isSettled id = true) :
    board.tick.isSettled id = true := by
  obtain ⟨elapsed, short, motion⟩ := underway.motion
  have near := (Heater.isSettled_iff_near board.room (board.heater id)).1 settled
  have still := motion.remains underway.tame (short.symm.imp_left And.left) underway.aimed near
  apply (Heater.isSettled_iff_near board.room (board.tick.heater id)).2
  rw [Board.tick_effectiveTarget]
  exact still

def rank (id : HeaterId) (board : Board Rat) : Nat × Nat × Nat :=
  Motion.rank (Motion.pace (board.heater id).profile board.interval)
    ((board.heater id).effectiveTarget board.room) (board.heater id).value board.clock.now

theorem rank_tick (board : Board Rat) : rank id board.tick =
    Motion.rank (Motion.pace (board.heater id).profile board.interval)
      ((board.heater id).effectiveTarget board.room) (board.tick.heater id).value
      board.tick.clock.now := by
  simp only [rank, Board.tick_room, Board.tick_effectiveTarget, Board.tick_profile]
  rfl

/-- A tick either settles the heater or lowers its rank. -/
theorem approaches (underway : Underway id board) (unsettled : board.isSettled id = false) :
    board.tick.isSettled id = true ∨ Motion.Lower (rank id board.tick) (rank id board) := by
  obtain ⟨elapsed, short, motion⟩ := underway.motion
  have apart : ¬ |(board.heater id).value - (board.heater id).effectiveTarget board.room| ≤ 2 := by
    intro near
    have settled := (Heater.isSettled_iff_near board.room (board.heater id)).2 near
    exact absurd (settled.symm.trans unsettled) (by simp)
  rw [rank_tick, rank]
  rcases short with rfl | ⟨rfl, wraps⟩
  · have approach := motion.approaches underway.tame underway.roomy underway.aimed apart
    rcases approach with near | lower | ⟨level, nearer⟩
    · left
      apply (Heater.isSettled_iff_near board.room (board.tick.heater id)).2
      rw [Board.tick_effectiveTarget]
      exact near
    · exact .inr (Motion.lower_of_stage lower)
    · exact .inr (Motion.lower_of_nearer (Motion.pace_pos underway.tame) level nearer)
  · rcases motion.rests underway.roomy apart with lower | same
    · exact .inr (Motion.lower_of_stage lower)
    · exact .inr (Motion.lower_of_rest same wraps)

/-- A settled heater stays settled, and any other comes nearer. -/
theorem advances (underway : Underway id board) :
    board.tick.isSettled id = true ∧
        (board.isSettled id = true ∨ board.tick.tick.isSettled id = true) ∨
      Underway id board.tick ∧ Motion.Lower (rank id board.tick) (rank id board) := by
  have next : Underway id board.tick := tick underway.toWarming
  cases settled : board.isSettled id with
  | true => exact .inl ⟨underway.remains settled, .inl rfl⟩
  | false =>
      rcases underway.approaches settled with reached | lower
      · exact .inl ⟨reached, .inr (next.remains reached)⟩
      · exact .inr ⟨next, lower⟩

end Underway

/-- Whatever the heater was when the wait begins, the wait ends. -/
theorem Warming.settles {id : HeaterId} {board : Board Rat} (warming : Warming id board) :
    ∃ final, Board.Settles id board final :=
  Board.settles_of_progress Motion.lower_wellFounded (Underway.rank id) (Underway id)
    (fun _ => Underway.advances) (.tick warming)

namespace Board

variable {σ : Type} {host : Host σ} {good : σ → Prop}

/-- A blocking heat with a target of more than two degrees is answered, and then the heater is
within two degrees of its target. -/
theorem heatAndWait_converges (willing : host.Willing good) {state : σ} (start : good state)
    {board : Board Rat} {id : HeaterId} {line : String} {target : Rat}
    (heats : HeatsTo line id target)
    (roomy : 0 < board.room)
    (unit : ∀ index, 0 ≤ board.noise.sample index ∧ board.noise.sample index < 1)
    (tame : (board.heater id).profile.Tame board.interval)
    (aimed : 2 < { board.heater id with target }.effectiveTarget board.room) :
    ∃ final after actions,
      Completes host line board state ⟨.ok "", final, after, actions⟩ ∧
      (final.heater id).effectiveTarget final.room =
        { board.heater id with target }.effectiveTarget board.room ∧
      |(final.heater id).value - (final.heater id).effectiveTarget final.room| ≤ 2 := by
  have warming : Warming id (board.aim id target) := by
    refine ⟨roomy, unit, ?_, ?_⟩
    · rw [aim_heater]
      exact tame
    · rw [aim_heater]
      exact aimed
  obtain ⟨final, settles⟩ := warming.settles
  obtain ⟨after, actions, -, completes⟩ := heats.completes_of_settles willing start settles
  refine ⟨final, after, actions, completes, ?_, ?_⟩
  · rw [settles.effectiveTarget, aim_heater]
    rfl
  · exact (Heater.isSettled_iff_near final.room (final.heater id)).1 settles.settled

/-- A board with exact temperatures that has just been powered up. -/
def exactBoard : Board Rat := .powerUp .standard (.cycle []) ⟨0⟩

theorem exactBoard_converges_to_sixty :
    ∃ final after actions,
      Completes Host.idle "M109 S60" exactBoard () ⟨.ok "", final, after, actions⟩ ∧
      (final.heater .hotend).effectiveTarget final.room =
        { exactBoard.heater .hotend with target := 60 }.effectiveTarget exactBoard.room ∧
      |(final.heater .hotend).value - (final.heater .hotend).effectiveTarget final.room| ≤ 2 := by
  have heats : HeatsTo "M109 S60" .hotend (60 : Rat) := ⟨by rfl, by decide +kernel⟩
  have half (index : Nat) : exactBoard.noise.sample index = 1 / 2 := by
    change ([][index % 0]?).getD (0.5 : Rat) = 1 / 2
    norm_num
  have unit (index : Nat) :
      0 ≤ exactBoard.noise.sample index ∧ exactBoard.noise.sample index < 1 := by
    rw [half]
    norm_num
  have tame : (exactBoard.heater .hotend).profile.Tame exactBoard.interval := by
    constructor <;> decide +kernel
  exact heatAndWait_converges Host.idle_willing trivial heats (by decide +kernel) unit tame
    (by decide +kernel)

end Board

end BenchPrinter
