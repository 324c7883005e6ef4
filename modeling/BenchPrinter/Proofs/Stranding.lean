import BenchPrinter.Proofs.Band
import BenchPrinter.Proofs.Motion

/-!
Which lines a board with the standard settings answers. A blocking heat is answered unless its first
tick leaves the heater stranded; every other line is answered.
-/

namespace BenchPrinter

open Double

namespace Board

/-- The heater is outside its band, and no run of ticks brings it there. -/
def Stranded (id : HeaterId) (board : Board Float) : Prop :=
  board.isSettled id = false ∧
    Strands id ((board.heater id).effectiveTarget board.room) (board.heater id).value

instance (id : HeaterId) (board : Board Float) : Decidable (board.Stranded id) :=
  inferInstanceAs (Decidable (_ ∧ _))

/-- From the first tick on the heater was last updated when the time is now. -/
structure Ticking (id : HeaterId) (board : Board Float) : Prop extends Sound board where
  stamped : (board.heater id).lastUpdate = some board.clock.now

end Board

theorem Sound.ticking {board : Board Float} (sound : Sound board) (id : HeaterId) :
    board.tick.Ticking id :=
  ⟨sound.tick, board.tick_lastUpdate id⟩

/-- An endless target is never reached. -/
theorem Sound.stranded_of_endless {board : Board Float} (sound : Sound board) {id : HeaterId}
    (endless : Endless ((board.heater id).effectiveTarget board.room)) : board.Stranded id := by
  have finite := sound.value id
  have two := literal_worths.2.2.1.1
  refine ⟨?_, .inl ⟨endless.gt finite, .inl (endless.gt id.hottest_worth.1)⟩⟩
  rw [Bool.eq_false_iff, ne_eq, board.isSettled_iff_within]
  exact fun within => (endless.sub two).not_le finite within.1

namespace Board.Ticking

variable {id : HeaterId} {board : Board Float}

/-- In each tick one second passes, or no time when the clock wraps. -/
theorem seconds (ticking : board.Ticking id) :
    worth ((board.heater id).elapsedSeconds board.tick.clock.now) = 1 ∨
      worth ((board.heater id).elapsedSeconds board.tick.clock.now) = 0 ∧
        board.tick.clock.now.toNat < board.clock.now.toNat := by
  have counts : worth (Quantity.ofNat 1000 / 1000.0) = 1 ∧ worth (Quantity.ofNat 0 / 1000.0) = 0 := by
    decide +kernel
  have interval : board.busyInterval.toNat = 1000 := by
    rw [ticking.interval]
    rfl
  rw [Heater.elapsedSeconds, ticking.stamped, tick_now]
  rcases elapsed_of_interval board.clock.now board.busyInterval with passed | ⟨nothing, wraps⟩
  · rw [interval] at passed
    simp only [passed]
    exact .inl counts.1
  · simp only [nothing]
    exact .inr ⟨counts.2, wraps⟩

theorem drift (ticking : board.Ticking id)
    (finite : IsFinite ((board.heater id).effectiveTarget board.room)) :
    Drift (.standard id) ((board.heater id).elapsedSeconds board.tick.clock.now)
      (worth ((board.heater id).effectiveTarget board.room)) (worth (board.heater id).value)
      (board.tick.heater id).value :=
  ticking.toSound.drift (board.tick_advances id) finite

/-- A stranded heater is still stranded after a tick. -/
theorem stays_stranded (ticking : board.Ticking id) (stranded : board.Stranded id) :
    board.tick.Stranded id := by
  obtain ⟨unsettled, strands⟩ := stranded
  rcases ticking.effectiveTarget id with ⟨targetFinite, positive⟩ | endless
  · have drift := ticking.drift targetFinite
    have isElapsed := elapsed_of_heater (board.heater id) board.tick.clock.now
    have finite := ticking.value id
    rw [Bool.eq_false_iff, ne_eq, isSettled_iff_within] at unsettled
    rw [Stranded, Bool.eq_false_iff, ne_eq, isSettled_iff_within, tick_room, tick_effectiveTarget]
    rcases ticking.seconds with second | ⟨nothing, -⟩
    · exact drift.stays_stranded isElapsed finite targetFinite second positive unsettled strands
    by_cases cold : worth (board.heater id).value = 0
    · have one : Elapsed 1.0 ∧ worth 1.0 = 1 := ⟨⟨by decide +kernel, by decide +kernel,
        by decide +kernel⟩, by decide +kernel⟩
      -- a heater at zero becomes the same whatever time has passed
      have initialized : Drift (.standard id) 1.0
          (worth ((board.heater id).effectiveTarget board.room)) (worth (board.heater id).value)
          (board.tick.heater id).value := by
        cases drift with
        | initialized cold finite low high => exact .initialized cold finite low high
        | heating warm | cooling warm | settled _ warm | approachingFromBelow warm
        | approachingFromAbove warm => exact absurd cold warm
      exact initialized.stays_stranded one.1 finite targetFinite one.2 positive unsettled strands
    · have same := drift.rests isElapsed finite targetFinite nothing cold unsettled
      exact stays_stranded_of_same finite targetFinite drift.finite same unsettled strands
  · apply ticking.tick.stranded_of_endless
    rw [tick_room, tick_effectiveTarget]
    exact endless

end Board.Ticking

/-- The wait for a stranded heater does not end. -/
theorem not_settles_of_stranded {id : HeaterId} {board final : Board Float} (sound : Sound board)
    (unsettled : board.isSettled id = false) (stranded : board.tick.Stranded id) :
    ¬ Board.Settles id board final := by
  intro settles
  induction settles with
  | reached settled => exact absurd settled (by simp [unsettled])
  | later _ _ inductionHypothesis =>
      have once := (sound.ticking id).stays_stranded stranded
      have twice := (sound.tick.ticking id).stays_stranded once
      rw [Board.round_eq_ticks] at inductionHypothesis
      exact inductionHypothesis sound.tick.tick once.1 twice

/-- A heater at zero that is not heated too far is not stranded by its first tick. -/
theorem Sound.free_of_cold {id : HeaterId} {board : Board Float} (sound : Sound board)
    (targetFinite : IsFinite ((board.heater id).effectiveTarget board.room))
    (reachable : worth ((board.heater id).effectiveTarget board.room) ≤ reach id.nearGrid + 2)
    (cold : worth (board.heater id).value = 0) :
    ¬ board.tick.Stranded id ∧ 0 < worth (board.tick.heater id).value := by
  have wide := reach_pos id.farGrid
  cases sound.drift (board.tick_advances id) targetFinite with
  | heating warm | cooling warm | settled _ warm | approachingFromBelow warm
  | approachingFromAbove warm => exact absurd cold warm
  | initialized _ finite low high =>
      constructor
      · rintro ⟨-, strands⟩
        rw [Board.tick_room, Board.tick_effectiveTarget, strands_iff finite targetFinite] at strands
        rcases strands with ⟨-, hot | deep⟩ | ⟨-, high, -⟩ <;> linarith
      · linarith

namespace Board.Ticking

variable {id : HeaterId} {board : Board Float}

def rank (id : HeaterId) (board : Board Float) : Nat × Nat × Nat :=
  Motion.rank (1 / 256) (worth ((board.heater id).effectiveTarget board.room))
    (worth (board.heater id).value) board.clock.now

theorem rank_tick (board : Board Float) : rank id board.tick =
    Motion.rank (1 / 256) (worth ((board.heater id).effectiveTarget board.room))
      (worth (board.tick.heater id).value) board.tick.clock.now := by
  simp only [rank, tick_room, tick_effectiveTarget]

theorem tick_settled_iff (id : HeaterId) : board.tick.isSettled id = true ↔
    Within ((board.heater id).effectiveTarget board.room) (board.tick.heater id).value := by
  rw [isSettled_iff_within, tick_room, tick_effectiveTarget]

/-- The band holds a heater that is not at zero. -/
theorem remains (ticking : board.Ticking id)
    (targetFinite : IsFinite ((board.heater id).effectiveTarget board.room))
    (warm : worth (board.heater id).value ≠ 0) (settled : board.isSettled id = true) :
    board.tick.isSettled id = true := by
  have short : worth ((board.heater id).elapsedSeconds board.tick.clock.now) ≤ 1 := by
    rcases ticking.seconds with second | ⟨nothing, -⟩ <;> linarith
  rw [isSettled_iff_within] at settled
  rw [tick_settled_iff]
  exact (ticking.drift targetFinite).remains (elapsed_of_heater _ _) (ticking.value id)
    targetFinite short warm settled

/-- A heater that is not stranded can be heated to its target. -/
theorem target_le (ticking : board.Ticking id) (free : ¬ board.Stranded id)
    (targetFinite : IsFinite ((board.heater id).effectiveTarget board.room))
    (positive : 0 < worth ((board.heater id).effectiveTarget board.room))
    (cold : worth (board.heater id).value = 0) :
    worth ((board.heater id).effectiveTarget board.room) ≤ reach id.nearGrid + 2 := by
  have finite := ticking.value id
  cases settled : board.isSettled id with
  | true =>
      rw [isSettled_iff_within] at settled
      have close := (abs_le.1 (close_of_within finite targetFinite settled)).1
      obtain ⟨wide, -⟩ := id.reach_bounds
      linarith
  | false =>
      by_contra hot
      refine free ⟨settled, (strands_iff finite targetFinite).2 (.inl ⟨by linarith, .inl ?_⟩)⟩
      exact not_le.1 hot

/-- A heater at zero is at the temperature of the room after a tick, and it is free there. -/
theorem advances_of_cold (ticking : board.Ticking id) (free : ¬ board.Stranded id)
    (targetFinite : IsFinite ((board.heater id).effectiveTarget board.room))
    (positive : 0 < worth ((board.heater id).effectiveTarget board.room))
    (cold : worth (board.heater id).value = 0) :
    ¬ board.tick.Stranded id ∧ Motion.Lower (rank id board.tick) (rank id board) := by
  have reachable := ticking.target_le free targetFinite positive cold
  obtain ⟨stillFree, warm⟩ := ticking.toSound.free_of_cold targetFinite reachable cold
  constructor
  · exact stillFree
  · rw [rank_tick, rank]
    apply Motion.lower_of_stage
    rw [Motion.stage_of_pos warm, cold]
    decide

/-- What a second does to a heater that is outside its band and not stranded. -/
theorem advances_of_second (ticking : board.Ticking id)
    (targetFinite : IsFinite ((board.heater id).effectiveTarget board.room))
    (positive : 0 < worth ((board.heater id).effectiveTarget board.room))
    (warm : worth (board.heater id).value ≠ 0)
    (apart : ¬ Within ((board.heater id).effectiveTarget board.room) (board.heater id).value)
    (free : ¬ Strands id ((board.heater id).effectiveTarget board.room) (board.heater id).value)
    (second : worth ((board.heater id).elapsedSeconds board.tick.clock.now) = 1) :
    (board.tick.isSettled id = true ∧ worth (board.tick.heater id).value ≠ 0) ∨
      ¬ board.tick.Stranded id ∧ Motion.Lower (rank id board.tick) (rank id board) := by
  have finite := ticking.value id
  have isElapsed := elapsed_of_heater (board.heater id) board.tick.clock.now
  have drift := ticking.drift targetFinite
  have afterFinite := drift.finite
  have settles : Within ((board.heater id).effectiveTarget board.room)
      (board.tick.heater id).value → board.tick.isSettled id = true := (tick_settled_iff id).2
  rw [rank_tick, rank, Stranded, tick_room, tick_effectiveTarget]
  generalize (board.heater id).effectiveTarget board.room = target at *
  generalize (board.tick.heater id).value = after at *
  rcases outside finite targetFinite apart with ⟨below, -⟩ | ⟨above, -⟩
  · obtain ⟨risen, short⟩ :=
      drift.rises isElapsed finite targetFinite second positive warm below free
    by_cases within : Within target after
    · by_cases cold : worth after = 0
      · refine .inr ⟨fun stranded => absurd (settles within) (by simp [stranded.1]), ?_⟩
        have negative : worth (board.heater id).value < 0 := by linarith
        apply Motion.lower_of_stage
        rw [cold]
        simp [Motion.stage, negative.ne, negative.not_gt]
      · exact .inl ⟨settles within, cold⟩
    · have stillFree := free_of_rise finite targetFinite afterFinite free (by linarith) (by linarith)
      refine .inr ⟨fun stranded => stillFree stranded.2, ?_⟩
      apply Motion.lower_of_nearer (by norm_num) (Motion.stage_antitone (by linarith))
      rw [abs_of_neg (by linarith), abs_of_neg (by linarith)]
      linarith
  · obtain ⟨fallen, short⟩ := drift.falls isElapsed finite targetFinite second positive above free
    by_cases within : Within target after
    · exact .inl ⟨settles within, by linarith⟩
    · have stillFree := free_of_fall finite targetFinite afterFinite free (by linarith) (by linarith)
      refine .inr ⟨fun stranded => stillFree stranded.2, ?_⟩
      apply Motion.lower_of_nearer (by norm_num)
      · rw [Motion.stage_of_pos (by linarith)]
        exact Nat.zero_le _
      · rw [abs_of_pos (by linarith), abs_of_pos (by linarith)]
        linarith

/-- A tick brings a heater that is not stranded to its target, or nearer to it. -/
theorem advances (ticking : board.Ticking id) (free : ¬ board.Stranded id) :
    board.tick.isSettled id = true ∧
        (board.isSettled id = true ∨ board.tick.tick.isSettled id = true) ∨
      (board.tick.Ticking id ∧ ¬ board.tick.Stranded id) ∧
        Motion.Lower (rank id board.tick) (rank id board) := by
  have next := ticking.toSound.ticking id
  have finite := ticking.value id
  rcases ticking.effectiveTarget id with ⟨targetFinite, positive⟩ | endless
  · by_cases cold : worth (board.heater id).value = 0
    · obtain ⟨stillFree, lower⟩ := ticking.advances_of_cold free targetFinite positive cold
      exact .inr ⟨⟨next, stillFree⟩, lower⟩
    cases settled : board.isSettled id with
    | true => exact .inl ⟨ticking.remains targetFinite cold settled, .inl rfl⟩
    | false =>
        have clear : ¬ Strands id ((board.heater id).effectiveTarget board.room)
            (board.heater id).value := fun strands => free ⟨settled, strands⟩
        rw [Bool.eq_false_iff, ne_eq, isSettled_iff_within] at settled
        rcases ticking.seconds with second | ⟨nothing, wraps⟩
        · rcases ticking.advances_of_second targetFinite positive cold settled clear second with
            ⟨reached, warm⟩ | ⟨stillFree, lower⟩
          · have target : IsFinite ((board.tick.heater id).effectiveTarget board.tick.room) := by
              rw [tick_room, tick_effectiveTarget]
              exact targetFinite
            exact .inl ⟨reached, .inr (next.remains target warm reached)⟩
          · exact .inr ⟨⟨next, stillFree⟩, lower⟩
        · have drift := ticking.drift targetFinite
          have same := drift.rests (elapsed_of_heater _ _) finite targetFinite nothing cold settled
          refine .inr ⟨⟨next, fun stranded => clear ?_⟩, ?_⟩
          · have strands := stranded.2
            rw [tick_room, tick_effectiveTarget, strands_iff drift.finite targetFinite, same] at strands
            exact (strands_iff finite targetFinite).2 strands
          · rw [rank_tick, rank]
            exact Motion.lower_of_rest same wraps
  · exact absurd (ticking.stranded_of_endless endless) free

end Board.Ticking

/-- A wait comes to an end exactly when it has nothing to wait for, or its first tick does not
strand the heater. -/
theorem Sound.settles_iff {board : Board Float} (sound : Sound board) (id : HeaterId) :
    (∃ final, Board.Settles id board final) ↔
      board.isSettled id = true ∨ ¬ board.tick.Stranded id := by
  constructor
  · rintro ⟨final, settles⟩
    by_contra stuck
    rw [not_or, not_not, Bool.not_eq_true] at stuck
    exact not_settles_of_stranded sound stuck.1 stuck.2 settles
  · rintro (settled | free)
    · exact ⟨board, .reached settled⟩
    · exact Board.settles_of_progress Motion.lower_wellFounded (Board.Ticking.rank id)
        (fun board => board.Ticking id ∧ ¬ board.Stranded id)
        (fun _ kept => kept.1.advances kept.2) ⟨sound.ticking id, free⟩

end BenchPrinter
