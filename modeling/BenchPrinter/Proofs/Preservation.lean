import BenchPrinter.Proofs.Planning
import BenchPrinter.Proofs.Work

/-!
What every step of a line keeps, the line keeps, wherever its work ends.
-/

namespace BenchPrinter

namespace Step

variable {α : Type} [Quantity α]

/-- The step keeps the property on every board. -/
def Keeps (property : Board α → Prop) (step : Step α) : Prop :=
  ∀ board, property board → property (step.apply board)

/-- Waiting only lets time pass and updates the heaters. -/
theorem waitingRound_keeps {property : Board α → Prop}
    (sleeps : ∀ milliseconds, (sleep milliseconds).Keeps property)
    (updates : updateHeaters.Keeps property) (interval : UInt64) (step : Step α)
    (member : step ∈ waitingRound interval) : step.Keeps property := by
  simp only [waitingRound, busy, List.cons_append, List.nil_append, List.mem_cons,
    List.not_mem_nil, or_false] at member
  rcases member with rfl | rfl | rfl | rfl | rfl | rfl | rfl | rfl | rfl
  · exact fun _ holds => holds
  · exact fun _ holds => holds
  · exact sleeps interval
  · exact updates
  · exact fun _ holds => holds
  · exact fun _ holds => holds
  · exact sleeps interval
  · exact updates
  · exact fun _ holds => holds

omit [Quantity α] in
theorem not_aim_of_busy (id : HeaterId) (target : α) (interval : UInt64) (count : Nat) :
    aim id target ∉ busy interval count := by
  intro member
  rcases mem_busy member with same | same | same <;> cases same

omit [Quantity α] in
theorem not_aim_of_probing (id : HeaterId) (target : α) (interval : UInt64) :
    aim id target ∉ probing interval := by
  intro member
  rcases mem_probing member with talk | ⟨text, same, -⟩
  · exact not_aim_of_busy id target interval _ talk
  · cases same

end Step

/-- A line that sets a target does nothing else before its wait, and the target is on the line. -/
theorem Plan.aims_or_not {α : Type} [Quantity α] (board : Board α) (line : String) :
    (∀ id target, Step.aim id target ∉ (Plan.ofLine board line).steps) ∨
      ∃ id target, (Plan.ofLine board line).steps = [.sleep board.lineDelay, .aim id target] ∧
        (Words.target? line.toList = some target ∨ Words.waitTarget? line.toList = some target) := by
  unfold Plan.ofLine
  split
  · rename_i entry _
    cases entry.2 with
    | setTarget id =>
        cases carried : Words.target? (α := α) line.toList with
        | some target => exact .inr ⟨id, target, by simp [ofCommand, carried, acknowledge], .inl rfl⟩
        | none => exact .inl (by simp [ofCommand, carried, acknowledge])
    | heatAndWait id =>
        cases carried : Words.waitTarget? (α := α) line.toList with
        | some target => exact .inr ⟨id, target, by simp [ofCommand, heatAndWait, carried], .inr rfl⟩
        | none => exact .inl (by simp [ofCommand, heatAndWait, carried, ofReply])
    | home => exact .inl (by simp [ofCommand, acknowledge, Step.not_aim_of_busy])
    | probeBed => exact .inl (by simp [ofCommand, acknowledge, Step.not_aim_of_probing])
    | linearMove => exact .inl (by simp [ofCommand, linearMove, acknowledge])
    | feedRate =>
        left
        simp only [ofCommand]
        split <;> simp [ofReply]
    | axisMode | reportTemperatures | reportPosition | fanOn | fanOff =>
        exact .inl (by simp [ofCommand, acknowledge, ofReply])
  · exact .inl (by simp [ofReply])

namespace Board

variable {α σ β γ : Type} {property : Board α → Prop}

theorem andThen_keeps {attempt : Attempt α σ β} {next : β → Board α → σ → Attempt α σ γ}
    (first : property attempt.board)
    (second : ∀ value board state, property board → property (next value board state).board) :
    property (attempt.andThen next).board := by
  cases reached : attempt.outcome with
  | ok value =>
      rw [Attempt.andThen_of_ok reached]
      exact second _ _ _ first
  | error stop =>
      rw [Attempt.andThen_of_error reached]
      exact first

variable [Quantity α]

theorem follow_keeps (host : Host σ) {steps : List (Step α)} {board : Board α} (state : σ)
    (keeps : ∀ step ∈ steps, step.Keeps property) (start : property board) :
    property (follow host steps board state).board := by
  induction steps generalizing board state with
  | nil => exact start
  | cons step rest inductionHypothesis =>
      have applied : property (step.apply board) := keeps step (.head rest) board start
      have later (state : σ) : property (follow host rest (step.apply board) state).board :=
        inductionHypothesis state (fun other member => keeps other (.tail step member)) applied
      cases asked : step.request board with
      | nothing =>
          rw [follow_of_nothing host asked]
          exact later state
      | permission =>
          cases cancelled : host.cancelled state with
          | true => rw [follow_of_cancelled asked cancelled]; exact start
          | false => rw [follow_of_granted asked cancelled]; exact later state
      | delivery line =>
          rcases delivered : host.send line state with ⟨failure | _, after⟩
          · rw [follow_of_refused asked delivered]
            exact start
          · rw [follow_of_delivered asked delivered]
            exact later after

variable (sleeps : ∀ milliseconds, (Step.sleep milliseconds).Keeps property)
  (updates : Step.updateHeaters.Keeps property)

include sleeps updates

theorem await_keeps (host : Host σ) (id : HeaterId) (patience : Nat) {board : Board α} (state : σ)
    (start : property board) : property (await host id patience board state).board := by
  induction patience generalizing board state with
  | zero => rw [await]; split <;> exact start
  | succ patience inductionHypothesis =>
      cases settled : board.isSettled id with
      | true => rw [await_of_settled host id _ state settled]; exact start
      | false =>
          have round := follow_keeps host state
            (Step.waitingRound_keeps sleeps updates board.busyInterval) start
          rw [await_of_unsettled host id _ state settled]
          exact andThen_keeps round fun _ _ state => inductionHypothesis state

theorem waitFor_keeps (host : Host σ) (patience : Nat) (waitsFor : Option HeaterId)
    {board : Board α} (state : σ) (start : property board) :
    property (waitFor host patience waitsFor board state).board := by
  cases waitsFor with
  | none => exact start
  | some id => exact await_keeps sleeps updates host id patience state start

theorem process_keeps (host : Host σ) (patience : Nat) (line : String) {board : Board α}
    (state : σ) (planned : ∀ step ∈ (Plan.ofLine board line).steps, step.Keeps property)
    (start : property board) : property (process host patience line board state).board := by
  have worked := andThen_keeps (follow_keeps host state planned start) fun _ _ state =>
    waitFor_keeps sleeps updates host patience (Plan.ofLine board line).waitsFor state
  rw [process, perform_eq]
  exact andThen_keeps worked fun _ _ _ holds => holds

end Board

end BenchPrinter
