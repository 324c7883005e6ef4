import BenchPrinter.Proofs.Willing

/-!
Wherever a host stops some work, a beginning of the steps is done and nothing else.
-/

namespace BenchPrinter

/-- A quiet step asks nothing of the host. -/
def Step.IsQuiet {α : Type} [Quantity α] (step : Step α) : Prop :=
  ∀ board, step.request board = .nothing

namespace Board

variable {α σ : Type} [Quantity α]

theorem afterSteps_append (first second : List (Step α)) (board : Board α) :
    board.afterSteps (first ++ second) = (board.afterSteps first).afterSteps second :=
  List.foldl_append

/-- The work succeeds exactly when all of its steps are done. -/
theorem follow_beginning (host : Host σ) (steps : List (Step α)) (board : Board α) (state : σ) :
    ∃ done rest, steps = done ++ rest ∧
      (follow host steps board state).board = board.afterSteps done ∧
      ((follow host steps board state).outcome = .ok () ↔ rest = []) := by
  induction steps generalizing board state with
  | nil => exact ⟨[], [], rfl, rfl, by simp [follow, Attempt.done]⟩
  | cons step rest inductionHypothesis =>
      have stopped (stop : Stop) (state : σ) (actions : List Action) :
          ∃ done left, step :: rest = done ++ left ∧
            (⟨.error stop, board, state, actions⟩ : Attempt α σ Unit).board =
              board.afterSteps done ∧
            ((⟨.error stop, board, state, actions⟩ : Attempt α σ Unit).outcome = .ok () ↔
              left = []) :=
        ⟨[], step :: rest, rfl, rfl, by simp⟩
      have later (state : σ) (actions : List Action) :
          ∃ done left, step :: rest = done ++ left ∧
            ((follow host rest (step.apply board) state).after actions).board =
              board.afterSteps done ∧
            (((follow host rest (step.apply board) state).after actions).outcome = .ok () ↔
              left = []) := by
        obtain ⟨done, left, split, reached, succeeded⟩ :=
          inductionHypothesis (step.apply board) state
        exact ⟨step :: done, left, by rw [split, List.cons_append], reached, succeeded⟩
      cases asked : step.request board with
      | nothing =>
          rw [follow_of_nothing host asked]
          exact later state _
      | permission =>
          cases cancelled : host.cancelled state with
          | true =>
              rw [follow_of_cancelled asked cancelled]
              exact stopped _ state []
          | false =>
              rw [follow_of_granted asked cancelled]
              exact later state []
      | delivery line =>
          rcases delivered : host.send line state with ⟨failure | _, after⟩
          · rw [follow_of_refused asked delivered]
            exact stopped _ after _
          · rw [follow_of_delivered asked delivered]
            exact later after _

/-- No host can stop quiet work. -/
theorem follow_of_quiet (host : Host σ) {steps : List (Step α)}
    (quiet : ∀ step ∈ steps, step.IsQuiet) (board : Board α) (state : σ) :
    (follow host steps board state).outcome = .ok () ∧
      (follow host steps board state).board = board.afterSteps steps := by
  induction steps generalizing board with
  | nil => exact ⟨rfl, rfl⟩
  | cons step rest inductionHypothesis =>
      rw [follow_of_nothing host (quiet step (.head rest) board)]
      exact inductionHypothesis (fun other member => quiet other (.tail step member)) _

section

variable (host : Host σ) (patience : Nat) (line : String) (board : Board α) (state : σ)
  (unhurried : (Plan.ofLine board line).waitsFor = none)

include unhurried

/-- Without a wait a line is its steps and its reply. -/
theorem process_of_unhurried : process host patience line board state =
    (follow host (Plan.ofLine board line).steps board state).andThen fun _ board' state =>
      .done ((Plan.ofLine board line).reply.render board') board' state := by
  rw [process, perform_eq, unhurried]
  cases reached : (follow host (Plan.ofLine board line).steps board state).outcome with
  | ok value =>
      simp [waitFor, Attempt.andThen, reached, Attempt.done, Attempt.after]
  | error stop => simp [Attempt.andThen, reached]

theorem process_beginning :
    ∃ done rest, (Plan.ofLine board line).steps = done ++ rest ∧
      (process host patience line board state).board = board.afterSteps done ∧
      ((process host patience line board state).outcome.isOk = true ↔ rest = []) := by
  obtain ⟨done, rest, split, reached, succeeded⟩ :=
    follow_beginning host (Plan.ofLine board line).steps board state
  rw [process_of_unhurried host patience line board state unhurried]
  refine ⟨done, rest, split, ?_, ?_⟩
  · cases outcome : (follow host (Plan.ofLine board line).steps board state).outcome <;>
      simp [Attempt.andThen, outcome, Attempt.done, Attempt.after, reached]
  · rw [← succeeded]
    cases outcome : (follow host (Plan.ofLine board line).steps board state).outcome <;>
      simp [Attempt.andThen, outcome, Attempt.done, Attempt.after, Except.isOk, Except.toBool]

end

end Board

end BenchPrinter
