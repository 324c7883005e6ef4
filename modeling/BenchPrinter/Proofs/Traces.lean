import BenchPrinter.Proofs.Acknowledgement
import BenchPrinter.Proofs.History
import BenchPrinter.Proofs.Promptness

/-!
What is seen of the steps that a host grants. It follows from the board alone, so the host decides
only how far it goes.
-/

namespace BenchPrinter

/-- What is seen of a step that the host grants. -/
def Step.trace {α : Type} [Quantity α] (board : Board α) (step : Step α) : List Action :=
  match step.request board with
  | .nothing => step.quietActions
  | .permission => []
  | .delivery line => [.sent line]

namespace Board

variable {α σ : Type} [Quantity α]

/-- What is seen of steps that the host grants one after the other. -/
def trace : List (Step α) → Board α → List Action
  | [], _ => []
  | step :: rest, board => step.trace board ++ trace rest (step.apply board)

theorem trace_append (first second : List (Step α)) (board : Board α) :
    trace (first ++ second) board = trace first board ++ trace second (board.afterSteps first) := by
  induction first generalizing board with
  | nil => rfl
  | cons step rest inductionHypothesis =>
      rw [List.cons_append, trace, trace, inductionHypothesis, List.append_assoc, afterSteps_cons]

theorem Passes.trace {host : Host σ} {step : Step α} {board : Board α} {state after : σ}
    {actions : List Action} (passes : Passes host step board state actions after) :
    actions = step.trace board := by
  cases passes with
  | quiet asked | granted asked | delivered asked => simp only [Step.trace, asked]

/-- What is seen of some work is what is seen of the steps up to its end, and then the line that was
refused if there is one. -/
theorem actions_of_follow (host : Host σ) (steps : List (Step α)) (board : Board α) (state : σ) :
    ∃ last, (follow host steps board state).actions =
        trace (passed host steps board state) board ++ last ∧
      (last = [] ∨ ∃ text, last = [.refused text]) := by
  induction steps generalizing board state with
  | nil => exact ⟨[], rfl, .inl rfl⟩
  | cons step rest inductionHypothesis =>
      rcases passes_or_stops host step board state with ⟨actions, after, passes⟩ |
        ⟨failure, actions, after, stops⟩
      · obtain ⟨last, acted, refused⟩ := inductionHypothesis (step.apply board) after
        refine ⟨last, ?_, refused⟩
        rw [passes.follow, passes.passed, Attempt.actions_after, acted, Board.trace, passes.trace,
          List.append_assoc]
      · rw [stops.follow, stops.passed]
        cases stops with
        | cancelled => exact ⟨[], rfl, .inl rfl⟩
        | refused => exact ⟨_, rfl, .inr ⟨_, rfl⟩⟩

theorem passed_prefix (host : Host σ) (steps : List (Step α)) (board : Board α) (state : σ) :
    passed host steps board state <+: steps := by
  induction steps generalizing board state with
  | nil => exact List.prefix_rfl
  | cons step rest inductionHypothesis =>
      rcases passes_or_stops host step board state with ⟨actions, after, passes⟩ |
        ⟨failure, actions, after, stops⟩
      · rw [passes.passed]
        exact List.cons_prefix_cons.2 ⟨rfl, inductionHypothesis _ _⟩
      · rw [stops.passed]
        exact List.nil_prefix

/-- Work that succeeds is seen in full. -/
theorem actions_of_success {host : Host σ} {steps : List (Step α)} {board : Board α} {state : σ}
    (succeeded : (follow host steps board state).outcome = .ok ()) :
    (follow host steps board state).actions = trace steps board := by
  induction steps generalizing board state with
  | nil => rfl
  | cons step rest inductionHypothesis =>
      rcases passes_or_stops host step board state with ⟨actions, after, passes⟩ |
        ⟨failure, actions, after, stops⟩
      · rw [passes.follow, Attempt.outcome_after] at succeeded
        rw [passes.follow, Attempt.actions_after, inductionHypothesis succeeded, trace,
          passes.trace]
      · rw [stops.follow] at succeeded
        cases succeeded

/-- An answered line has done all of its agenda. -/
theorem process_of_answer {host : Host σ} {patience : Nat} {line : String} {board : Board α}
    {state : σ} (answered : (process host patience line board state).outcome.isOk = true) :
    (process host patience line board state).board =
        board.afterSteps (agenda patience line board) ∧
      (process host patience line board state).actions =
        trace (agenda patience line board) board := by
  rw [process_eq] at answered ⊢
  cases worked : (follow host (agenda patience line board) board state).outcome with
  | error stop =>
      rw [Attempt.andThen_of_error worked] at answered
      cases answered
  | ok value =>
      rw [Attempt.andThen_of_ok worked, conclude] at answered ⊢
      split at answered
      · rw [if_pos ‹_›]
        exact ⟨board_of_follow worked, (List.append_nil _).trans (actions_of_success worked)⟩
      · cases answered

end Board

end BenchPrinter
