import Mathlib.Order.Nat
import BenchPrinter.Proofs.Beginning

/-!
Everything that a line can ask of the board, as one list of steps: the plan and the rounds of
waiting that follow it. The rounds are decided by the board alone, so the host decides only how far
the list is followed.
-/

namespace BenchPrinter

namespace Attempt

variable {α σ β γ δ : Type}

theorem after_andThen (actions : List Action) (attempt : Attempt α σ β)
    (next : β → Board α → σ → Attempt α σ γ) :
    (attempt.after actions).andThen next = (attempt.andThen next).after actions := by
  cases reached : attempt.outcome with
  | ok value =>
      rw [andThen_of_ok reached, andThen_of_ok (by rw [outcome_after, reached])]
      simp [after, List.append_assoc]
  | error stop =>
      rw [andThen_of_error reached, andThen_of_error (by rw [outcome_after, reached])]
      rfl

theorem andThen_assoc (attempt : Attempt α σ β) (next : β → Board α → σ → Attempt α σ γ)
    (last : γ → Board α → σ → Attempt α σ δ) :
    (attempt.andThen next).andThen last =
      attempt.andThen fun value board state => (next value board state).andThen last := by
  cases reached : attempt.outcome with
  | ok value => rw [andThen_of_ok reached, andThen_of_ok reached, after_andThen]
  | error stop =>
      rw [andThen_of_error reached, andThen_of_error reached, andThen_of_error rfl]

/-- Only what comes after a success matters. -/
theorem andThen_congr {attempt : Attempt α σ β} {next other : β → Board α → σ → Attempt α σ γ}
    (same : ∀ value, attempt.outcome = .ok value →
      next value attempt.board attempt.host = other value attempt.board attempt.host) :
    attempt.andThen next = attempt.andThen other := by
  cases reached : attempt.outcome with
  | ok value => rw [andThen_of_ok reached, andThen_of_ok reached, same value reached]
  | error stop => rw [andThen_of_error reached, andThen_of_error reached]

end Attempt

namespace Board

variable {α σ : Type} [Quantity α]

theorem follow_append (host : Host σ) (first second : List (Step α)) (board : Board α)
    (state : σ) : follow host (first ++ second) board state =
      (follow host first board state).andThen fun _ board state =>
        follow host second board state := by
  induction first generalizing board state with
  | nil => rfl
  | cons step rest inductionHypothesis =>
      rw [List.cons_append]
      rcases passes_or_stops host step board state with ⟨actions, after, passes⟩ |
        ⟨failure, actions, after, stops⟩
      · rw [passes.follow, passes.follow, Attempt.after_andThen, inductionHypothesis]
      · rw [stops.follow, stops.follow, Attempt.andThen_of_error rfl]

theorem board_of_follow {host : Host σ} {steps : List (Step α)} {board : Board α} {state : σ}
    (succeeded : (follow host steps board state).outcome = .ok ()) :
    (follow host steps board state).board = board.afterSteps steps := by
  obtain ⟨done, rest, split, reached, complete⟩ := follow_beginning host steps board state
  rw [complete.1 succeeded, List.append_nil] at split
  rw [reached, split]

/-- The rounds of a wait, as many as patience and the heater leave. -/
def rounds (id : HeaterId) : Nat → Board α → List (Step α)
  | 0, _ => []
  | patience + 1, board =>
      if board.isSettled id then []
      else Step.waitingRound board.busyInterval ++ rounds id patience board.round

/-- The plan of the line and the rounds of its wait. -/
def agenda (patience : Nat) (line : String) (board : Board α) : List (Step α) :=
  let plan := Plan.ofLine board line
  plan.steps ++
    match plan.waitsFor with
    | none => []
    | some id => rounds id patience (board.afterSteps plan.steps)

/-- The end of a line whose agenda is done. -/
def conclude (plan : Plan α) (board : Board α) (state : σ) : Attempt α σ String :=
  if plan.waitsFor.all board.isSettled then .done (plan.reply.render board) board state
  else .stopped .outOfPatience board state

theorem await_eq (host : Host σ) (id : HeaterId) (patience : Nat) (board : Board α) (state : σ) :
    await host id patience board state =
      (follow host (rounds id patience board) board state).andThen fun _ board state =>
        if board.isSettled id then .done () board state
        else .stopped .outOfPatience board state := by
  induction patience generalizing board state with
  | zero => rfl
  | succ patience inductionHypothesis =>
      cases settled : board.isSettled id with
      | true =>
          rw [await_of_settled host id _ state settled, rounds, if_pos settled]
          simp [follow, Attempt.done, Attempt.andThen, Attempt.after, settled]
      | false =>
          rw [await_of_unsettled host id _ state settled, rounds, if_neg (by simp [settled]),
            follow_append, Attempt.andThen_assoc]
          apply Attempt.andThen_congr
          intro _ succeeded
          rw [inductionHypothesis, board_of_follow succeeded]
          rfl

/-- A line is its agenda and its conclusion. -/
theorem process_eq (host : Host σ) (patience : Nat) (line : String) (board : Board α) (state : σ) :
    process host patience line board state =
      (follow host (agenda patience line board) board state).andThen fun _ board' state =>
        conclude (Plan.ofLine board line) board' state := by
  rw [process, perform_eq, agenda]
  generalize Plan.ofLine board line = plan
  obtain ⟨steps, waitsFor, reply⟩ := plan
  rw [follow_append, Attempt.andThen_assoc, Attempt.andThen_assoc]
  apply Attempt.andThen_congr
  intro _ succeeded
  cases waitsFor with
  | none => rfl
  | some id =>
      change (await host id patience _ _).andThen _ = _
      rw [await_eq, Attempt.andThen_assoc, board_of_follow succeeded]
      apply Attempt.andThen_congr
      intro _ waited
      simp only [conclude, Option.all_some]
      split <;> rfl

theorem afterSteps_busyInterval (steps : List (Step α)) (board : Board α) :
    (board.afterSteps steps).busyInterval = board.busyInterval := by
  induction steps generalizing board with
  | nil => rfl
  | cons step rest inductionHypothesis =>
      rw [afterSteps_cons, inductionHypothesis]
      cases step <;> rfl

/-- More patience only adds a round at the end. -/
theorem rounds_succ (id : HeaterId) (patience : Nat) (board : Board α) :
    rounds id (patience + 1) board = rounds id patience board ++
      if (board.afterSteps (rounds id patience board)).isSettled id then []
      else Step.waitingRound board.busyInterval := by
  induction patience generalizing board with
  | zero => cases settled : board.isSettled id <;> simp [rounds, settled]
  | succ patience inductionHypothesis =>
      cases settled : board.isSettled id with
      | true => simp [rounds, settled]
      | false =>
          have interval : board.round.busyInterval = board.busyInterval :=
            afterSteps_busyInterval _ board
          rw [rounds, if_neg (by simp [settled]), inductionHypothesis, interval]
          conv_rhs => rw [rounds, if_neg (by simp [settled])]
          rw [List.append_assoc, afterSteps_append]
          rfl

theorem agenda_succ (patience : Nat) (line : String) (board : Board α) :
    agenda (patience + 1) line board = agenda patience line board ++
      if (Plan.ofLine board line).waitsFor.all
        (board.afterSteps (agenda patience line board)).isSettled then []
      else Step.waitingRound board.busyInterval := by
  rw [agenda, agenda]
  cases (Plan.ofLine board line).waitsFor with
  | none => simp
  | some id =>
      simp only [Option.all_some]
      rw [rounds_succ, afterSteps_busyInterval, List.append_assoc, afterSteps_append]

theorem agenda_grows {patience more : Nat} (line : String) (board : Board α)
    (enough : patience ≤ more) : agenda patience line board <+: agenda more line board := by
  induction more, enough using Nat.le_induction with
  | base => exact List.prefix_rfl
  | succ more _ inductionHypothesis =>
      rw [agenda_succ]
      exact inductionHypothesis.trans (List.prefix_append _ _)

end Board

end BenchPrinter
