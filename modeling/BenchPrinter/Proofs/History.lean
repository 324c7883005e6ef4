import BenchPrinter.Proofs.Agenda

/-!
The life of a board as one list of steps. A line adds the steps that its host lets the board do, a
pause adds the time that it takes, and the board is what all of these steps lead to.
-/

namespace BenchPrinter

namespace Step

variable {α : Type}

/-- The milliseconds that the step takes. -/
def duration : Step α → Nat
  | sleep milliseconds => milliseconds.toNat
  | _ => 0

/-- The milliseconds that the steps take together. -/
def total : List (Step α) → Nat
  | [] => 0
  | step :: rest => step.duration + total rest

@[simp] theorem total_nil : total ([] : List (Step α)) = 0 := rfl

@[simp] theorem total_cons (step : Step α) (rest : List (Step α)) :
    total (step :: rest) = step.duration + total rest := rfl

@[simp] theorem total_append (first second : List (Step α)) :
    total (first ++ second) = total first + total second := by
  induction first with
  | nil => simp
  | cons step rest inductionHypothesis =>
      rw [List.cons_append, total_cons, total_cons, inductionHypothesis, Nat.add_assoc]

end Step

namespace Board

variable {α σ : Type} [Quantity α]

/-- The steps up to the one that the host stops. -/
def passed (host : Host σ) : List (Step α) → Board α → σ → List (Step α)
  | [], _, _ => []
  | step :: rest, board, state =>
      match step.request board with
      | .nothing => step :: passed host rest (step.apply board) state
      | .permission =>
          if host.cancelled state then [] else step :: passed host rest (step.apply board) state
      | .delivery line =>
          match host.send line state with
          | (.ok (), state) => step :: passed host rest (step.apply board) state
          | (.error _, _) => []

section

variable {host : Host σ} {step : Step α} {board : Board α} {state after : σ} {actions : List Action}
  {failure : Failure}

theorem Passes.passed (passes : Passes host step board state actions after)
    (rest : List (Step α)) :
    passed host (step :: rest) board state =
      step :: Board.passed host rest (step.apply board) after := by
  cases passes with
  | quiet asked => simp only [Board.passed, asked]
  | granted asked granted => simp [Board.passed, asked, granted]
  | delivered asked delivered => simp only [Board.passed, asked, delivered]

theorem Stops.passed (stops : Stops host step board state failure actions after)
    (rest : List (Step α)) : passed host (step :: rest) board state = [] := by
  cases stops with
  | cancelled asked cancelled => simp [Board.passed, asked, cancelled]
  | refused asked refused => simp only [Board.passed, asked, refused]

end

/-- The board is the one that the passed steps lead to. -/
theorem board_of_passed (host : Host σ) (steps : List (Step α)) (board : Board α) (state : σ) :
    (follow host steps board state).board =
      board.afterSteps (passed host steps board state) := by
  induction steps generalizing board state with
  | nil => rfl
  | cons step rest inductionHypothesis =>
      rcases passes_or_stops host step board state with ⟨actions, after, passes⟩ |
        ⟨failure, actions, after, stops⟩
      · rw [passes.follow, passes.passed, Attempt.board_after, inductionHypothesis,
          afterSteps_cons]
      · rw [stops.follow, stops.passed, afterSteps_nil]

/-- The steps that a line comes to in front of a host. -/
def deeds (host : Host σ) (patience : Nat) (line : String) (board : Board α) (state : σ) :
    List (Step α) :=
  passed host (agenda patience line board) board state

theorem board_of_deeds (host : Host σ) (patience : Nat) (line : String) (board : Board α)
    (state : σ) :
    (process host patience line board state).board =
      board.afterSteps (deeds host patience line board state) := by
  rw [deeds, ← board_of_passed, process_eq]
  cases worked : (follow host (agenda patience line board) board state).outcome with
  | ok value =>
      rw [Attempt.andThen_of_ok worked, Attempt.board_after, conclude]
      split <;> rfl
  | error stop => rw [Attempt.andThen_of_error worked]

/-- What has been done on a board since the start, and what the board has become. -/
inductive Life (start : Board α) : List (Step α) → Board α → Prop where
  | start : Life start [] start
  | line {σ : Type} {past : List (Step α)} {board : Board α} (host : Host σ) (patience : Nat)
      (line : String) (state : σ) (earlier : Life start past board) :
      Life start (past ++ deeds host patience line board state)
        (process host patience line board state).board
  | pause {past : List (Step α)} {board : Board α} (milliseconds : UInt64)
      (earlier : Life start past board) :
      Life start (past ++ [.sleep milliseconds])
        { board with clock := board.clock.after milliseconds }

theorem Life.afterSteps {start board : Board α} {past : List (Step α)}
    (life : Life start past board) : board = start.afterSteps past := by
  induction life with
  | start => rfl
  | line host patience line state _ inductionHypothesis =>
      rw [afterSteps_append, ← inductionHypothesis, board_of_deeds]
  | pause milliseconds _ inductionHypothesis =>
      rw [afterSteps_append, ← inductionHypothesis]
      rfl

end Board

end BenchPrinter
