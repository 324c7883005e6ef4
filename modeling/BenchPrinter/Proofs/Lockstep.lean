import BenchPrinter.Proofs.Willing

/-!
Two boards at work in front of two hosts. As long as the hosts answer alike and the boards are alike
in all that the work reads, the work goes the same way on both sides.
-/

namespace BenchPrinter

/-- Hosts in related states give the same answers, and then their states are related again. -/
structure Host.Agrees {σ τ : Type} (host : Host σ) (other : Host τ) (related : σ → τ → Prop) :
    Prop where
  cancelled : ∀ {state otherState}, related state otherState →
    other.cancelled otherState = host.cancelled state
  send : ∀ line {state otherState}, related state otherState →
    (other.send line otherState).1 = (host.send line state).1 ∧
      related (host.send line state).2 (other.send line otherState).2

theorem Host.agrees_self {σ : Type} (host : Host σ) : host.Agrees host Eq where
  cancelled := by rintro state _ rfl; rfl
  send := by rintro line state _ rfl; exact ⟨rfl, rfl⟩

theorem Host.Willing.agrees {σ τ : Type} {host : Host σ} {other : Host τ} {good : σ → Prop}
    {fine : τ → Prop} (willing : host.Willing good) (alsoWilling : other.Willing fine) :
    host.Agrees other fun state otherState => good state ∧ fine otherState where
  cancelled := fun ⟨isGood, isFine⟩ =>
    (alsoWilling.continues _ isFine).trans (willing.continues _ isGood).symm
  send := by
    rintro line state otherState ⟨isGood, isFine⟩
    obtain ⟨after, sent, goodAfter⟩ := willing.accepts line state isGood
    obtain ⟨otherAfter, otherSent, fineAfter⟩ := alsoWilling.accepts line otherState isFine
    rw [sent, otherSent]
    exact ⟨rfl, goodAfter, fineAfter⟩

/-- Boards that are alike work alike: every step asks the same of their hosts and leaves them
alike. -/
structure Board.Likeness {α : Type} [Quantity α] (alike : Board α → Board α → Prop) : Prop where
  request : ∀ {board other} (step : Step α), alike board other →
    step.request other = step.request board
  apply : ∀ {board other} (step : Step α), alike board other →
    alike (step.apply board) (step.apply other)
  isSettled : ∀ {board other} (id : HeaterId), alike board other →
    other.isSettled id = board.isSettled id
  busyInterval : ∀ {board other}, alike board other → other.busyInterval = board.busyInterval
  lineDelay : ∀ {board other}, alike board other → other.lineDelay = board.lineDelay

theorem Board.likeness_eq {α : Type} [Quantity α] : Board.Likeness (α := α) Eq where
  request := by rintro board _ step rfl; rfl
  apply := by rintro board _ step rfl; rfl
  isSettled := by rintro board _ id rfl; rfl
  busyInterval := by rintro board _ rfl; rfl
  lineDelay := by rintro board _ rfl; rfl

section

variable {α σ τ β γ : Type} {alike : Board α → Board α → Prop} {related : σ → τ → Prop}

/-- Both pieces of work have gone the same way. -/
structure Attempt.Matches (alike : Board α → Board α → Prop) (related : σ → τ → Prop)
    (attempt : Attempt α σ β) (other : Attempt α τ β) : Prop where
  outcome : other.outcome = attempt.outcome
  actions : other.actions = attempt.actions
  board : alike attempt.board other.board
  host : related attempt.host other.host

namespace Attempt.Matches

theorem after {attempt : Attempt α σ β} {other : Attempt α τ β} (actions : List Action)
    (same : Matches alike related attempt other) :
    Matches alike related (attempt.after actions) (other.after actions) :=
  ⟨same.outcome, congrArg (actions ++ ·) same.actions, same.board, same.host⟩

theorem andThen {attempt : Attempt α σ β} {other : Attempt α τ β}
    {next : β → Board α → σ → Attempt α σ γ} {otherNext : β → Board α → τ → Attempt α τ γ}
    (same : Matches alike related attempt other)
    (continues : ∀ value {board otherBoard state otherState}, alike board otherBoard →
      related state otherState →
        Matches alike related (next value board state) (otherNext value otherBoard otherState)) :
    Matches alike related (attempt.andThen next) (other.andThen otherNext) := by
  cases reached : attempt.outcome with
  | ok value =>
      rw [andThen_of_ok reached, andThen_of_ok (same.outcome.trans reached), same.actions]
      exact (continues value same.board same.host).after attempt.actions
  | error stop =>
      rw [andThen_of_error reached, andThen_of_error (same.outcome.trans reached)]
      exact ⟨rfl, same.actions, same.board, same.host⟩

end Attempt.Matches

end

namespace Board

open Attempt (Matches)

variable {α σ τ : Type} [Quantity α] {alike : Board α → Board α → Prop} {related : σ → τ → Prop}
  {host : Host σ} {otherHost : Host τ}

theorem follow_matches (likeness : Likeness alike) (agrees : host.Agrees otherHost related)
    (steps : List (Step α)) {board other : Board α} {state : σ} {otherState : τ}
    (same : alike board other) (inStep : related state otherState) :
    Matches alike related (follow host steps board state)
      (follow otherHost steps other otherState) := by
  induction steps generalizing board other state otherState with
  | nil => exact ⟨rfl, rfl, same, inStep⟩
  | cons step rest inductionHypothesis =>
      have sameAfter := likeness.apply step same
      have sameRequest := likeness.request step same
      cases asked : step.request board with
      | nothing =>
          rw [follow_of_nothing host asked, follow_of_nothing otherHost (sameRequest.trans asked)]
          exact (inductionHypothesis sameAfter inStep).after _
      | permission =>
          have sameToken := agrees.cancelled inStep
          cases cancelled : host.cancelled state with
          | true =>
              rw [follow_of_cancelled asked cancelled,
                follow_of_cancelled (sameRequest.trans asked) (sameToken.trans cancelled)]
              exact ⟨rfl, rfl, same, inStep⟩
          | false =>
              rw [follow_of_granted asked cancelled,
                follow_of_granted (sameRequest.trans asked) (sameToken.trans cancelled)]
              exact inductionHypothesis sameAfter inStep
      | delivery line =>
          obtain ⟨sameAnswer, inStepAfter⟩ := agrees.send line inStep
          rcases delivered : host.send line state with ⟨answer, after⟩
          rcases otherDelivered : otherHost.send line otherState with ⟨otherAnswer, otherAfter⟩
          rw [delivered, otherDelivered] at sameAnswer inStepAfter
          obtain rfl : otherAnswer = answer := sameAnswer
          cases otherAnswer with
          | error failure =>
              rw [follow_of_refused asked delivered,
                follow_of_refused (sameRequest.trans asked) otherDelivered]
              exact ⟨rfl, rfl, same, inStepAfter⟩
          | ok _ =>
              rw [follow_of_delivered asked delivered,
                follow_of_delivered (sameRequest.trans asked) otherDelivered]
              exact (inductionHypothesis sameAfter inStepAfter).after _

theorem await_matches (likeness : Likeness alike) (agrees : host.Agrees otherHost related)
    (id : HeaterId) (patience : Nat) {board other : Board α} {state : σ} {otherState : τ}
    (same : alike board other) (inStep : related state otherState) :
    Matches alike related (await host id patience board state)
      (await otherHost id patience other otherState) := by
  induction patience generalizing board other state otherState with
  | zero =>
      rw [await, await, likeness.isSettled id same]
      split <;> exact ⟨rfl, rfl, same, inStep⟩
  | succ patience inductionHypothesis =>
      have sameHeater := likeness.isSettled id same
      cases settled : board.isSettled id with
      | true =>
          rw [await_of_settled host id _ state settled,
            await_of_settled otherHost id _ otherState (sameHeater.trans settled)]
          exact ⟨rfl, rfl, same, inStep⟩
      | false =>
          rw [await_of_unsettled host id _ state settled,
            await_of_unsettled otherHost id _ otherState (sameHeater.trans settled),
            likeness.busyInterval same]
          exact (follow_matches likeness agrees _ same inStep).andThen
            fun _ => inductionHypothesis

theorem waitFor_matches (likeness : Likeness alike) (agrees : host.Agrees otherHost related)
    (waitsFor : Option HeaterId) (patience : Nat) {board other : Board α} {state : σ}
    {otherState : τ} (same : alike board other) (inStep : related state otherState) :
    Matches alike related (waitFor host patience waitsFor board state)
      (waitFor otherHost patience waitsFor other otherState) := by
  cases waitsFor with
  | none => exact ⟨rfl, rfl, same, inStep⟩
  | some id => exact await_matches likeness agrees id patience same inStep

theorem ofLine_of_alike (likeness : Likeness alike) {board other : Board α}
    (same : alike board other) (line : String) :
    Plan.ofLine other line = Plan.ofLine board line := by
  rw [Plan.ofLine, Plan.ofLine, likeness.busyInterval same, likeness.lineDelay same]

/-- The line has gone the same way on both boards. Its reply shows the board that gives it. -/
structure Lockstep (alike : Board α → Board α → Prop) (related : σ → τ → Prop) (reply : Reply)
    (attempt : Attempt α σ String) (other : Attempt α τ String) : Prop where
  outcome : (∃ stop, attempt.outcome = .error stop ∧ other.outcome = .error stop) ∨
    attempt.outcome = .ok (reply.render attempt.board) ∧
      other.outcome = .ok (reply.render other.board)
  actions : other.actions = attempt.actions
  board : alike attempt.board other.board
  host : related attempt.host other.host

theorem process_lockstep (likeness : Likeness alike) (agrees : host.Agrees otherHost related)
    (patience : Nat) (line : String) {board other : Board α} {state : σ} {otherState : τ}
    (same : alike board other) (inStep : related state otherState) :
    Lockstep alike related (Plan.ofLine board line).reply (process host patience line board state)
      (process otherHost patience line other otherState) := by
  rw [process, process, ofLine_of_alike likeness same, perform_eq, perform_eq]
  generalize Plan.ofLine board line = plan
  have worked : Matches alike related
      ((follow host plan.steps board state).andThen fun _ board state =>
        waitFor host patience plan.waitsFor board state)
      ((follow otherHost plan.steps other otherState).andThen fun _ board state =>
        waitFor otherHost patience plan.waitsFor board state) :=
    (follow_matches likeness agrees plan.steps same inStep).andThen
      fun _ => waitFor_matches likeness agrees plan.waitsFor patience
  generalize (follow host plan.steps board state).andThen _ = first at worked
  generalize (follow otherHost plan.steps other otherState).andThen _ = second at worked
  cases reached : first.outcome with
  | ok value =>
      rw [Attempt.andThen_of_ok reached, Attempt.andThen_of_ok (worked.outcome.trans reached)]
      exact ⟨.inr ⟨rfl, rfl⟩, congrArg (· ++ []) worked.actions, worked.board, worked.host⟩
  | error stop =>
      rw [Attempt.andThen_of_error reached, Attempt.andThen_of_error (worked.outcome.trans reached)]
      exact ⟨.inl ⟨stop, rfl, rfl⟩, worked.actions, worked.board, worked.host⟩

end Board

end BenchPrinter
