import BenchPrinter.Board.Plan

/-!
Carrying out a plan in front of a host. The host may cancel the work, which is noticed at the next
checkpoint, and it may refuse a line, which ends the work at once. Whatever ends the work, the steps
before it stay done.
-/

namespace BenchPrinter

/-- A host takes lines and may cancel the work; `σ` is its state. -/
structure Host (σ : Type) where
  send : String → σ → Except Failure Unit × σ
  cancelled : σ → Bool

/-- Why work ends early. Patience counts rounds of waiting, and it is no limit of the board
itself. -/
inductive Stop where
  | failed (failure : Failure)
  | outOfPatience
deriving DecidableEq

/-- What can be observed of the board while it works. -/
inductive Action where
  | slept (milliseconds : UInt64)
  | sent (line : String)
  | refused (line : String)
deriving DecidableEq

/-- The outcome of some work, with the board, the host and the actions up to its end. -/
structure Attempt (α σ β : Type) where
  outcome : Except Stop β
  board : Board α
  host : σ
  actions : List Action

namespace Attempt

variable {α σ β γ : Type}

def done (value : β) (board : Board α) (host : σ) : Attempt α σ β :=
  ⟨.ok value, board, host, []⟩

def stopped (stop : Stop) (board : Board α) (host : σ) : Attempt α σ β :=
  ⟨.error stop, board, host, []⟩

/-- The actions of earlier work come first. -/
def after (actions : List Action) (attempt : Attempt α σ β) : Attempt α σ β :=
  { attempt with actions := actions ++ attempt.actions }

/-- The next piece of work begins only after a success. -/
def andThen (attempt : Attempt α σ β) (next : β → Board α → σ → Attempt α σ γ) :
    Attempt α σ γ :=
  match attempt.outcome with
  | .ok value => (next value attempt.board attempt.host).after attempt.actions
  | .error stop => ⟨.error stop, attempt.board, attempt.host, attempt.actions⟩

end Attempt

namespace Step

/-- Only a sleep is observed of a step that asks nothing of the host. -/
def quietActions {α : Type} : Step α → List Action
  | sleep milliseconds => [.slept milliseconds]
  | _ => []

end Step

namespace Board

variable {α σ : Type} [Quantity α]

/-- The steps are taken in order until the host stops one of them. -/
def follow (host : Host σ) : List (Step α) → Board α → σ → Attempt α σ Unit
  | [], board, state => .done () board state
  | step :: rest, board, state =>
      match step.request board with
      | .nothing => (follow host rest (step.apply board) state).after step.quietActions
      | .permission =>
          if host.cancelled state then .stopped (.failed .cancelled) board state
          else follow host rest (step.apply board) state
      | .delivery line =>
          match host.send line state with
          | (.ok (), state) => (follow host rest (step.apply board) state).after [.sent line]
          | (.error failure, state) =>
              (Attempt.stopped (.failed failure) board state).after [.refused line]

/-- The heater is looked at before each round only. -/
def await (host : Host σ) (id : HeaterId) : Nat → Board α → σ → Attempt α σ Unit
  | 0, board, state =>
      if board.isSettled id then .done () board state
      else .stopped .outOfPatience board state
  | patience + 1, board, state =>
      if board.isSettled id then .done () board state
      else
        (follow host (Step.waitingRound board.busyInterval) board state).andThen
          fun _ board state => await host id patience board state

/-- The steps, then the wait if there is one, then the reply. -/
def perform (host : Host σ) (patience : Nat) (plan : Plan α) (board : Board α) (state : σ) :
    Attempt α σ String :=
  let worked := (follow host plan.steps board state).andThen fun _ board state =>
    match plan.waitsFor with
    | none => Attempt.done () board state
    | some id => await host id patience board state
  worked.andThen fun _ board state => .done (plan.reply.render board) board state

def process (host : Host σ) (patience : Nat) (line : String) (board : Board α) (state : σ) :
    Attempt α σ String :=
  perform host patience (Plan.ofLine board line) board state

end Board

end BenchPrinter
