import BenchPrinter.Proofs.Patience
import BenchPrinter.Proofs.Preservation
import BenchPrinter.Proofs.Waiting

/-!
What an answered blocking heat leaves behind: the heater has the target of the line and is settled.
Nothing is assumed about the host.
-/

namespace BenchPrinter

namespace Board

variable {α σ : Type} [Quantity α]

def AimsAt (id : HeaterId) (target : α) (board : Board α) : Prop :=
  (board.heater id).target = target

theorem updateHeaters_aimsAt (id : HeaterId) (target : α) :
    Step.updateHeaters.Keeps (AimsAt id target) := by
  intro board aims
  obtain ⟨drawn, advanced⟩ := board.updateHeaters_advances id
  change (board.updateHeaters.heater id).target = target
  rw [advanced]
  exact aims

/-- A line that sets a target leaves the heater with this target, also when its wait fails. -/
theorem process_aimsAt (host : Host σ) (patience : Nat) (line : String) (board : Board α)
    (state : σ) {id : HeaterId} {target : α}
    (sets : (Plan.ofLine board line).steps = [.sleep board.lineDelay, .aim id target]) :
    AimsAt id target (process host patience line board state).board := by
  have start : AimsAt id target (follow host [.sleep board.lineDelay, .aim id target] board
      state).board := by
    change ((board.aim id target).heater id).target = target
    rw [aim_heater]
  have waited := andThen_keeps start
    fun _ _ state aims => waitFor_keeps (fun _ _ aims => aims) (updateHeaters_aimsAt id target)
      host patience (Plan.ofLine board line).waitsFor state aims
  rw [process, perform_eq, sets]
  exact andThen_keeps waited fun _ _ _ aims => aims

/-- What is left of a blocking heat that was answered is a settled heater. -/
theorem await_settled (host : Host σ) (id : HeaterId) (patience : Nat) (board : Board α)
    (state : σ) (answered : (await host id patience board state).outcome = .ok ()) :
    (await host id patience board state).board.isSettled id = true := by
  cases settled : board.isSettled id with
  | true =>
      rw [await_of_settled host id patience state settled]
      exact settled
  | false =>
      induction patience generalizing board state with
      | zero => simp [await, settled, Attempt.stopped] at answered
      | succ patience inductionHypothesis =>
          rw [await_of_unsettled host id patience state settled] at answered ⊢
          generalize follow host (Step.waitingRound board.busyInterval) board state = attempt
            at answered ⊢
          cases reached : attempt.outcome with
          | error stop => simp [Attempt.andThen_of_error reached] at answered
          | ok value =>
              rw [Attempt.andThen_of_ok reached, Attempt.outcome_after] at answered
              rw [Attempt.andThen_of_ok reached, Attempt.board_after]
              cases again : attempt.board.isSettled id with
              | true => rw [await_of_settled host id patience _ again]; exact again
              | false => exact inductionHypothesis _ _ answered again

/-- A blocking heat is the delay, the new target and the wait. -/
theorem HeatsTo.process_eq {line : String} {id : HeaterId} {target : α}
    (heats : HeatsTo line id target) (host : Host σ) (patience : Nat) (board : Board α)
    (state : σ) :
    process host patience line board state =
      ((await host id patience (board.aim id target) state).after
        [.slept board.lineDelay]).andThen fun _ board state => .done "" board state := by
  have followed : follow host [.sleep board.lineDelay, .aim id target] board state =
      ⟨.ok (), board.aim id target, state, [.slept board.lineDelay]⟩ := rfl
  rw [process, heats.plan board, perform_eq, followed]
  rfl

theorem HeatsTo.settled_of_answer {host : Host σ} {line : String} {board : Board α} {state : σ}
    {id : HeaterId} {target : α} (heats : HeatsTo line id target) {attempt : Attempt α σ String}
    {response : String} (completes : Completes host line board state attempt)
    (answered : attempt.outcome = .ok response) : attempt.board.isSettled id = true := by
  obtain ⟨-, patience, lasts⟩ := completes
  have processed : process host patience line board state = attempt :=
    lasts patience (Nat.le_refl patience)
  have outcome := await_settled host id patience (board.aim id target) state
  rw [heats.process_eq] at processed
  generalize await host id patience (board.aim id target) state = waited at processed outcome
  cases reached : waited.outcome with
  | error stop =>
      rw [Attempt.andThen_of_error (by rw [Attempt.outcome_after, reached])] at processed
      rw [← processed] at answered
      cases answered
  | ok value =>
      rw [Attempt.andThen_of_ok (by rw [Attempt.outcome_after, reached])] at processed
      rw [← processed]
      exact outcome reached

/-- A heater that is settled once it has its target is not waited for. -/
theorem HeatsTo.answered_at_once {line : String} {id : HeaterId} {target : α}
    (heats : HeatsTo line id target) (host : Host σ) {board : Board α} (state : σ)
    (settled : (board.aim id target).isSettled id = true) :
    Completes host line board state
      ⟨.ok "", board.aim id target, state, [.slept board.lineDelay]⟩ := by
  have processed : process host 0 line board state =
      ⟨.ok "", board.aim id target, state, [.slept board.lineDelay]⟩ := by
    rw [heats.process_eq, await_of_settled host id 0 state settled]
    rfl
  rw [← processed]
  apply completes_of_process
  rw [processed]
  exact nofun

/-- The line asks for the temperatures. -/
def Reports (line : String) : Prop :=
  (Command.find? line.toList).map Prod.snd = some .reportTemperatures

theorem Reports.plan {line : String} (reports : Reports line) (board : Board α) :
    Plan.ofLine board line = ⟨[.sleep board.lineDelay, .updateHeaters], none, .temperatures⟩ := by
  obtain ⟨⟨code, command⟩, found, rfl⟩ := Option.map_eq_some_iff.1 reports
  simp [Plan.ofLine, found, Plan.ofCommand]

/-- Asking for the temperatures updates the heaters, whatever the host does. -/
theorem Reports.process {line : String} (reports : Reports line) (host : Host σ) (patience : Nat)
    (board : Board α) (state : σ) :
    (Board.process host patience line board state).board =
      updateHeaters { board with clock := board.clock.after board.lineDelay } := by
  rw [Board.process, reports.plan board]
  rfl

theorem reports_m105 : Reports "M105" := by
  unfold Reports
  decide +kernel

end Board

end BenchPrinter
