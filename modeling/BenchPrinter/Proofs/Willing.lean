import BenchPrinter.Proofs.Patience

/-!
Work in front of a host that takes every line and never cancels. Nothing but patience can end such
work early, so the board alone decides what happens.
-/

namespace BenchPrinter

/-- While its state is good, the host goes on, takes every line and stays good. -/
structure Host.Willing {σ : Type} (host : Host σ) (good : σ → Prop) : Prop where
  continues : ∀ state, good state → host.cancelled state = false
  accepts : ∀ line state, good state → ∃ after, host.send line state = (.ok (), after) ∧ good after

/-- This host drops the lines that it takes. -/
def Host.idle : Host Unit := ⟨fun _ state => (.ok (), state), fun _ => false⟩

theorem Host.idle_willing : Host.idle.Willing fun _ => True :=
  ⟨fun _ _ => rfl, fun _ state _ => ⟨state, rfl, trivial⟩⟩

namespace Attempt

variable {α σ β γ : Type} {good : σ → Prop}

/-- The work does not fail, and the host is still good at its end. -/
def Unfailing (good : σ → Prop) (attempt : Attempt α σ β) : Prop :=
  (∀ failure, attempt.outcome ≠ .error (.failed failure)) ∧ good attempt.host

theorem Unfailing.andThen {attempt : Attempt α σ β} {next : β → Board α → σ → Attempt α σ γ}
    (unfailing : attempt.Unfailing good)
    (continues : ∀ value board state, good state → (next value board state).Unfailing good) :
    (attempt.andThen next).Unfailing good := by
  cases reached : attempt.outcome with
  | ok value =>
      rw [andThen_of_ok reached]
      exact continues value attempt.board attempt.host unfailing.2
  | error stop =>
      rw [andThen_of_error reached]
      refine ⟨fun failure failed => unfailing.1 failure ?_, unfailing.2⟩
      simpa [reached] using failed

end Attempt

namespace Board

variable {α σ : Type} [Quantity α] {host : Host σ} {good : σ → Prop}

/-- The board once all the steps are granted. -/
def afterSteps (steps : List (Step α)) (board : Board α) : Board α :=
  steps.foldl (fun board step => step.apply board) board

@[simp] theorem afterSteps_nil (board : Board α) : board.afterSteps [] = board := rfl

@[simp] theorem afterSteps_cons (step : Step α) (rest : List (Step α)) (board : Board α) :
    board.afterSteps (step :: rest) = (step.apply board).afterSteps rest := rfl

theorem follow_of_willing (willing : host.Willing good) (steps : List (Step α)) (board : Board α)
    {state : σ} (start : good state) :
    ∃ after actions, good after ∧
      follow host steps board state = ⟨.ok (), board.afterSteps steps, after, actions⟩ := by
  induction steps generalizing board state with
  | nil => exact ⟨state, [], start, rfl⟩
  | cons step rest inductionHypothesis =>
      cases asked : step.request board with
      | nothing =>
          obtain ⟨after, actions, goodAfter, followed⟩ :=
            inductionHypothesis (step.apply board) start
          rw [follow_of_nothing host asked, followed]
          exact ⟨after, _, goodAfter, rfl⟩
      | permission =>
          obtain ⟨after, actions, goodAfter, followed⟩ :=
            inductionHypothesis (step.apply board) start
          rw [follow_of_granted asked (willing.continues state start), followed]
          exact ⟨after, _, goodAfter, rfl⟩
      | delivery line =>
          obtain ⟨taken, delivered, goodTaken⟩ := willing.accepts line state start
          obtain ⟨after, actions, goodAfter, followed⟩ :=
            inductionHypothesis (step.apply board) goodTaken
          rw [follow_of_delivered asked delivered, followed]
          exact ⟨after, _, goodAfter, rfl⟩

/-- The board after one round of waiting. -/
def round (board : Board α) : Board α :=
  board.afterSteps (Step.waitingRound board.busyInterval)

theorem await_of_round (willing : host.Willing good) (id : HeaterId) {board : Board α} {state : σ}
    (start : good state) (unsettled : board.isSettled id = false) :
    ∃ after actions, good after ∧ ∀ patience,
      await host id (patience + 1) board state =
        (await host id patience board.round after).after actions := by
  obtain ⟨after, actions, goodAfter, followed⟩ :=
    follow_of_willing willing (Step.waitingRound board.busyInterval) board start
  refine ⟨after, actions, goodAfter, ?_⟩
  intro patience
  rw [await_of_unsettled host id patience state unsettled, followed]
  rfl

/-- Round after round the board comes to the final one, where the heater is settled. -/
inductive Settles (id : HeaterId) : Board α → Board α → Prop where
  | reached {board : Board α} (settled : board.isSettled id = true) : Settles id board board
  | later {board final : Board α} (unsettled : board.isSettled id = false)
      (rest : Settles id board.round final) : Settles id board final

theorem Settles.settled {id : HeaterId} {board final : Board α} (settles : Settles id board final) :
    final.isSettled id = true := by
  induction settles with
  | reached settled => exact settled
  | later _ _ inductionHypothesis => exact inductionHypothesis

theorem await_of_settles (willing : host.Willing good) {id : HeaterId} {board final : Board α}
    (settles : Settles id board final) {state : σ} (start : good state) :
    ∃ patience after actions, good after ∧
      await host id patience board state = ⟨.ok (), final, after, actions⟩ := by
  induction settles generalizing state with
  | reached settled =>
      exact ⟨0, state, [], start, await_of_settled host id 0 state settled⟩
  | later unsettled _ inductionHypothesis =>
      obtain ⟨middle, earlier, goodMiddle, round⟩ := await_of_round willing id start unsettled
      obtain ⟨patience, after, actions, goodAfter, awaited⟩ := inductionHypothesis goodMiddle
      refine ⟨patience + 1, after, earlier ++ actions, goodAfter, ?_⟩
      rw [round patience, awaited]
      rfl

/-- The wait in front of a willing host ends only with the heater settled. -/
theorem await_outcome (willing : host.Willing good) (id : HeaterId) (patience : Nat)
    (board : Board α) {state : σ} (start : good state) :
    (await host id patience board state).Unfailing good ∧
      ((await host id patience board state).outcome = .ok () →
        Settles id board (await host id patience board state).board) := by
  cases settled : board.isSettled id with
  | true =>
      rw [await_of_settled host id patience state settled]
      exact ⟨⟨fun _ => by simp [Attempt.done], start⟩, fun _ => .reached settled⟩
  | false =>
      induction patience generalizing board state with
      | zero => simp [await, settled, Attempt.stopped, Attempt.Unfailing, start]
      | succ patience inductionHypothesis =>
          obtain ⟨after, actions, goodAfter, round⟩ := await_of_round willing id start settled
          rw [round patience]
          cases reached : board.round.isSettled id with
          | true =>
              rw [await_of_settled host id patience after reached]
              exact ⟨⟨fun _ => by simp [Attempt.done], goodAfter⟩,
                fun _ => .later settled (.reached reached)⟩
          | false =>
              obtain ⟨unfailing, settles⟩ := inductionHypothesis board.round goodAfter reached
              exact ⟨unfailing, fun ended => .later settled (settles ended)⟩

/-- What the wait of a plan does to the board, if it ends. -/
def EndsWait (waitsFor : Option HeaterId) (board final : Board α) : Prop :=
  match waitsFor with
  | none => final = board
  | some id => Settles id board final

theorem waitFor_of_endsWait (willing : host.Willing good) {waitsFor : Option HeaterId}
    {board final : Board α} (ends : EndsWait waitsFor board final) {state : σ}
    (start : good state) :
    ∃ patience after actions, good after ∧
      waitFor host patience waitsFor board state = ⟨.ok (), final, after, actions⟩ := by
  cases waitsFor with
  | none =>
      obtain rfl : final = board := ends
      exact ⟨0, state, [], start, rfl⟩
  | some id => exact await_of_settles willing ends start

theorem waitFor_outcome (willing : host.Willing good) (waitsFor : Option HeaterId)
    (patience : Nat) (board : Board α) {state : σ} (start : good state) :
    (waitFor host patience waitsFor board state).Unfailing good ∧
      ((waitFor host patience waitsFor board state).outcome = .ok () →
        EndsWait waitsFor board (waitFor host patience waitsFor board state).board) := by
  cases waitsFor with
  | none => exact ⟨⟨fun _ => by simp [waitFor, Attempt.done], start⟩, fun _ => rfl⟩
  | some id => exact await_outcome willing id patience board start

/-- A plan that ends its wait is carried out to its reply. -/
theorem completes_of_endsWait (willing : host.Willing good) {line : String} {board final : Board α}
    (ends : EndsWait (Plan.ofLine board line).waitsFor
      (board.afterSteps (Plan.ofLine board line).steps) final)
    {state : σ} (start : good state) :
    ∃ after actions, good after ∧
      Completes host line board state
        ⟨.ok ((Plan.ofLine board line).reply.render final), final, after, actions⟩ := by
  obtain ⟨middle, earlier, goodMiddle, followed⟩ :=
    follow_of_willing willing (Plan.ofLine board line).steps board start
  obtain ⟨patience, after, actions, goodAfter, waited⟩ :=
    waitFor_of_endsWait willing ends goodMiddle
  have processed : process host patience line board state =
      ⟨.ok ((Plan.ofLine board line).reply.render final), final, after, earlier ++ actions ++ []⟩ := by
    simp only [process, perform_eq, followed, Attempt.andThen, waited, Attempt.after, Attempt.done]
  refine ⟨after, earlier ++ actions ++ [], goodAfter, ?_⟩
  rw [← processed]
  apply completes_of_process
  rw [processed]
  simp

/-- A line that is answered has ended its wait. -/
theorem process_outcome (willing : host.Willing good) (patience : Nat) (line : String)
    (board : Board α) {state : σ} (start : good state) :
    (process host patience line board state).Unfailing good ∧
      ∀ response, (process host patience line board state).outcome = .ok response →
        EndsWait (Plan.ofLine board line).waitsFor
          (board.afterSteps (Plan.ofLine board line).steps)
          (process host patience line board state).board := by
  obtain ⟨middle, earlier, goodMiddle, followed⟩ :=
    follow_of_willing willing (Plan.ofLine board line).steps board start
  obtain ⟨unfailing, ends⟩ := waitFor_outcome willing (Plan.ofLine board line).waitsFor patience
    (board.afterSteps (Plan.ofLine board line).steps) goodMiddle
  generalize waited : waitFor host patience (Plan.ofLine board line).waitsFor
    (board.afterSteps (Plan.ofLine board line).steps) middle = attempt at unfailing ends
  cases reached : attempt.outcome with
  | ok value =>
      simp only [process, perform_eq, followed, Attempt.andThen, waited, Attempt.after,
        Attempt.done, reached]
      exact ⟨⟨fun _ => by simp, unfailing.2⟩, fun _ _ => ends reached⟩
  | error stop =>
      simp only [process, perform_eq, followed, Attempt.andThen, waited, Attempt.after, reached]
      refine ⟨⟨fun failure => ?_, unfailing.2⟩, fun response => ?_⟩
      · simpa [reached] using unfailing.1 failure
      · simp

/-- A line whose plan ends its wait, and no other, is dealt with. -/
theorem completes_iff_endsWait (willing : host.Willing good) (line : String) (board : Board α)
    {state : σ} (start : good state) :
    (∃ attempt, Completes host line board state attempt) ↔
      ∃ final, EndsWait (Plan.ofLine board line).waitsFor
        (board.afterSteps (Plan.ofLine board line).steps) final := by
  constructor
  · rintro ⟨attempt, ended, patience, lasts⟩
    have processed : process host patience line board state = attempt :=
      lasts patience (Nat.le_refl patience)
    obtain ⟨unfailing, ends⟩ := process_outcome willing patience line board start
    rw [processed] at unfailing ends
    cases reached : attempt.outcome with
    | ok response => exact ⟨attempt.board, ends response reached⟩
    | error stop =>
        cases stop with
        | failed failure => exact absurd reached (unfailing.1 failure)
        | outOfPatience => exact absurd reached ended
  · rintro ⟨final, ends⟩
    obtain ⟨after, actions, -, completes⟩ := completes_of_endsWait willing ends start
    exact ⟨_, completes⟩

end Board

/-- The host of the session is willing, and every read succeeds. -/
structure Desk.Willing {σ : Type} (desk : Desk σ) (good : σ → Prop) : Prop where
  host : desk.host.Willing good
  continues : ∀ state, good state → desk.sessionCancelled state = false
  reads : ∀ state, good state →
    ∃ line after, desk.transport.read state = (.ok line, after) ∧ good after

namespace Session

variable {α σ : Type} {desk : Desk σ} {good : σ → Prop}

theorem answer_of_willing (willing : desk.Willing good) (response : String)
    (session : Session α σ) (start : good session.link) :
    (session.answer desk response).outcome = .ok () ∧
      good (session.answer desk response).session.link := by
  cases silent : response.toList.isEmpty with
  | true =>
      rw [answer_of_silence desk session silent]
      exact ⟨rfl, start⟩
  | false =>
      obtain ⟨after, sent, goodAfter⟩ := willing.host.accepts response session.link start
      rw [answer_of_sent silent sent]
      exact ⟨rfl, goodAfter⟩

variable [Quantity α]

theorem handle_of_willing (willing : desk.Willing good) (settings : SessionSettings)
    (patience : Nat) (raw : String) (session : Session α σ) (start : good session.link) :
    (∀ failure, (session.handle desk settings patience raw).outcome ≠ .error (.failed failure)) ∧
      good (session.handle desk settings patience raw).session.link := by
  cases heard : isIgnored settings (trimText raw) with
  | true =>
      rw [handle_of_ignored desk patience session heard]
      exact ⟨fun _ => by simp, start⟩
  | false =>
      have unfailing := (Board.process_outcome willing.host patience (trimText raw) session.board
        start).1
      generalize processed : session.board.process desk.host patience (trimText raw) session.link =
        attempt at unfailing
      cases reached : attempt.outcome with
      | ok response =>
          obtain ⟨answered, goodAfter⟩ :=
            answer_of_willing willing response (session.took attempt) unfailing.2
          rw [handle_of_response session heard processed reached]
          exact ⟨fun failure failed => by simp [Exchange.after, answered] at failed, goodAfter⟩
      | error stop =>
          rw [handle_of_stop session heard processed reached]
          refine ⟨fun failure => ?_, unfailing.2⟩
          simpa [reached] using unfailing.1 failure

theorem turn_of_willing (willing : desk.Willing good) (settings : SessionSettings)
    (patience : Nat) (session : Session α σ) (start : good session.link) :
    (∀ failure, (session.turn desk settings patience).outcome ≠ .error (.failed failure)) ∧
      good (session.turn desk settings patience).session.link := by
  have continues := willing.continues session.link start
  obtain ⟨line, after, read, goodAfter⟩ := willing.reads session.link start
  cases line with
  | none =>
      rw [turn_of_nothing settings patience continues read]
      exact ⟨fun _ => by simp, goodAfter⟩
  | some line =>
      obtain ⟨unfailing, goodLater⟩ :=
        handle_of_willing willing settings patience line { session with link := after } goodAfter
      rw [turn_of_line settings patience continues read, session_endTurn]
      refine ⟨fun failure ended => ?_, goodLater⟩
      generalize handle desk settings patience line { session with link := after } = exchange
        at unfailing ended
      rw [endTurn] at ended
      split at ended <;> simp_all

/-- A willing host lets the session return, and never with a failure. -/
theorem run_of_willing (willing : desk.Willing good) (settings : SessionSettings)
    (patience : Nat) (session : Session α σ) (start : good session.link) (failure : Failure) :
    (session.run desk settings patience).1 ≠ .error (.failed failure) := by
  induction patience generalizing session with
  | zero => simp [run]
  | succ patience inductionHypothesis =>
      obtain ⟨unfailing, goodAfter⟩ := turn_of_willing willing settings patience session start
      rw [run]
      split
      · exact inductionHypothesis _ goodAfter
      · simp
      · rename_i stop reached
        rw [reached] at unfailing
        simpa using unfailing failure

end Session

end BenchPrinter
