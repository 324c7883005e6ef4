import BenchPrinter.Session

/-!
The equations of work in front of a host, one for each answer that the host can give.
-/

namespace BenchPrinter

namespace Attempt

variable {α σ β γ : Type}

@[simp] theorem outcome_after (actions : List Action) (attempt : Attempt α σ β) :
    (attempt.after actions).outcome = attempt.outcome := rfl

@[simp] theorem board_after (actions : List Action) (attempt : Attempt α σ β) :
    (attempt.after actions).board = attempt.board := rfl

@[simp] theorem host_after (actions : List Action) (attempt : Attempt α σ β) :
    (attempt.after actions).host = attempt.host := rfl

@[simp] theorem actions_after (actions : List Action) (attempt : Attempt α σ β) :
    (attempt.after actions).actions = actions ++ attempt.actions := rfl

theorem andThen_of_ok {attempt : Attempt α σ β} {value : β}
    (succeeded : attempt.outcome = .ok value) (next : β → Board α → σ → Attempt α σ γ) :
    attempt.andThen next =
      (next value attempt.board attempt.host).after attempt.actions := by
  simp [andThen, succeeded]

theorem andThen_of_error {attempt : Attempt α σ β} {stop : Stop}
    (failed : attempt.outcome = .error stop) (next : β → Board α → σ → Attempt α σ γ) :
    attempt.andThen next = ⟨.error stop, attempt.board, attempt.host, attempt.actions⟩ := by
  simp [andThen, failed]

end Attempt

namespace Board

variable {α σ : Type} [Quantity α]

theorem follow_of_nothing (host : Host σ) {step : Step α} {board : Board α}
    (asked : step.request board = .nothing) (rest : List (Step α)) (state : σ) :
    follow host (step :: rest) board state =
      (follow host rest (step.apply board) state).after step.quietActions := by
  simp [follow, asked]

theorem follow_of_granted {host : Host σ} {step : Step α} {board : Board α} {state : σ}
    (asked : step.request board = .permission) (granted : host.cancelled state = false)
    (rest : List (Step α)) :
    follow host (step :: rest) board state = follow host rest (step.apply board) state := by
  simp [follow, asked, granted]

theorem follow_of_cancelled {host : Host σ} {step : Step α} {board : Board α} {state : σ}
    (asked : step.request board = .permission) (cancelled : host.cancelled state = true)
    (rest : List (Step α)) :
    follow host (step :: rest) board state = .stopped (.failed .cancelled) board state := by
  simp [follow, asked, cancelled]

theorem follow_of_delivered {host : Host σ} {step : Step α} {board : Board α} {line : String}
    {state after : σ} (asked : step.request board = .delivery line)
    (delivered : host.send line state = (.ok (), after)) (rest : List (Step α)) :
    follow host (step :: rest) board state =
      (follow host rest (step.apply board) after).after [.sent line] := by
  simp [follow, asked, delivered]

theorem follow_of_refused {host : Host σ} {step : Step α} {board : Board α} {line : String}
    {failure : Failure} {state after : σ} (asked : step.request board = .delivery line)
    (refused : host.send line state = (.error failure, after)) (rest : List (Step α)) :
    follow host (step :: rest) board state =
      ⟨.error (.failed failure), board, after, [.refused line]⟩ := by
  simp [follow, asked, refused, Attempt.stopped, Attempt.after]

/-- The host lets the step pass. -/
inductive Passes (host : Host σ) (step : Step α) (board : Board α) (state : σ) :
    List Action → σ → Prop where
  | quiet (asked : step.request board = .nothing) :
      Passes host step board state step.quietActions state
  | granted (asked : step.request board = .permission) (granted : host.cancelled state = false) :
      Passes host step board state [] state
  | delivered {line : String} {after : σ} (asked : step.request board = .delivery line)
      (delivered : host.send line state = (.ok (), after)) :
      Passes host step board state [.sent line] after

/-- The host ends the work at the step. -/
inductive Stops (host : Host σ) (step : Step α) (board : Board α) (state : σ) :
    Failure → List Action → σ → Prop where
  | cancelled (asked : step.request board = .permission) (cancelled : host.cancelled state = true) :
      Stops host step board state .cancelled [] state
  | refused {line : String} {failure : Failure} {after : σ}
      (asked : step.request board = .delivery line)
      (refused : host.send line state = (.error failure, after)) :
      Stops host step board state failure [.refused line] after

theorem passes_or_stops (host : Host σ) (step : Step α) (board : Board α) (state : σ) :
    (∃ actions after, Passes host step board state actions after) ∨
      ∃ failure actions after, Stops host step board state failure actions after := by
  cases asked : step.request board with
  | nothing => exact .inl ⟨_, _, .quiet asked⟩
  | permission =>
      cases cancelled : host.cancelled state with
      | true => exact .inr ⟨_, _, _, .cancelled asked cancelled⟩
      | false => exact .inl ⟨_, _, .granted asked cancelled⟩
  | delivery line =>
      rcases delivered : host.send line state with ⟨failure | _, after⟩
      · exact .inr ⟨_, _, _, .refused asked delivered⟩
      · exact .inl ⟨_, _, .delivered asked delivered⟩

section

variable {host : Host σ} {step : Step α} {board : Board α} {state after : σ} {actions : List Action}
  {failure : Failure}

theorem Passes.follow (passes : Passes host step board state actions after) (rest : List (Step α)) :
    follow host (step :: rest) board state =
      (follow host rest (step.apply board) after).after actions := by
  cases passes with
  | quiet asked => exact follow_of_nothing host asked rest state
  | granted asked granted => exact follow_of_granted asked granted rest
  | delivered asked delivered => exact follow_of_delivered asked delivered rest

theorem Stops.follow (stops : Stops host step board state failure actions after)
    (rest : List (Step α)) :
    follow host (step :: rest) board state = ⟨.error (.failed failure), board, after, actions⟩ := by
  cases stops with
  | cancelled asked cancelled => exact follow_of_cancelled asked cancelled rest
  | refused asked refused => exact follow_of_refused asked refused rest

end

/-- A heater that is settled is not waited for. -/
theorem await_of_settled (host : Host σ) (id : HeaterId) (patience : Nat) {board : Board α}
    (state : σ) (settled : board.isSettled id = true) :
    await host id patience board state = .done () board state := by
  cases patience <;> simp [await, settled]

theorem await_of_unsettled (host : Host σ) (id : HeaterId) (patience : Nat) {board : Board α}
    (state : σ) (unsettled : board.isSettled id = false) :
    await host id (patience + 1) board state =
      (follow host (Step.waitingRound board.busyInterval) board state).andThen
        fun _ board state => await host id patience board state := by
  simp [await, unsettled]

/-- The part of a plan after its steps. -/
def waitFor (host : Host σ) (patience : Nat) (waitsFor : Option HeaterId) (board : Board α)
    (state : σ) : Attempt α σ Unit :=
  match waitsFor with
  | none => .done () board state
  | some id => await host id patience board state

theorem perform_eq (host : Host σ) (patience : Nat) (plan : Plan α) (board : Board α) (state : σ) :
    perform host patience plan board state =
      ((follow host plan.steps board state).andThen fun _ board state =>
        waitFor host patience plan.waitsFor board state).andThen
          fun _ board state => .done (plan.reply.render board) board state := by
  obtain ⟨steps, waitsFor, reply⟩ := plan
  cases waitsFor <;> rfl

end Board

namespace Session

variable {α σ : Type}

/-- The session after the board has dealt with a line. -/
def took {β : Type} (session : Session α σ) (attempt : Attempt α σ β) : Session α σ :=
  { session with
    board := attempt.board
    link := attempt.host
    received := session.received + 1 }

theorem answer_of_silence (desk : Desk σ) {response : String} (session : Session α σ)
    (silent : response.toList.isEmpty = true) :
    answer desk response session = ⟨.ok (), session, []⟩ := by
  simp [answer, silent]

theorem answer_of_sent {desk : Desk σ} {response : String} {session : Session α σ} {link : σ}
    (spoken : response.toList.isEmpty = false)
    (sent : desk.transport.send response session.link = (.ok (), link)) :
    answer desk response session =
      ⟨.ok (), { session with link, answered := session.answered + 1 }, [.sent response]⟩ := by
  simp [answer, spoken, sent]

theorem answer_of_refused {desk : Desk σ} {response : String} {session : Session α σ} {link : σ}
    {failure : Failure} (spoken : response.toList.isEmpty = false)
    (refused : desk.transport.send response session.link = (.error failure, link)) :
    answer desk response session =
      ⟨.error (.failed failure), { session with link }, [.refused response]⟩ := by
  simp [answer, spoken, refused]

variable [Quantity α]

theorem handle_of_ignored (desk : Desk σ) {settings : SessionSettings} (patience : Nat)
    {raw : String} (session : Session α σ) (ignored : isIgnored settings (trimText raw) = true) :
    handle desk settings patience raw session =
      ⟨.ok (), { session with
        received := session.received + 1, ignored := session.ignored + 1 }, []⟩ := by
  simp [handle, ignored]

theorem handle_of_response {desk : Desk σ} {settings : SessionSettings} {patience : Nat}
    {raw : String} (session : Session α σ) {attempt : Attempt α σ String} {response : String}
    (heard : isIgnored settings (trimText raw) = false)
    (processed : session.board.process desk.host patience (trimText raw) session.link = attempt)
    (answered : attempt.outcome = .ok response) :
    handle desk settings patience raw session =
      ((session.took attempt).answer desk response).after attempt.actions := by
  simp [handle, heard, processed, answered, took]

theorem handle_of_stop {desk : Desk σ} {settings : SessionSettings} {patience : Nat}
    {raw : String} (session : Session α σ) {attempt : Attempt α σ String} {stop : Stop}
    (heard : isIgnored settings (trimText raw) = false)
    (processed : session.board.process desk.host patience (trimText raw) session.link = attempt)
    (stopped : attempt.outcome = .error stop) :
    handle desk settings patience raw session =
      ⟨.error stop, session.took attempt, attempt.actions⟩ := by
  simp [handle, heard, processed, stopped, took]

theorem turn_of_cancelled {desk : Desk σ} (settings : SessionSettings) (patience : Nat)
    {session : Session α σ} (cancelled : desk.sessionCancelled session.link = true) :
    session.turn desk settings patience = ⟨.ok (some .cancelled), session, []⟩ := by
  simp [turn, cancelled]

theorem turn_of_fault {desk : Desk σ} (settings : SessionSettings) (patience : Nat)
    {session : Session α σ} {failure : Failure} {link : σ}
    (continues : desk.sessionCancelled session.link = false)
    (read : desk.transport.read session.link = (.error failure, link)) :
    session.turn desk settings patience =
      ⟨.error (.failed failure), { session with link }, []⟩ := by
  simp [turn, continues, read]

theorem turn_of_nothing {desk : Desk σ} (settings : SessionSettings) (patience : Nat)
    {session : Session α σ} {link : σ}
    (continues : desk.sessionCancelled session.link = false)
    (read : desk.transport.read session.link = (.ok none, link)) :
    session.turn desk settings patience =
      ⟨.ok (if desk.transport.isOpen link then none else some .endOfInput),
        { session with link }, []⟩ := by
  simp [turn, continues, read]

/-- How a turn ends follows from how its line was handled. -/
def endTurn (exchange : Exchange α σ Unit) : Exchange α σ (Option Ending) :=
  match exchange.outcome with
  | .ok () => ⟨.ok none, exchange.session, exchange.actions⟩
  | .error (.failed .cancelled) => ⟨.ok (some .cancelled), exchange.session, exchange.actions⟩
  | .error stop => ⟨.error stop, exchange.session, exchange.actions⟩

theorem turn_of_line {desk : Desk σ} (settings : SessionSettings) (patience : Nat)
    {session : Session α σ} {line : String} {link : σ}
    (continues : desk.sessionCancelled session.link = false)
    (read : desk.transport.read session.link = (.ok (some line), link)) :
    session.turn desk settings patience =
      endTurn (handle desk settings patience line { session with link }) := by
  simp only [turn, continues, read, endTurn]
  rfl

omit [Quantity α] in
@[simp] theorem session_endTurn (exchange : Exchange α σ Unit) :
    (endTurn exchange).session = exchange.session := by
  rw [endTurn]
  split <;> rfl

end Session

end BenchPrinter
