import BenchPrinter.Proofs.Work

/-!
What every call of a host or a transport keeps, all work in front of it keeps. The relation
compares a state with a later one.
-/

namespace BenchPrinter

/-- The relation holds between a state of the host and each state it comes to by taking lines. -/
structure Host.Upholds {σ : Type} (host : Host σ) (relation : σ → σ → Prop) : Prop where
  same : ∀ state, relation state state
  chain : ∀ {first second third}, relation first second → relation second third →
    relation first third
  send : ∀ line state, relation state (host.send line state).2

/-- The relation holds between a state of the transport and each state it comes to by its calls. -/
structure Transport.Upholds {σ : Type} (transport : Transport σ) (relation : σ → σ → Prop) :
    Prop where
  same : ∀ state, relation state state
  chain : ∀ {first second third}, relation first second → relation second third →
    relation first third
  send : ∀ line state, relation state (transport.send line state).2
  read : ∀ state, relation state (transport.read state).2

theorem Transport.Upholds.host {σ : Type} {desk : Desk σ} {relation : σ → σ → Prop}
    (upholds : desk.transport.Upholds relation) : desk.host.Upholds relation :=
  ⟨upholds.same, upholds.chain, upholds.send⟩

namespace Board

variable {α σ β γ : Type} {relation : σ → σ → Prop}

theorem andThen_upholds {host : Host σ} (upholds : host.Upholds relation) {state : σ}
    {attempt : Attempt α σ β} {next : β → Board α → σ → Attempt α σ γ}
    (first : relation state attempt.host)
    (second : ∀ value board state, relation state (next value board state).host) :
    relation state (attempt.andThen next).host := by
  cases reached : attempt.outcome with
  | ok value =>
      rw [Attempt.andThen_of_ok reached]
      exact upholds.chain first (second _ _ _)
  | error stop =>
      rw [Attempt.andThen_of_error reached]
      exact first

variable [Quantity α]

theorem follow_upholds {host : Host σ} (upholds : host.Upholds relation) (steps : List (Step α))
    (board : Board α) (state : σ) : relation state (follow host steps board state).host := by
  induction steps generalizing board state with
  | nil => exact upholds.same state
  | cons step rest inductionHypothesis =>
      cases asked : step.request board with
      | nothing =>
          rw [follow_of_nothing host asked]
          exact inductionHypothesis _ _
      | permission =>
          cases cancelled : host.cancelled state with
          | true => rw [follow_of_cancelled asked cancelled]; exact upholds.same state
          | false => rw [follow_of_granted asked cancelled]; exact inductionHypothesis _ _
      | delivery line =>
          have sent := upholds.send line state
          rcases delivered : host.send line state with ⟨failure | _, after⟩ <;>
            rw [delivered] at sent
          · rw [follow_of_refused asked delivered]
            exact sent
          · rw [follow_of_delivered asked delivered]
            exact upholds.chain sent (inductionHypothesis _ _)

theorem await_upholds {host : Host σ} (upholds : host.Upholds relation) (id : HeaterId)
    (patience : Nat) (board : Board α) (state : σ) :
    relation state (await host id patience board state).host := by
  induction patience generalizing board state with
  | zero => rw [await]; split <;> exact upholds.same state
  | succ patience inductionHypothesis =>
      cases settled : board.isSettled id with
      | true => rw [await_of_settled host id _ state settled]; exact upholds.same state
      | false =>
          rw [await_of_unsettled host id _ state settled]
          exact andThen_upholds upholds (follow_upholds upholds _ _ _)
            fun _ board state => inductionHypothesis board state

theorem waitFor_upholds {host : Host σ} (upholds : host.Upholds relation) (patience : Nat)
    (waitsFor : Option HeaterId) (board : Board α) (state : σ) :
    relation state (waitFor host patience waitsFor board state).host := by
  cases waitsFor with
  | none => exact upholds.same state
  | some id => exact await_upholds upholds id patience board state

theorem process_upholds {host : Host σ} (upholds : host.Upholds relation) (patience : Nat)
    (line : String) (board : Board α) (state : σ) :
    relation state (process host patience line board state).host := by
  rw [process, perform_eq]
  generalize Plan.ofLine board line = plan
  have worked := andThen_upholds upholds (follow_upholds upholds plan.steps board state)
    fun _ board state => waitFor_upholds upholds patience plan.waitsFor board state
  exact andThen_upholds upholds worked fun _ _ state => upholds.same state

end Board

namespace Session

variable {α σ : Type} {relation : σ → σ → Prop}

theorem answer_upholds {desk : Desk σ} (upholds : desk.transport.Upholds relation)
    (response : String) (session : Session α σ) :
    relation session.link (session.answer desk response).session.link := by
  cases silent : response.toList.isEmpty with
  | true => rw [answer_of_silence desk session silent]; exact upholds.same _
  | false =>
      have sent := upholds.send response session.link
      rcases delivered : desk.transport.send response session.link with ⟨failure | _, link⟩ <;>
        rw [delivered] at sent
      · rw [answer_of_refused silent delivered]
        exact sent
      · rw [answer_of_sent silent delivered]
        exact sent

variable [Quantity α]

theorem handle_upholds {desk : Desk σ} (upholds : desk.transport.Upholds relation)
    (settings : SessionSettings) (patience : Nat) (raw : String) (session : Session α σ) :
    relation session.link (handle desk settings patience raw session).session.link := by
  cases heard : isIgnored settings (trimText raw) with
  | true => rw [handle_of_ignored desk _ session heard]; exact upholds.same _
  | false =>
      have processed :=
        Board.process_upholds upholds.host patience (trimText raw) session.board session.link
      generalize attempted : session.board.process desk.host patience (trimText raw) session.link =
        attempt at processed
      cases ended : attempt.outcome with
      | ok response =>
          rw [handle_of_response session heard attempted ended]
          exact upholds.chain processed (answer_upholds upholds response (session.took attempt))
      | error stop =>
          rw [handle_of_stop session heard attempted ended]
          exact processed

theorem turn_upholds {desk : Desk σ} (upholds : desk.transport.Upholds relation)
    (settings : SessionSettings) (patience : Nat) (session : Session α σ) :
    relation session.link (session.turn desk settings patience).session.link := by
  cases continues : desk.sessionCancelled session.link with
  | true => rw [turn_of_cancelled _ _ continues]; exact upholds.same _
  | false =>
      have received := upholds.read session.link
      rcases read : desk.transport.read session.link with ⟨failure | _ | line, link⟩ <;>
        rw [read] at received
      · rw [turn_of_fault _ _ continues read]
        exact received
      · rw [turn_of_nothing _ _ continues read]
        exact received
      · rw [turn_of_line _ _ continues read, session_endTurn]
        exact upholds.chain received
          (handle_upholds upholds settings patience line { session with link })

theorem run_upholds {desk : Desk σ} (upholds : desk.transport.Upholds relation)
    (settings : SessionSettings) (patience : Nat) (session : Session α σ) :
    relation session.link (session.run desk settings patience).2.link := by
  induction patience generalizing session with
  | zero => exact upholds.same _
  | succ patience inductionHypothesis =>
      have turned := turn_upholds upholds settings patience session
      rw [run]
      split
      · exact upholds.chain turned (inductionHypothesis _)
      · exact turned
      · exact turned

end Session

end BenchPrinter
