import BenchPrinter.Proofs.Lockstep

/-!
Two sessions side by side. As long as their links give the same lines and take the same answers, the
sessions go the same way. The second one may leave the first where a read of its link fails.
-/

namespace BenchPrinter

section

variable {α σ τ : Type}

/-- Desks with related links are alike, but for a read of the second link that fails with one of the
escapes. -/
structure Desk.Agrees (desk : Desk σ) (other : Desk τ) (related : σ → τ → Prop)
    (escapes : Failure → Prop) : Prop where
  host : desk.host.Agrees other.host related
  cancelled : ∀ {link otherLink}, related link otherLink →
    other.sessionCancelled otherLink = desk.sessionCancelled link
  isOpen : ∀ {link otherLink}, related link otherLink →
    other.transport.isOpen otherLink = desk.transport.isOpen link
  read : ∀ {link otherLink}, related link otherLink →
    (∃ failure after, escapes failure ∧
      other.transport.read otherLink = (.error failure, after)) ∨
    (other.transport.read otherLink).1 = (desk.transport.read link).1 ∧
      related (desk.transport.read link).2 (other.transport.read otherLink).2

/-- The sessions differ in their links only. -/
structure Session.InTandem (related : σ → τ → Prop) (session : Session α σ)
    (other : Session α τ) : Prop where
  board : other.board = session.board
  received : other.received = session.received
  ignored : other.ignored = session.ignored
  answered : other.answered = session.answered
  link : related session.link other.link

/-- Both exchanges have gone the same way. -/
structure Exchange.Matches {β : Type} (related : σ → τ → Prop) (exchange : Exchange α σ β)
    (other : Exchange α τ β) : Prop where
  outcome : other.outcome = exchange.outcome
  actions : other.actions = exchange.actions
  session : exchange.session.InTandem related other.session

end

namespace Session

open Exchange (Matches)

variable {α σ τ : Type} {desk : Desk σ} {other : Desk τ} {related : σ → τ → Prop}
  {escapes : Failure → Prop} {session : Session α σ} {beside : Session α τ}

theorem InTandem.summary (tandem : session.InTandem related beside) (ending : Ending) :
    beside.summary ending = session.summary ending := by
  rw [Session.summary, Session.summary, tandem.received, tandem.ignored, tandem.answered]

theorem answer_matches (agrees : desk.Agrees other related escapes) (response : String)
    (tandem : session.InTandem related beside) :
    Matches related (session.answer desk response) (beside.answer other response) := by
  cases silent : response.toList.isEmpty with
  | true =>
      rw [answer_of_silence desk session silent, answer_of_silence other beside silent]
      exact ⟨rfl, rfl, tandem⟩
  | false =>
      obtain ⟨sameAnswer, linkAfter⟩ := agrees.host.send response tandem.link
      obtain ⟨board, received, ignored, answered, -⟩ := tandem
      rcases sent : desk.transport.send response session.link with ⟨failure | _, link⟩ <;>
        rcases otherSent : other.transport.send response beside.link with ⟨outcome, otherLink⟩ <;>
        simp only [Desk.host, sent, otherSent] at sameAnswer linkAfter <;>
        subst sameAnswer
      · rw [answer_of_refused silent sent, answer_of_refused silent otherSent]
        exact ⟨rfl, rfl, board, received, ignored, answered, linkAfter⟩
      · rw [answer_of_sent silent sent, answer_of_sent silent otherSent]
        exact ⟨rfl, rfl, board, received, ignored, congrArg (· + 1) answered, linkAfter⟩

theorem endTurn_matches {exchange : Exchange α σ Unit} {beside : Exchange α τ Unit}
    (same : Matches related exchange beside) :
    Matches related (endTurn exchange) (endTurn beside) := by
  obtain ⟨outcome, actions, session⟩ := same
  have ended : (endTurn beside).outcome = (endTurn exchange).outcome := by
    simp only [endTurn, outcome]
    split <;> rfl
  have done : (endTurn beside).actions = (endTurn exchange).actions := by
    simp only [endTurn, outcome]
    split <;> exact actions
  refine ⟨ended, done, ?_⟩
  rw [session_endTurn, session_endTurn]
  exact session

variable [Quantity α]

theorem handle_matches (agrees : desk.Agrees other related escapes) (settings : SessionSettings)
    (patience : Nat) (raw : String) (tandem : session.InTandem related beside) :
    Matches related (session.handle desk settings patience raw)
      (beside.handle other settings patience raw) := by
  obtain ⟨sameBoard, received, ignored, answered, link⟩ := tandem
  cases heard : isIgnored settings (trimText raw) with
  | true =>
      rw [handle_of_ignored desk patience session heard,
        handle_of_ignored other patience beside heard]
      exact ⟨rfl, rfl, sameBoard, congrArg (· + 1) received, congrArg (· + 1) ignored, answered,
        link⟩
  | false =>
      have lockstep := Board.process_lockstep Board.likeness_eq agrees.host patience (trimText raw)
        sameBoard.symm link
      generalize worked : session.board.process desk.host patience (trimText raw) session.link =
        attempt at lockstep
      generalize otherWorked : beside.board.process other.host patience (trimText raw) beside.link =
        otherAttempt at lockstep
      have took : (session.took attempt).InTandem related (beside.took otherAttempt) :=
        ⟨lockstep.board.symm, congrArg (· + 1) received, ignored, answered, lockstep.host⟩
      rcases lockstep.outcome with ⟨stop, stopped, otherStopped⟩ | ⟨replied, otherReplied⟩
      · rw [handle_of_stop session heard worked stopped,
          handle_of_stop beside heard otherWorked otherStopped]
        exact ⟨rfl, lockstep.actions, took⟩
      · rw [← lockstep.board] at otherReplied
        generalize (Plan.ofLine session.board (trimText raw)).reply.render attempt.board = response
          at replied otherReplied
        rw [handle_of_response session heard worked replied,
          handle_of_response beside heard otherWorked otherReplied]
        obtain ⟨outcome, actions, tandem⟩ := answer_matches agrees response took
        refine ⟨outcome, ?_, tandem⟩
        rw [Exchange.after, Exchange.after, lockstep.actions, actions]

/-- A turn goes alike on both sides, or its read is an escape. -/
theorem turn_matches (agrees : desk.Agrees other related escapes) (settings : SessionSettings)
    (patience : Nat) (tandem : session.InTandem related beside) :
    (∃ failure, escapes failure ∧
      (beside.turn other settings patience).outcome = .error (.failed failure)) ∨
    Matches related (session.turn desk settings patience)
      (beside.turn other settings patience) := by
  have sameToken := agrees.cancelled tandem.link
  cases cancelled : desk.sessionCancelled session.link with
  | true =>
      rw [turn_of_cancelled settings patience cancelled,
        turn_of_cancelled settings patience (sameToken.trans cancelled)]
      exact .inr ⟨rfl, rfl, tandem⟩
  | false =>
      have continues := sameToken.trans cancelled
      rcases agrees.read tandem.link with ⟨failure, after, escape, read⟩ | ⟨sameReading, link⟩
      · rw [turn_of_fault settings patience continues read]
        exact .inl ⟨failure, escape, rfl⟩
      right
      obtain ⟨board, received, ignored, answered, -⟩ := tandem
      rcases read : desk.transport.read session.link with ⟨failure | _ | line, after⟩ <;>
        rcases otherRead : other.transport.read beside.link with ⟨reading, otherAfter⟩ <;>
        rw [read, otherRead] at sameReading link <;>
        obtain rfl : reading = _ := sameReading
      · rw [turn_of_fault settings patience cancelled read,
          turn_of_fault settings patience continues otherRead]
        exact ⟨rfl, rfl, board, received, ignored, answered, link⟩
      · rw [turn_of_nothing settings patience cancelled read,
          turn_of_nothing settings patience continues otherRead, agrees.isOpen link]
        exact ⟨rfl, rfl, board, received, ignored, answered, link⟩
      · rw [turn_of_line settings patience cancelled read,
          turn_of_line settings patience continues otherRead]
        exact endTurn_matches (handle_matches agrees settings patience line
          ⟨board, received, ignored, answered, link⟩)

/-- Turn after turn the sessions go alike, unless a read of the second one is an escape. -/
theorem run_matches (agrees : desk.Agrees other related escapes) (settings : SessionSettings)
    (patience : Nat) (tandem : session.InTandem related beside) :
    (∃ failure, escapes failure ∧
      (beside.run other settings patience).1 = .error (.failed failure)) ∨
    (beside.run other settings patience).1 = (session.run desk settings patience).1 ∧
      (session.run desk settings patience).2.InTandem related
        (beside.run other settings patience).2 := by
  induction patience generalizing session beside with
  | zero => exact .inr ⟨rfl, tandem⟩
  | succ patience inductionHypothesis =>
      rw [run, run]
      rcases turn_matches agrees settings patience tandem with ⟨failure, escape, escaped⟩ | same
      · left
        simp only [escaped]
        exact ⟨failure, escape, rfl⟩
      · obtain ⟨outcome, -, later⟩ := same
        simp only [outcome]
        split
        · exact inductionHypothesis later
        · exact .inr ⟨by rw [later.summary], later⟩
        · exact .inr ⟨rfl, later⟩

end Session

end BenchPrinter
