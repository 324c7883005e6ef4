import BenchPrinter.Link.Memory
import BenchPrinter.Link.Rehearsal
import BenchPrinter.Proofs.Upkeep

/-!
An interruption only cuts a session short. The interrupted session and the uninterrupted one go in
step, with the same board and the same lines sent, until the interruption is noticed; from then on
only the uninterrupted one goes on.
-/

namespace BenchPrinter

/-- The token is set before the start or at some point of the session. -/
def Interruption.Cancels (interruption : Interruption) (before : Bool) : Prop :=
  before = true ∨ interruption.cancelAtRead ≠ none ∨ interruption.cancelAfterSends ≠ none

namespace Rehearsal

/-- One token serves the session and the board. -/
def desk (interruption : Interruption) : Desk (Rehearsal MemoryLink) :=
  .sharing (transport interruption MemoryLink.transport) (·.cancelled)

/-- Lines that were sent are never taken back. -/
def Extends (earlier later : Rehearsal MemoryLink) : Prop :=
  earlier.sent.toList <+: later.sent.toList

theorem upholds_extends (interruption : Interruption) :
    (desk interruption).transport.Upholds Extends where
  same _ := List.prefix_rfl
  chain := List.IsPrefix.trans
  send line rehearsal := by
    simp only [desk, Desk.sharing, transport, send, MemoryLink.transport, MemoryLink.send]
    split <;> simp [Extends]
  read _ := List.prefix_rfl

/-- The interrupted rehearsal has done exactly what the full one has; only its token may be set, and
then the interruption has set it. -/
structure InStep (interruption : Interruption) (before : Bool)
    (full part : Rehearsal MemoryLink) : Prop where
  link : part.link = full.link
  reads : part.reads = full.reads
  sent : part.sent = full.sent
  uncancelled : full.cancelled = false
  cause : part.cancelled = true → interruption.Cancels before
  room : ∀ count, interruption.refuseAfterSends = some count → part.sent.size ≤ count

/-- The interrupted rehearsal has ended with the failure, having sent a part of the lines; a refused
line is the next one of the full rehearsal. -/
inductive Cut (interruption : Interruption) (before : Bool) (full part : Rehearsal MemoryLink) :
    Failure → Prop where
  | cancelled (shorter : Extends part full) (cause : interruption.Cancels before) :
      Cut interruption before full part .cancelled
  | refused (line : String) (shorter : Extends part full)
      (next : full.sent.toList[part.sent.size]? = some line)
      (count : interruption.refuseAfterSends = some part.sent.size) :
      Cut interruption before full part (.notSent line "sink closed")

section

variable {interruption : Interruption} {before : Bool} {full part : Rehearsal MemoryLink}

theorem Cut.extend {failure : Failure} {later : Rehearsal MemoryLink}
    (cut : Cut interruption before full part failure) (further : Extends full later) :
    Cut interruption before later part failure := by
  cases cut with
  | cancelled shorter cause => exact .cancelled (shorter.trans further) cause
  | refused line shorter next count =>
      obtain ⟨inside, _⟩ := List.getElem?_eq_some_iff.1 next
      obtain ⟨rest, whole⟩ := further
      refine .refused line (shorter.trans ⟨rest, whole⟩) ?_ count
      rw [← whole, List.getElem?_append_left inside, next]

theorem InStep.start {link : MemoryLink} :
    InStep interruption before (.start link false) (.start link before) where
  link := rfl
  reads := rfl
  sent := rfl
  uncancelled := rfl
  cause cancelled := .inl cancelled
  room _ _ := Nat.zero_le _

/-- A line that the full rehearsal sends is sent by the interrupted one too, or it is the line that
is refused. -/
theorem InStep.send (inStep : InStep interruption before full part) (line : String) :
    ∃ fullAfter, (desk .never).transport.send line full = (.ok (), fullAfter) ∧
      ((∃ partAfter, (desk interruption).transport.send line part = (.ok (), partAfter) ∧
          InStep interruption before fullAfter partAfter) ∨
        (desk interruption).transport.send line part = (.error (.notSent line "sink closed"), part) ∧
          Cut interruption before fullAfter part (.notSent line "sink closed")) := by
  obtain ⟨link, reads, sent, cancelled⟩ := full
  obtain ⟨partLink, partReads, partSent, partCancelled⟩ := part
  obtain ⟨rfl, rfl, rfl, rfl, cause, room⟩ := inStep
  refine ⟨⟨⟨partLink.input, partLink.log.push line⟩, partReads, partSent.push line, false⟩, rfl, ?_⟩
  cases refuses : interruption.refuses partSent.size with
  | false =>
      refine .inl ⟨⟨⟨partLink.input, partLink.log.push line⟩, partReads, partSent.push line,
        partCancelled || interruption.cancels (partSent.size + 1)⟩, ?_, rfl, rfl, rfl, rfl, ?_, ?_⟩
      · simp [desk, Desk.sharing, transport, Rehearsal.send, refuses, MemoryLink.transport,
          MemoryLink.send]
      · intro cancelled
        rcases Bool.or_eq_true_iff.1 cancelled with earlier | now
        · exact cause earlier
        · right
          right
          simp only [Interruption.cancels, decide_eq_true_eq] at now
          simp [now]
      · intro count counted
        have within := room count counted
        simp only [Interruption.refuses, counted, decide_eq_false_iff_not] at refuses
        simp only [Array.size_push] at within ⊢
        omega
  | true =>
      refine .inr ⟨by simp [desk, Desk.sharing, transport, Rehearsal.send, refuses], ?_⟩
      obtain ⟨count, counted, reached⟩ : ∃ count, interruption.refuseAfterSends = some count ∧
          count ≤ partSent.size := by
        cases counted : interruption.refuseAfterSends with
        | none => simp [Interruption.refuses, counted] at refuses
        | some count => exact ⟨count, rfl, by simpa [Interruption.refuses, counted] using refuses⟩
      have full : count = partSent.size := Nat.le_antisymm reached (room count counted)
      exact .refused line (by simp [Extends]) (by simp) (by rw [counted, full])

/-- Both rehearsals read the same. -/
theorem InStep.read (inStep : InStep interruption before full part) :
    ((desk interruption).transport.read part).1 = ((desk .never).transport.read full).1 ∧
      InStep interruption before ((desk .never).transport.read full).2
        ((desk interruption).transport.read part).2 := by
  obtain ⟨link, reads, sent, cancelled⟩ := full
  obtain ⟨partLink, partReads, partSent, partCancelled⟩ := part
  obtain ⟨rfl, rfl, rfl, rfl, cause, room⟩ := inStep
  refine ⟨rfl, rfl, rfl, rfl, rfl, ?_, room⟩
  intro cancelled
  rcases Bool.or_eq_true_iff.1 cancelled with earlier | now
  · exact cause earlier
  · right
    left
    simp only [decide_eq_true_eq] at now
    simp [now]

variable {α β γ : Type}

/-- Interrupted work goes in step with the full work to its end, or it is cut short. -/
def Shadows (interruption : Interruption) (before : Bool)
    (full part : Attempt α (Rehearsal MemoryLink) β) : Prop :=
  (part.outcome = full.outcome ∧ part.board = full.board ∧
      InStep interruption before full.host part.host) ∨
    ∃ failure, part.outcome = .error (.failed failure) ∧
      Cut interruption before full.host part.host failure

/-- The full work goes on after a cut and only sends more lines. -/
theorem Shadows.andThen {first second : Attempt α (Rehearsal MemoryLink) β}
    {next other : β → Board α → Rehearsal MemoryLink → Attempt α (Rehearsal MemoryLink) γ}
    (shadows : Shadows interruption before first second)
    (grows : ∀ value board state, Extends state (next value board state).host)
    (continues : ∀ value board full part, InStep interruption before full part →
      Shadows interruption before (next value board full) (other value board part)) :
    Shadows interruption before (first.andThen next) (second.andThen other) := by
  rcases shadows with ⟨sameOutcome, sameBoard, inStep⟩ | ⟨failure, failed, cut⟩
  · cases reached : first.outcome with
    | ok value =>
        rw [Attempt.andThen_of_ok reached, Attempt.andThen_of_ok (sameOutcome.trans reached),
          sameBoard]
        exact continues value first.board first.host second.host inStep
    | error stop =>
        rw [Attempt.andThen_of_error reached, Attempt.andThen_of_error (sameOutcome.trans reached)]
        exact .inl ⟨rfl, sameBoard, inStep⟩
  · rw [Attempt.andThen_of_error failed]
    refine .inr ⟨failure, rfl, cut.extend ?_⟩
    exact Board.andThen_upholds (upholds_extends .never).host List.prefix_rfl grows

/-- A piece of an interrupted session goes in step with the full one, or it is cut short; then its
outcome is the one that the failure leads to. -/
def Follows (interruption : Interruption) (before : Bool) (ends : Failure → Except Stop β)
    (full part : Exchange α (Rehearsal MemoryLink) β) : Prop :=
  (part.outcome = full.outcome ∧
      part.session = { full.session with link := part.session.link } ∧
      InStep interruption before full.session.link part.session.link) ∨
    ∃ failure, part.outcome = ends failure ∧
      Cut interruption before full.session.link part.session.link failure

theorem answer_follows (session : Session α (Rehearsal MemoryLink))
    (inStep : InStep interruption before session.link part) (response : String) :
    Follows interruption before (fun failure => .error (.failed failure))
      (session.answer (desk .never) response)
      (Session.answer (desk interruption) response { session with link := part }) := by
  cases silent : response.toList.isEmpty with
  | true =>
      rw [Session.answer_of_silence _ _ silent, Session.answer_of_silence _ _ silent]
      exact .inl ⟨rfl, rfl, inStep⟩
  | false =>
      obtain ⟨fullAfter, accepted, ⟨partAfter, delivered, inStep⟩ | ⟨refused, cut⟩⟩ :=
        inStep.send response
      · rw [Session.answer_of_sent silent accepted, Session.answer_of_sent silent delivered]
        exact .inl ⟨rfl, rfl, inStep⟩
      · rw [Session.answer_of_sent silent accepted, Session.answer_of_refused silent refused]
        exact .inr ⟨_, rfl, cut⟩

variable [Quantity α]

theorem follow_shadows (inStep : InStep interruption before full part) (steps : List (Step α))
    (board : Board α) :
    Shadows interruption before (Board.follow (desk .never).host steps board full)
      (Board.follow (desk interruption).host steps board part) := by
  have later (steps : List (Step α)) (board : Board α) (state : Rehearsal MemoryLink) :
      Extends state (Board.follow (desk .never).host steps board state).host :=
    Board.follow_upholds (upholds_extends .never).host steps board state
  induction steps generalizing board full part with
  | nil => exact .inl ⟨rfl, rfl, inStep⟩
  | cons step rest inductionHypothesis =>
      cases asked : step.request board with
      | nothing =>
          rw [Board.follow_of_nothing _ asked, Board.follow_of_nothing _ asked]
          exact inductionHypothesis inStep (step.apply board)
      | permission =>
          rw [Board.follow_of_granted asked inStep.uncancelled]
          cases cancelled : part.cancelled with
          | false =>
              rw [Board.follow_of_granted asked cancelled]
              exact inductionHypothesis inStep (step.apply board)
          | true =>
              rw [Board.follow_of_cancelled asked cancelled]
              refine .inr ⟨.cancelled, rfl, .cancelled ?_ (inStep.cause cancelled)⟩
              rw [Extends, Attempt.stopped, inStep.sent]
              exact later rest (step.apply board) full
      | delivery line =>
          obtain ⟨fullAfter, accepted, ⟨partAfter, delivered, inStep⟩ | ⟨refused, cut⟩⟩ :=
            inStep.send line
          · rw [Board.follow_of_delivered asked accepted, Board.follow_of_delivered asked delivered]
            exact inductionHypothesis inStep (step.apply board)
          · rw [Board.follow_of_delivered asked accepted, Board.follow_of_refused asked refused]
            exact .inr ⟨_, rfl, cut.extend (later rest (step.apply board) fullAfter)⟩

theorem await_shadows (inStep : InStep interruption before full part) (id : HeaterId)
    (patience : Nat) (board : Board α) :
    Shadows interruption before (Board.await (desk .never).host id patience board full)
      (Board.await (desk interruption).host id patience board part) := by
  induction patience generalizing board full part with
  | zero =>
      rw [Board.await, Board.await]
      split <;> exact .inl ⟨rfl, rfl, inStep⟩
  | succ patience inductionHypothesis =>
      cases settled : board.isSettled id with
      | true =>
          rw [Board.await_of_settled _ id _ full settled, Board.await_of_settled _ id _ part settled]
          exact .inl ⟨rfl, rfl, inStep⟩
      | false =>
          rw [Board.await_of_unsettled _ id _ full settled,
            Board.await_of_unsettled _ id _ part settled]
          refine (follow_shadows inStep (Step.waitingRound board.busyInterval) board).andThen ?_ ?_
          · intro _ board state
            exact Board.await_upholds (upholds_extends .never).host id patience board state
          · intro _ board full part inStep
            exact inductionHypothesis inStep board

theorem waitFor_shadows (inStep : InStep interruption before full part)
    (waitsFor : Option HeaterId) (patience : Nat) (board : Board α) :
    Shadows interruption before (Board.waitFor (desk .never).host patience waitsFor board full)
      (Board.waitFor (desk interruption).host patience waitsFor board part) := by
  cases waitsFor with
  | none => exact .inl ⟨rfl, rfl, inStep⟩
  | some id => exact await_shadows inStep id patience board

theorem process_shadows (inStep : InStep interruption before full part) (patience : Nat)
    (line : String) (board : Board α) :
    Shadows interruption before (board.process (desk .never).host patience line full)
      (board.process (desk interruption).host patience line part) := by
  rw [Board.process, Board.process, Board.perform_eq, Board.perform_eq]
  generalize Plan.ofLine board line = plan
  refine Shadows.andThen (Shadows.andThen (follow_shadows inStep plan.steps board) ?_ ?_) ?_ ?_
  · intro _ board state
    exact Board.waitFor_upholds (upholds_extends .never).host patience plan.waitsFor board state
  · intro _ board full part inStep
    exact waitFor_shadows inStep plan.waitsFor patience board
  · intro _ _ _
    exact List.prefix_rfl
  · intro _ board full part inStep
    exact .inl ⟨rfl, rfl, inStep⟩

theorem handle_follows (session : Session α (Rehearsal MemoryLink))
    (inStep : InStep interruption before session.link part) (settings : SessionSettings)
    (patience : Nat) (raw : String) :
    Follows interruption before (fun failure => .error (.failed failure))
      (session.handle (desk .never) settings patience raw)
      (Session.handle (desk interruption) settings patience raw { session with link := part }) := by
  cases heard : Session.isIgnored settings (trimText raw) with
  | true =>
      rw [Session.handle_of_ignored _ _ _ heard, Session.handle_of_ignored _ _ _ heard]
      exact .inl ⟨rfl, rfl, inStep⟩
  | false =>
      have shadows := process_shadows inStep patience (trimText raw) session.board
      generalize fullWork : session.board.process (desk .never).host patience (trimText raw)
        session.link = fullAttempt at shadows
      generalize partWork : session.board.process (desk interruption).host patience (trimText raw)
        part = partAttempt at shadows
      rcases shadows with ⟨sameOutcome, sameBoard, inStep⟩ | ⟨failure, failed, cut⟩
      · have sameSession : Session.took { session with link := part } partAttempt =
            { session.took fullAttempt with link := partAttempt.host } := by
          simp only [Session.took, sameBoard]
        cases reached : fullAttempt.outcome with
        | ok response =>
            rw [Session.handle_of_response session heard fullWork reached,
              Session.handle_of_response { session with link := part } heard partWork
                (sameOutcome.trans reached), sameSession]
            exact answer_follows (session.took fullAttempt) inStep response
        | error stop =>
            rw [Session.handle_of_stop session heard fullWork reached,
              Session.handle_of_stop { session with link := part } heard partWork
                (sameOutcome.trans reached), sameSession]
            exact .inl ⟨rfl, rfl, inStep⟩
      · rw [Session.handle_of_stop { session with link := part } heard partWork failed]
        refine .inr ⟨failure, rfl, cut.extend ?_⟩
        cases reached : fullAttempt.outcome with
        | ok response =>
            rw [Session.handle_of_response session heard fullWork reached]
            exact Session.answer_upholds (upholds_extends .never) response
              (session.took fullAttempt)
        | error stop =>
            rw [Session.handle_of_stop session heard fullWork reached]
            exact List.prefix_rfl

/-- A cancelled line ends the session quietly, any other failure ends it with an error. -/
def ending : Failure → Except Stop (Option Ending)
  | .cancelled => .ok (some .cancelled)
  | failure => .error (.failed failure)

omit [Quantity α] in
theorem endTurn_follows {full interrupted : Exchange α (Rehearsal MemoryLink) Unit}
    (follows : Follows interruption before (fun failure => .error (.failed failure))
      full interrupted) :
    Follows interruption before ending (Session.endTurn full) (Session.endTurn interrupted) := by
  rcases follows with ⟨sameOutcome, sameSession, inStep⟩ | ⟨failure, failed, cut⟩
  · refine .inl ⟨?_, ?_, ?_⟩
    · simp only [Session.endTurn, sameOutcome]
      split <;> rfl
    · simpa only [Session.session_endTurn] using sameSession
    · simpa only [Session.session_endTurn] using inStep
  · refine .inr ⟨failure, ?_, ?_⟩
    · simp only [Session.endTurn, failed]
      cases failure <;> rfl
    · simpa only [Session.session_endTurn] using cut

theorem turn_follows (session : Session α (Rehearsal MemoryLink))
    (inStep : InStep interruption before session.link part) (settings : SessionSettings)
    (patience : Nat) :
    Follows interruption before ending (session.turn (desk .never) settings patience)
      (Session.turn (desk interruption) settings patience { session with link := part }) := by
  have continues : (desk .never).sessionCancelled session.link = false := inStep.uncancelled
  cases cancelled : part.cancelled with
  | true =>
      have stops : (desk interruption).sessionCancelled
          ({ session with link := part } : Session α (Rehearsal MemoryLink)).link = true := cancelled
      rw [Session.turn_of_cancelled settings patience stops]
      refine .inr ⟨.cancelled, rfl, .cancelled ?_ (inStep.cause cancelled)⟩
      rw [Extends, inStep.sent]
      exact Session.turn_upholds (upholds_extends .never) settings patience session
  | false =>
      have partContinues : (desk interruption).sessionCancelled part = false := cancelled
      obtain ⟨sameReading, inStep⟩ := inStep.read
      rcases fullRead : (desk .never).transport.read session.link with ⟨failure | _ | line, link⟩ <;>
        rcases partRead : (desk interruption).transport.read part with ⟨reading, partLink⟩ <;>
        rw [fullRead, partRead] at sameReading inStep <;>
        obtain rfl : reading = _ := sameReading
      · rw [Session.turn_of_fault settings patience continues fullRead,
          Session.turn_of_fault settings patience partContinues partRead]
        exact .inl ⟨rfl, rfl, inStep⟩
      · rw [Session.turn_of_nothing settings patience continues fullRead,
          Session.turn_of_nothing settings patience partContinues partRead]
        have sameLink : partLink.link = link.link := inStep.link
        have sameOpen : (desk interruption).transport.isOpen partLink =
            (desk .never).transport.isOpen link := by
          simp only [desk, Desk.sharing, transport, sameLink]
        exact .inl ⟨by simp only [sameOpen], rfl, inStep⟩
      · rw [Session.turn_of_line settings patience continues fullRead,
          Session.turn_of_line settings patience partContinues partRead]
        exact endTurn_follows (handle_follows { session with link } inStep settings patience line)

end

end Rehearsal

end BenchPrinter
