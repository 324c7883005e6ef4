import BenchPrinter.Link.Memory
import BenchPrinter.Proofs.Reporting

/-!
Every command is acknowledged once. A session over lines in memory is a dialogue: each line is
followed by the texts that are sent for it, and the acknowledgement that the host waits for is the
last piece of them.
-/

namespace BenchPrinter

def Action.sent? : Action → Option String
  | sent text => some text
  | slept _ => none
  | refused _ => none

/-- The texts that were sent, in order. -/
def sentTexts (actions : List Action) : List String := actions.filterMap Action.sent?

@[simp] theorem sentTexts_append (first second : List Action) :
    sentTexts (first ++ second) = sentTexts first ++ sentTexts second :=
  List.filterMap_append

namespace MemoryLink

/-- Nobody sets a token, and every line is taken. -/
def desk : Desk MemoryLink := .sharing transport fun _ => false

theorem desk_willing : desk.Willing fun _ => True where
  host :=
    { continues := fun _ _ => rfl
      accepts := fun line link _ => ⟨(MemoryLink.send line link).2, rfl, trivial⟩ }
  continues _ _ := rfl
  reads link _ := ⟨link.input.head?, { link with input := link.input.tail }, rfl, trivial⟩

/-- Between two states of the link these texts were sent, and nothing was read. -/
structure Records (before : MemoryLink) (texts : List String) (after : MemoryLink) : Prop where
  input : after.input = before.input
  log : after.log.toList = before.log.toList ++ texts

namespace Records

variable {before middle after : MemoryLink} {first second : List String}

theorem refl (link : MemoryLink) : Records link [] link := ⟨rfl, by simp⟩

theorem send (text : String) (link : MemoryLink) : Records link [text] (link.send text).2 :=
  ⟨rfl, by simp [MemoryLink.send]⟩

theorem trans (earlier : Records before first middle) (later : Records middle second after) :
    Records before (first ++ second) after where
  input := later.input.trans earlier.input
  log := by rw [later.log, earlier.log, List.append_assoc]

end Records

end MemoryLink

namespace Board

open MemoryLink (Records)

variable {α β γ : Type} {kind : String → Prop}

/-- The work sends texts of one kind only, and all of them are logged. -/
structure Tells (kind : String → Prop) (link : MemoryLink) (attempt : Attempt α MemoryLink β) :
    Prop where
  records : Records link (sentTexts attempt.actions) attempt.host
  kind : ∀ text ∈ sentTexts attempt.actions, kind text

theorem tells_of_silent {link : MemoryLink} {attempt : Attempt α MemoryLink β}
    (silent : sentTexts attempt.actions = []) (same : attempt.host = link) :
    Tells kind link attempt :=
  ⟨by rw [silent, same]; exact .refl link, by simp [silent]⟩

theorem Tells.after {link middle : MemoryLink} {actions : List Action}
    {attempt : Attempt α MemoryLink β} (earlier : Records link (sentTexts actions) middle)
    (holds : ∀ text ∈ sentTexts actions, kind text) (tells : Tells kind middle attempt) :
    Tells kind link (attempt.after actions) := by
  constructor
  · rw [Attempt.actions_after, sentTexts_append]
    exact earlier.trans tells.records
  · rw [Attempt.actions_after, sentTexts_append]
    exact List.forall_mem_append.2 ⟨holds, tells.kind⟩

theorem Tells.andThen {link : MemoryLink} {attempt : Attempt α MemoryLink β}
    {next : β → Board α → MemoryLink → Attempt α MemoryLink γ} (first : Tells kind link attempt)
    (second : ∀ value board link, Tells kind link (next value board link)) :
    Tells kind link (attempt.andThen next) := by
  cases reached : attempt.outcome with
  | ok value =>
      rw [Attempt.andThen_of_ok reached]
      exact (second value _ _).after first.records first.kind
  | error stop =>
      rw [Attempt.andThen_of_error reached]
      exact ⟨first.records, first.kind⟩

variable [Quantity α]

theorem follow_tells {steps : List (Step α)} (sends : ∀ step ∈ steps, step.Sends kind)
    (board : Board α) (link : MemoryLink) :
    Tells kind link (follow MemoryLink.desk.host steps board link) := by
  induction steps generalizing board link with
  | nil => exact tells_of_silent rfl rfl
  | cons step rest inductionHypothesis =>
      have later := inductionHypothesis fun other member => sends other (.tail step member)
      cases asked : step.request board with
      | nothing =>
          have quiet : sentTexts step.quietActions = [] := by cases step <;> rfl
          rw [follow_of_nothing _ asked]
          exact (later _ _).after (by rw [quiet]; exact .refl link) (by simp [quiet])
      | permission =>
          rw [follow_of_granted asked rfl]
          exact later _ _
      | delivery text =>
          rw [follow_of_delivered asked (by rfl)]
          exact (later _ _).after (.send text link)
            (by simpa [sentTexts, Action.sent?] using sends step (.head rest) board text asked)

/-- All that is sent before the answer is progress. -/
theorem process_tells (patience : Nat) (line : String) (board : Board α) (link : MemoryLink) :
    Tells Report.IsProgress link (process MemoryLink.desk.host patience line board link) := by
  have await (id : HeaterId) (patience : Nat) (board : Board α) (link : MemoryLink) :
      Tells Report.IsProgress link (await MemoryLink.desk.host id patience board link) := by
    induction patience generalizing board link with
    | zero => rw [await]; split <;> exact tells_of_silent rfl rfl
    | succ patience inductionHypothesis =>
        cases settled : board.isSettled id with
        | true => rw [await_of_settled _ id _ link settled]; exact tells_of_silent rfl rfl
        | false =>
            rw [await_of_unsettled _ id _ link settled]
            exact (follow_tells (Step.waitingRound_sends _) board link).andThen
              fun _ => inductionHypothesis
  have waits (waitsFor : Option HeaterId) (board : Board α) (link : MemoryLink) :
      Tells Report.IsProgress link (waitFor MemoryLink.desk.host patience waitsFor board link) := by
    cases waitsFor with
    | none => exact tells_of_silent rfl rfl
    | some id => exact await id patience board link
  rw [process, perform_eq]
  have worked := (follow_tells (Plan.ofLine_sends board line) board link).andThen
    fun _ => waits (Plan.ofLine board line).waitsFor
  exact worked.andThen fun _ _ _ => tells_of_silent rfl rfl

end Board

namespace Board

variable {α σ : Type} [Quantity α]

/-- The answer is the reply of the plan, with the numbers of the board at the end. -/
theorem response_of_process (host : Host σ) (patience : Nat) (line : String) (board : Board α)
    (state : σ) (response : String)
    (answered : (process host patience line board state).outcome = .ok response) :
    response =
      (Plan.ofLine board line).reply.render (process host patience line board state).board := by
  rw [process, perform_eq] at answered ⊢
  generalize (follow host (Plan.ofLine board line).steps board state).andThen
    (fun _ middle state => waitFor host patience (Plan.ofLine board line).waitsFor middle state) =
      worked at answered ⊢
  cases reached : worked.outcome with
  | ok value =>
      rw [Attempt.andThen_of_ok reached] at answered ⊢
      exact (Except.ok.inj answered).symm
  | error stop =>
      rw [Attempt.andThen_of_error reached] at answered
      cases answered

end Board

namespace Session

open MemoryLink (desk Records)

/-- The host waits for an acknowledgement of the line. -/
def Owes (settings : SessionSettings) (raw : String) : Prop :=
  isIgnored settings (trimText raw) = false ∧ Command.Expects (trimText raw).toList

/-- All the pieces of some texts, in order. -/
def allPieces (texts : List String) : List (List Char) := texts.flatMap Report.pieces

/-- The texts acknowledge the line at their end if it is owed, and nowhere else. -/
structure Answers (settings : SessionSettings) (raw : String) (texts : List String) : Prop where
  owed : Owes settings raw → Report.Acknowledges (allPieces texts)
  other : ¬ Owes settings raw → ∀ piece ∈ allPieces texts, Report.isAcknowledgement piece = false

def acknowledgements (texts : List String) : Nat :=
  (allPieces texts).countP Report.isAcknowledgement

theorem allPieces_of_progress {texts : List String}
    (progress : ∀ text ∈ texts, Report.IsProgress text) :
    ∀ piece ∈ allPieces texts, Report.isAcknowledgement piece = false := by
  intro piece member
  obtain ⟨text, isText, member⟩ := List.mem_flatMap.1 member
  rw [(progress text isText).pieces, List.mem_singleton] at member
  exact member ▸ Report.not_isAcknowledgement (progress text isText).other

theorem acknowledgements_of_other {texts : List String}
    (other : ∀ piece ∈ allPieces texts, Report.isAcknowledgement piece = false) :
    acknowledgements texts = 0 :=
  List.countP_eq_zero.2 fun piece member => by simp [other piece member]

theorem acknowledgements_of_owed {texts : List String}
    (acknowledges : Report.Acknowledges (allPieces texts)) : acknowledgements texts = 1 := by
  obtain ⟨earlier, last, split, isLast, other⟩ := acknowledges
  have none : earlier.countP Report.isAcknowledgement = 0 :=
    List.countP_eq_zero.2 fun piece member => by simp [other piece member]
  rw [acknowledgements, split, List.countP_append, none]
  simp [isLast]

theorem lineEnd_not_mem_trimText {raw : String} (single : '\n' ∉ raw.toList) :
    '\n' ∉ (trimText raw).toList := by
  rw [trimText, String.toList_ofList, trim, dropTrailing, List.mem_reverse]
  intro member
  have inFront := List.mem_reverse.1 ((List.dropWhile_suffix _).subset member)
  exact single ((List.dropWhile_suffix _).subset inFront)

variable {α : Type} [Quantity α] {settings : SessionSettings}

/-- A line that the session has dealt with is answered as it is owed. -/
theorem handle_answers {patience : Nat} {raw : String} {session : Session α MemoryLink}
    (single : '\n' ∉ raw.toList)
    (dealt : (handle desk settings patience raw session).outcome = .ok ()) :
    let exchange := handle desk settings patience raw session
    Records session.link (sentTexts exchange.actions) exchange.session.link ∧
      Answers settings raw (sentTexts exchange.actions) ∧
      exchange.session.answered =
        session.answered + acknowledgements (sentTexts exchange.actions) := by
  intro exchange
  cases heard : isIgnored settings (trimText raw) with
  | true =>
      have handled : exchange = _ := handle_of_ignored desk patience session heard
      have unowed : ¬ Owes settings raw := fun owed => by simp [owed.1] at heard
      rw [handled]
      exact ⟨.refl _,
        ⟨fun owed => absurd owed unowed, fun _ => by simp [sentTexts, allPieces]⟩, rfl⟩
  | false =>
      have tells := Board.process_tells patience (trimText raw) session.board session.link
      have reply := Board.response_of_process desk.host patience (trimText raw) session.board
        session.link
      generalize processed : session.board.process desk.host patience (trimText raw) session.link =
        attempt at tells reply
      have progress := allPieces_of_progress tells.kind
      cases ended : attempt.outcome with
      | error stop => simp [handle_of_stop session heard processed ended] at dealt
      | ok response =>
          have handled : exchange = _ := handle_of_response session heard processed ended
          rw [handled]
          by_cases expects : Command.Expects (trimText raw).toList
          · have acknowledges : Report.Acknowledges (Report.pieces response) := by
              rw [reply response ended]
              exact Plan.reply_of_expected _ _ (lineEnd_not_mem_trimText single) expects _
            have texts : sentTexts (attempt.actions ++ [.sent response]) =
                sentTexts attempt.actions ++ [response] := sentTexts_append _ _
            have whole : Report.Acknowledges
                (allPieces (sentTexts attempt.actions ++ [response])) := by
              simpa [allPieces] using acknowledges.after progress
            rw [answer_of_sent acknowledges.spoken (by rfl)]
            simp only [Exchange.after, texts]
            exact ⟨tells.records.trans (.send response _), ⟨fun _ => whole,
              fun unowed => absurd ⟨heard, expects⟩ unowed⟩, by
                rw [acknowledgements_of_owed whole]; rfl⟩
          · have silent : response = "" := by
              rw [reply response ended]
              exact Plan.reply_of_unexpected _ _ expects _
            rw [answer_of_silence desk _ (by simp [silent])]
            simp only [Exchange.after, List.append_nil]
            exact ⟨tells.records, ⟨fun owed => absurd owed.2 expects, fun _ => progress⟩,
              by rw [acknowledgements_of_other progress]; rfl⟩

/-- The session deals with a line when the rest of the input is left to read. -/
def handled (settings : SessionSettings) (patience : Nat) (raw : String) (rest : List String)
    (session : Session α MemoryLink) : Exchange α MemoryLink Unit :=
  handle desk settings patience raw { session with link := { session.link with input := rest } }

theorem run_of_no_input (settings : SessionSettings) {patience : Nat} (positive : 0 < patience)
    {session : Session α MemoryLink} (input : session.link.input = []) :
    session.run desk settings patience = (.ok (session.summary .endOfInput), session) := by
  obtain ⟨patience, rfl⟩ : ∃ fewer, patience = fewer + 1 := ⟨patience - 1, by omega⟩
  obtain ⟨board, ⟨unread, log⟩, received, ignored, answered⟩ := session
  obtain rfl : unread = [] := input
  rfl

theorem turn_of_input (settings : SessionSettings) (patience : Nat) {raw : String}
    {rest : List String} {session : Session α MemoryLink}
    (input : session.link.input = raw :: rest) :
    session.turn desk settings patience = endTurn (session.handled settings patience raw rest) := by
  obtain ⟨board, ⟨unread, log⟩, received, ignored, answered⟩ := session
  obtain rfl : unread = raw :: rest := input
  exact turn_of_line settings patience rfl rfl

/-- From one state of the session to another, the lines of the input with the texts that were sent
for each of them. -/
inductive Dialogue (settings : SessionSettings) :
    Session α MemoryLink → List (String × List String) → Session α MemoryLink → Prop where
  | ended {session : Session α MemoryLink} (empty : session.link.input = []) :
      Dialogue settings session [] session
  | heard {session next final : Session α MemoryLink} {raw : String} {rest : List String}
      {actions : List Action} {later : List (String × List String)} (patience : Nat)
      (input : session.link.input = raw :: rest)
      (dealt : session.handled settings patience raw rest = ⟨.ok (), next, actions⟩)
      (continues : Dialogue settings next later final) :
      Dialogue settings session ((raw, sentTexts actions) :: later) final

/-- A session in memory that returns has come to the end of its input. -/
theorem dialogue_of_run {patience : Nat} {session final : Session α MemoryLink} {summary : Summary}
    (ran : session.run desk settings patience = (.ok summary, final)) :
    summary = final.summary .endOfInput ∧ ∃ dialogue, Dialogue settings session dialogue final := by
  induction patience generalizing session with
  | zero => cases ran
  | succ patience inductionHypothesis =>
      cases input : session.link.input with
      | nil =>
          rw [run_of_no_input settings patience.succ_pos input] at ran
          cases ran
          exact ⟨rfl, [], .ended input⟩
      | cons raw rest =>
          rw [run, turn_of_input settings patience input] at ran
          have unfailing : ∀ failure,
              (session.handled settings patience raw rest).outcome ≠ .error (.failed failure) :=
            (handle_of_willing MemoryLink.desk_willing settings patience raw
              { session with link := { session.link with input := rest } } trivial).1
          rcases dealt : session.handled settings patience raw rest with
            ⟨(failure | _) | _, next, actions⟩ <;> rw [dealt] at ran unfailing
          · exact absurd rfl (unfailing failure)
          · cases ran
          · obtain ⟨same, dialogue, continues⟩ := inductionHypothesis ran
            exact ⟨same, _, .heard patience input dealt continues⟩

/-- Line by line the texts are logged and the answers are counted. -/
theorem Dialogue.answers {session final : Session α MemoryLink}
    {dialogue : List (String × List String)} (held : Dialogue settings session dialogue final)
    (single : ∀ raw ∈ session.link.input, '\n' ∉ raw.toList) :
    dialogue.map Prod.fst = session.link.input ∧
      final.link.log.toList = session.link.log.toList ++ dialogue.flatMap Prod.snd ∧
      (∀ entry ∈ dialogue, Answers settings entry.1 entry.2) ∧
      final.answered = session.answered + acknowledgements (dialogue.flatMap Prod.snd) := by
  induction held with
  | ended empty => simp [empty, acknowledgements, allPieces]
  | @heard session next final raw rest actions later patience input dealt continues
      inductionHypothesis =>
      rw [input] at single
      have dealtWith : (session.handled settings patience raw rest).outcome = .ok () := by
        rw [dealt]
      obtain ⟨records, answers, counted⟩ := handle_answers (single raw (.head rest)) dealtWith
      rw [show handle desk settings patience raw _ = _ from dealt] at records answers counted
      have unread : next.link.input = rest := records.input
      obtain ⟨lines, log, answered, total⟩ := inductionHypothesis fun other member =>
        single other (.tail raw (by rwa [unread] at member))
      refine ⟨?_, ?_, ?_, ?_⟩
      · rw [List.map_cons, lines, unread, input]
      · rw [log, records.log, List.flatMap_cons, List.append_assoc]
      · exact List.forall_mem_cons.2 ⟨answers, answered⟩
      · rw [total, counted, List.flatMap_cons]
        simp only [acknowledgements, allPieces, List.flatMap_append, List.countP_append]
        exact Nat.add_assoc ..

/-- When a session over lines in memory returns, every line that is owed an acknowledgement has got
one at the end of what was sent for it, and no other line has got any. The summary counts them. -/
theorem one_acknowledgement_each {session final : Session α MemoryLink} {summary : Summary}
    (single : ∀ raw ∈ session.link.input, '\n' ∉ raw.toList)
    (completes : session.Completes desk settings (.ok summary, final)) :
    ∃ dialogue, Dialogue settings session dialogue final ∧
      dialogue.map Prod.fst = session.link.input ∧
      final.link.log.toList = session.link.log.toList ++ dialogue.flatMap Prod.snd ∧
      (∀ entry ∈ dialogue, Answers settings entry.1 entry.2) ∧
      summary.ending = .endOfInput ∧
      summary.answered =
        session.answered + acknowledgements (dialogue.flatMap Prod.snd) := by
  obtain ⟨-, patience, lasts⟩ := completes
  obtain ⟨rfl, dialogue, held⟩ := dialogue_of_run (lasts patience (Nat.le_refl patience))
  obtain ⟨lines, log, answers, counted⟩ := held.answers single
  exact ⟨dialogue, held, lines, log, answers, rfl, counted⟩

/-- Homing, an echo, a log line of the host and a text that is no command. -/
def greeting : Session Float MemoryLink :=
  .start (.powerUp .standard (.cycle []) ⟨0⟩)
    (.ofInput ["G28", " M106 S255 ", "[ok] connected", "hello"])

theorem greeting_is_answered :
    (greeting.run desk .standard 5).1 = .ok ⟨4, 1, 2, .endOfInput⟩ ∧
      ∃ dialogue, Dialogue .standard greeting dialogue (greeting.run desk .standard 5).2 ∧
        acknowledgements (dialogue.flatMap Prod.snd) = 2 := by
  have returned : (greeting.run desk .standard 5).1 = .ok ⟨4, 1, 2, .endOfInput⟩ := by rfl
  have completes : greeting.Completes desk .standard
      (.ok ⟨4, 1, 2, .endOfInput⟩, (greeting.run desk .standard 5).2) := by
    rw [← returned]
    apply completes_of_run
    simp [returned]
  obtain ⟨dialogue, held, -, -, -, -, counted⟩ := one_acknowledgement_each (by decide) completes
  refine ⟨returned, dialogue, held, ?_⟩
  have start : greeting.answered = 0 := rfl
  rw [start, Nat.zero_add] at counted
  exact counted.symm

end Session

end BenchPrinter
