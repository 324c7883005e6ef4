import BenchPrinter.Proofs.Acknowledgement
import BenchPrinter.Proofs.Lockstep

/-!
A session over lines in memory does with them what its board alone would do: the lines of the host's
log are left out, and the others are dealt with one after the other. It makes no difference how many
of the lines the caller hands over and how many the session reads itself.
-/

namespace BenchPrinter

/-- What a board sends for one line, and how it answers the line. -/
structure Dealing where
  texts : List String
  answer : String

namespace Dealing

/-- An empty answer is not sent. -/
def isSpoken (dealing : Dealing) : Bool := !dealing.answer.toList.isEmpty

def written (dealing : Dealing) : List String :=
  dealing.texts ++ if dealing.isSpoken then [dealing.answer] else []

end Dealing

namespace Board

variable {α : Type} [Quantity α]

/-- The board comes to an end with each of the lines in turn. -/
def Returns : List String → Board α → Prop
  | [], _ => True
  | line :: later, board =>
      ∃ attempt, Completes Host.idle line board () attempt ∧ Returns later attempt.board

/-- The board deals with the lines one after the other, with nobody in its way. -/
inductive Deals : Board α → List String → List Dealing → Board α → Prop where
  | nil (board : Board α) : Deals board [] [] board
  | cons {board next final : Board α} {line answer : String} {actions : List Action}
      {lines : List String} {dealings : List Dealing}
      (completes : Completes Host.idle line board () ⟨.ok answer, next, (), actions⟩)
      (later : Deals next lines dealings final) :
      Deals board (line :: lines) (⟨sentTexts actions, answer⟩ :: dealings) final

/-- An idle host gives the board no reason to fail. -/
theorem ok_of_completes {line : String} {board : Board α} {attempt : Attempt α Unit String}
    (completes : Completes Host.idle line board () attempt) :
    ∃ answer, attempt.outcome = .ok answer := by
  obtain ⟨ended, patience, lasts⟩ := completes
  have processed : process Host.idle patience line board () = attempt :=
    lasts patience (Nat.le_refl patience)
  have unfailing : ∀ failure,
      (process Host.idle patience line board ()).outcome ≠ .error (.failed failure) :=
    (process_outcome Host.idle_willing patience line board trivial).1.1
  rw [processed] at unfailing
  rcases outcome : attempt.outcome with (failure | _) | answer
  · exact absurd outcome (unfailing failure)
  · exact absurd outcome ended
  · exact ⟨answer, rfl⟩

theorem Returns.deals {lines : List String} {board : Board α} (returns : board.Returns lines) :
    ∃ dealings final, board.Deals lines dealings final := by
  induction lines generalizing board with
  | nil => exact ⟨[], board, .nil board⟩
  | cons line later inductionHypothesis =>
      obtain ⟨attempt, completes, returnsLater⟩ := returns
      obtain ⟨answer, answered⟩ := ok_of_completes completes
      obtain ⟨dealings, final, deals⟩ := inductionHypothesis returnsLater
      obtain ⟨outcome, next, state, actions⟩ := attempt
      obtain rfl : outcome = .ok answer := answered
      exact ⟨_, final, .cons completes deals⟩

/-- Lines without a wait all come to their end. -/
theorem returns_of_unhurried {lines : List String}
    (unhurried : ∀ line ∈ lines, ∀ board : Board α, (Plan.ofLine board line).waitsFor = none)
    (board : Board α) : board.Returns lines := by
  induction lines generalizing board with
  | nil => trivial
  | cons line later inductionHypothesis =>
      have ends : EndsWait (Plan.ofLine board line).waitsFor
          (board.afterSteps (Plan.ofLine board line).steps)
          (board.afterSteps (Plan.ofLine board line).steps) := by
        rw [unhurried line (.head later) board]
        rfl
      obtain ⟨⟨⟩, actions, -, completes⟩ := completes_of_endsWait Host.idle_willing ends trivial
      exact ⟨_, completes,
        inductionHypothesis (fun other member => unhurried other (.tail line member)) _⟩

/-- In front of a link in memory the board works as in front of an idle host. -/
theorem lasts_of_completes {line answer : String} {board next : Board α} {actions : List Action}
    (completes : Completes Host.idle line board () ⟨.ok answer, next, (), actions⟩)
    (link : MemoryLink) :
    Lasts (fun patience => process MemoryLink.desk.host patience line board link)
      ⟨.ok answer, next, ⟨link.input, link.log ++ (sentTexts actions).toArray⟩, actions⟩ := by
  obtain ⟨-, enough, lasts⟩ := completes
  refine ⟨enough, fun patience more => ?_⟩
  have processed : process Host.idle patience line board () = _ := lasts patience more
  have lockstep : Lockstep Eq (fun _ _ => True ∧ True) (Plan.ofLine board line).reply
      (process Host.idle patience line board ())
      (process MemoryLink.desk.host patience line board link) :=
    process_lockstep likeness_eq (Host.idle_willing.agrees MemoryLink.desk_willing.host) patience
      line rfl ⟨trivial, trivial⟩
  have records := (process_tells patience line board link).records
  rw [processed] at lockstep
  show process MemoryLink.desk.host patience line board link = _
  generalize process MemoryLink.desk.host patience line board link = attempt at lockstep records
  obtain ⟨outcome, sameActions, sameBoard, -⟩ := lockstep
  obtain ⟨attemptOutcome, attemptBoard, ⟨input, log⟩, attemptActions⟩ := attempt
  obtain rfl : attemptActions = actions := sameActions
  obtain rfl : next = attemptBoard := sameBoard
  obtain rfl : input = link.input := records.input
  obtain rfl : log = link.log ++ (sentTexts attemptActions).toArray := by
    rw [← Array.toList_inj, records.log, Array.toList_append]
  rcases outcome with ⟨stop, failed, -⟩ | ⟨answered, alsoAnswered⟩
  · cases failed
  · rw [← answered] at alsoAnswered
    obtain rfl : attemptOutcome = .ok answer := alsoAnswered
    rfl

end Board

namespace Session

open MemoryLink (desk)

variable {α : Type} [Quantity α] {settings : SessionSettings}

/-- Does the session leave the line out? -/
def leavesOut (settings : SessionSettings) (raw : String) : Bool :=
  isIgnored settings (trimText raw)

/-- The lines that come to the board. -/
def heard (settings : SessionSettings) (raws : List String) : List String :=
  (raws.map trimText).filter fun line => !isIgnored settings line

/-- The session once it has dealt with some lines, while this input is left to read. -/
def told (settings : SessionSettings) (session : Session α MemoryLink) (input : List String)
    (raws : List String) (dealings : List Dealing) (final : Board α) : Session α MemoryLink where
  board := final
  link := ⟨input, session.link.log ++ (dealings.flatMap Dealing.written).toArray⟩
  received := session.received + raws.length
  ignored := session.ignored + raws.countP (leavesOut settings)
  answered := session.answered + dealings.countP Dealing.isSpoken

omit [Quantity α] in
theorem told_nil (settings : SessionSettings) (session : Session α MemoryLink) :
    session.told settings session.link.input [] [] session.board = session := by
  simp [told]

omit [Quantity α] in
theorem told_told (session : Session α MemoryLink) (input left first second : List String)
    (earlier later : List Dealing) (middle final : Board α) :
    (session.told settings input first earlier middle).told settings left second later final =
      session.told settings left (first ++ second) (earlier ++ later) final := by
  simp [told, List.flatMap_append, List.countP_append, Nat.add_assoc]

omit [Quantity α] in
/-- A spoken answer is logged and counted. -/
theorem answer_on_desk (settings : SessionSettings) (response : String)
    (session : Session α MemoryLink) :
    ∃ actions, session.answer desk response =
      ⟨.ok (), session.told settings session.link.input [] [⟨[], response⟩] session.board,
        actions⟩ := by
  cases silent : response.toList.isEmpty with
  | true =>
      rw [answer_of_silence desk session silent]
      simp [told, Dealing.written, Dealing.isSpoken, silent]
  | false =>
      rw [answer_of_sent silent (by rfl)]
      simp [told, Dealing.written, Dealing.isSpoken, silent]

/-- The caller hands the lines over one by one, and each of them is dealt with. -/
inductive Hands (settings : SessionSettings) :
    Session α MemoryLink → List String → Session α MemoryLink → Prop where
  | nil (session : Session α MemoryLink) : Hands settings session [] session
  | cons {session next final : Session α MemoryLink} {raw : String} {raws : List String}
      {actions : List Action}
      (dealt : Lasts (fun patience => handle desk settings patience raw session)
        ⟨.ok (), next, actions⟩)
      (later : Hands settings next raws final) : Hands settings session (raw :: raws) final

/-- One line is left out, or the board deals with it. -/
theorem handle_deals {raw : String} {rest : List String} (session : Session α MemoryLink)
    {dealings : List Dealing} {final : Board α}
    (deals : session.board.Deals (heard settings (raw :: rest)) dealings final) :
    ∃ actions earlier later middle, dealings = earlier ++ later ∧
      middle.Deals (heard settings rest) later final ∧
      Lasts (fun patience => handle desk settings patience raw session)
        ⟨.ok (), session.told settings session.link.input [raw] earlier middle, actions⟩ := by
  cases ignored : isIgnored settings (trimText raw) with
  | true =>
      rw [heard, List.map_cons, List.filter_cons_of_neg (by simp [ignored])] at deals
      refine ⟨[], [], dealings, session.board, rfl, deals, 0, fun patience _ => ?_⟩
      show handle desk settings patience raw session = _
      rw [handle_of_ignored desk patience session ignored]
      simp [told, leavesOut, ignored]
  | false =>
      rw [heard, List.map_cons, List.filter_cons_of_pos (by simp [ignored])] at deals
      cases deals with
      | @cons _ next _ _ answer actions _ later completes deals =>
          obtain ⟨enough, lasts⟩ := Board.lasts_of_completes completes session.link
          obtain ⟨spoken, answered⟩ := answer_on_desk settings answer
            (session.took ⟨.ok answer, next,
              ⟨session.link.input, session.link.log ++ (sentTexts actions).toArray⟩, actions⟩)
          refine ⟨actions ++ spoken, [⟨sentTexts actions, answer⟩], later, next, rfl, deals, enough,
            fun patience more => ?_⟩
          show handle desk settings patience raw session = _
          rw [handle_of_response session ignored (lasts patience more) rfl, answered]
          simp [told, took, leavesOut, ignored, Exchange.after, Dealing.written,
            Dealing.isSpoken]

theorem hands_deals {first second : List String} (session : Session α MemoryLink)
    {dealings : List Dealing} {final : Board α}
    (deals : session.board.Deals (heard settings (first ++ second)) dealings final) :
    ∃ earlier later middle, dealings = earlier ++ later ∧
      middle.Deals (heard settings second) later final ∧
      Hands settings session first
        (session.told settings session.link.input first earlier middle) := by
  induction first generalizing session dealings with
  | nil =>
      refine ⟨[], dealings, session.board, rfl, deals, ?_⟩
      rw [told_nil]
      exact .nil session
  | cons raw rest inductionHypothesis =>
      obtain ⟨actions, one, others, next, rfl, deals, dealt⟩ := handle_deals session deals
      obtain ⟨earlier, later, middle, rfl, deals, hands⟩ :=
        inductionHypothesis (session.told settings session.link.input [raw] one next) deals
      rw [told_told] at hands
      exact ⟨one ++ earlier, later, middle, (List.append_assoc ..).symm, deals, .cons dealt hands⟩

/-- The session reads its input to the end and deals with every line. -/
theorem completes_of_deals (lines : List String) (session : Session α MemoryLink)
    {dealings : List Dealing} {final : Board α} (input : session.link.input = lines)
    (deals : session.board.Deals (heard settings lines) dealings final) :
    session.Completes desk settings
      (.ok ((session.told settings [] lines dealings final).summary .endOfInput),
        session.told settings [] lines dealings final) := by
  refine ⟨by simp, ?_⟩
  induction lines generalizing session dealings with
  | nil =>
      cases deals
      have same : session.told settings [] [] [] session.board = session := by
        have told := told_nil settings session
        rwa [input] at told
      rw [same]
      exact ⟨1, fun patience more => run_of_no_input settings (by omega) input⟩
  | cons raw rest inductionHypothesis =>
      obtain ⟨actions, one, others, next, rfl, deals, enough, dealt⟩ :=
        handle_deals { session with link := { session.link with input := rest } } deals
      obtain ⟨enoughLater, returned⟩ := inductionHypothesis
        (told settings { session with link := { session.link with input := rest } } rest [raw] one
          next) rfl deals
      refine ⟨max enough enoughLater + 1, fun patience more => ?_⟩
      obtain ⟨patience, rfl⟩ : ∃ fewer, patience = fewer + 1 := ⟨patience - 1, by omega⟩
      have dealtWith : session.handled settings patience raw rest = _ :=
        dealt patience (by omega)
      show session.run desk settings (patience + 1) = _
      rw [run, turn_of_input settings patience input, dealtWith]
      refine (returned patience (by omega)).trans ?_
      rw [told_told]
      rfl

/-- A session over the lines leaves the log, the board and the counters that its board alone gives
for the lines that it hears. The caller may also hand over some of the lines first: each of them is
dealt with, and the session that then reads the others ends in the very same way. -/
theorem session_is_a_fold {lines : List String} {board : Board α}
    (returns : board.Returns (heard settings lines)) :
    ∃ dealings final, board.Deals (heard settings lines) dealings final ∧
      let after : Session α MemoryLink :=
        ⟨final, ⟨[], (dealings.flatMap Dealing.written).toArray⟩, lines.length,
          lines.countP (leavesOut settings), dealings.countP Dealing.isSpoken⟩
      (start board (.ofInput lines)).Completes desk settings
        (.ok (after.summary .endOfInput), after) ∧
      ∀ first second, lines = first ++ second → ∃ middle,
        Hands settings (start board (.ofInput second)) first middle ∧
        middle.Completes desk settings (.ok (after.summary .endOfInput), after) := by
  obtain ⟨dealings, final, deals⟩ := returns.deals
  refine ⟨dealings, final, deals, ?_⟩
  intro after
  have told_start (input : List String) :
      (start board (.ofInput input)).told settings [] lines dealings final = after := by
    simp [told, start, MemoryLink.ofInput, after]
  refine ⟨?_, ?_⟩
  · have ended := completes_of_deals lines (start board (.ofInput lines)) rfl deals
    rwa [told_start] at ended
  · rintro first second rfl
    obtain ⟨earlier, later, middle, rfl, deals, hands⟩ :=
      hands_deals (start board (.ofInput second)) deals
    refine ⟨_, hands, ?_⟩
    have ended := completes_of_deals second
      ((start board (.ofInput second)).told settings second first earlier middle) rfl deals
    rwa [told_told, told_start] at ended

/-- A session over the lines of the greeting, of which the caller may hand over the first two. -/
theorem greeting_is_a_fold :
    (Board.powerUp .standard (.cycle []) ⟨0⟩ : Board Float).Returns
        (heard .standard greeting.link.input) ∧
      ∃ dealings final,
        (Board.powerUp .standard (.cycle []) ⟨0⟩ : Board Float).Deals
            ["G28", "M106 S255", "hello"] dealings final ∧
          ∃ middle, Hands .standard
              (start (.powerUp .standard (.cycle []) ⟨0⟩) (.ofInput ["[ok] connected", "hello"]))
              ["G28", " M106 S255 "] middle ∧
            middle.Completes desk .standard
              (.ok ⟨4, 1, dealings.countP Dealing.isSpoken, .endOfInput⟩,
                ⟨final, ⟨[], (dealings.flatMap Dealing.written).toArray⟩, 4, 1,
                  dealings.countP Dealing.isSpoken⟩) := by
  have lines : heard .standard greeting.link.input = ["G28", "M106 S255", "hello"] := by
    decide +kernel
  have returns : (Board.powerUp .standard (.cycle []) ⟨0⟩ : Board Float).Returns
      (heard .standard greeting.link.input) := by
    apply Board.returns_of_unhurried
    rw [lines]
    simp only [List.forall_mem_cons]
    exact ⟨fun _ => rfl, fun _ => rfl, fun _ => rfl, by simp⟩
  obtain ⟨dealings, final, deals, -, hands⟩ := session_is_a_fold returns
  obtain ⟨middle, handed, completes⟩ := hands ["G28", " M106 S255 "] ["[ok] connected", "hello"] rfl
  rw [lines] at deals
  exact ⟨returns, dealings, final, deals, middle, handed, completes⟩

end Session

end BenchPrinter
