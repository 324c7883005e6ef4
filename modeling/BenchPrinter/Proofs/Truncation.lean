import BenchPrinter.Proofs.Interruption
import BenchPrinter.Proofs.Willing

/-!
An interrupted session sends a beginning of what the uninterrupted session sends. How it returns is
decided by what interrupted it.
-/

namespace BenchPrinter

namespace Rehearsal

variable {α : Type}

/-- A session that is cancelled returns its summary, and any other failure is returned itself. -/
def closing (session : Session α (Rehearsal MemoryLink)) : Failure → Except Stop Summary
  | .cancelled => .ok (session.summary .cancelled)
  | failure => .error (.failed failure)

variable [Quantity α] {interruption : Interruption} {before : Bool} {part : Rehearsal MemoryLink}

theorem run_of_turn_ending (desk : Desk (Rehearsal MemoryLink)) (settings : SessionSettings)
    (patience : Nat) {session : Session α (Rehearsal MemoryLink)} {failure : Failure}
    (ended : (session.turn desk settings patience).outcome = ending failure) :
    session.run desk settings (patience + 1) =
      (closing (session.turn desk settings patience).session failure,
        (session.turn desk settings patience).session) := by
  rw [Session.run]
  cases failure <;> simp only [ended, ending, closing]

theorem turn_extends_run (interruption : Interruption) (settings : SessionSettings)
    (patience : Nat) (session : Session α (Rehearsal MemoryLink)) :
    Extends (session.turn (desk interruption) settings patience).session.link
      (session.run (desk interruption) settings (patience + 1)).2.link := by
  rw [Session.run]
  split
  · exact Session.run_upholds (upholds_extends interruption) settings patience _
  · exact List.prefix_rfl
  · exact List.prefix_rfl

/-- Turn by turn the interrupted run goes in step with the full run, until it is closed. -/
theorem run_follows {settings : SessionSettings} {patience : Nat}
    {session : Session α (Rehearsal MemoryLink)}
    {full interrupted : Except Stop Summary × Session α (Rehearsal MemoryLink)}
    (inStep : InStep interruption before session.link part)
    (fullRun : session.run (desk .never) settings patience = full)
    (interruptedRun :
      Session.run (desk interruption) settings patience { session with link := part } =
        interrupted) :
    (interrupted.1 = full.1 ∧ interrupted.2 = { full.2 with link := interrupted.2.link } ∧
        InStep interruption before full.2.link interrupted.2.link) ∨
      ∃ failure, interrupted.1 = closing interrupted.2 failure ∧
        Cut interruption before full.2.link interrupted.2.link failure := by
  induction patience generalizing session part with
  | zero =>
      subst fullRun interruptedRun
      exact .inl ⟨rfl, rfl, inStep⟩
  | succ patience inductionHypothesis =>
      rcases turn_follows session inStep settings patience with
        ⟨sameOutcome, sameSession, inStepAfter⟩ | ⟨failure, ended, cut⟩
      · cases reached : (session.turn (desk .never) settings patience).outcome with
        | error stop =>
            simp only [Session.run, reached] at fullRun
            simp only [Session.run, sameOutcome.trans reached] at interruptedRun
            subst fullRun interruptedRun
            exact .inl ⟨rfl, sameSession, inStepAfter⟩
        | ok ending =>
            cases ending with
            | none =>
                simp only [Session.run, reached] at fullRun
                simp only [Session.run, sameOutcome.trans reached] at interruptedRun
                rw [sameSession] at interruptedRun
                exact inductionHypothesis inStepAfter fullRun interruptedRun
            | some ending =>
                simp only [Session.run, reached] at fullRun
                simp only [Session.run, sameOutcome.trans reached] at interruptedRun
                subst fullRun interruptedRun
                refine .inl ⟨?_, sameSession, inStepAfter⟩
                rw [sameSession]
                rfl
      · rw [run_of_turn_ending (desk interruption) settings patience ended] at interruptedRun
        subst fullRun interruptedRun
        exact .inr ⟨failure, rfl, cut.extend (turn_extends_run .never settings patience session)⟩

end Rehearsal

/-- What an interruption leaves of a session that would have returned the summary. The counts are of
lines sent, and a refused line is named by the failure. -/
structure Truncation {α : Type} (interruption : Interruption) (before : Bool) (summary : Summary)
    (full : Session α (Rehearsal MemoryLink)) (outcome : Except Stop Summary)
    (part : Session α (Rehearsal MemoryLink)) : Prop where
  shorter : part.link.sent.toList <+: full.link.sent.toList
  quiet : interruption.refuseAfterSends = none → ∃ shortened, outcome = .ok shortened
  refused : ¬ interruption.Cancels before → ∀ count, interruption.refuseAfterSends = some count →
    ∀ below : count < full.link.sent.size,
      part.link.sent.toList = full.link.sent.toList.take count ∧
        outcome = .error (.failed (.notSent full.link.sent[count] "sink closed"))
  unharmed : ¬ interruption.Cancels before → ∀ count, interruption.refuseAfterSends = some count →
    full.link.sent.size ≤ count → outcome = .ok summary ∧ part = full

namespace Rehearsal

variable {α : Type} {interruption : Interruption} {before : Bool}
  {full part : Session α (Rehearsal MemoryLink)}

/-- An interruption that was never noticed has at most set the token. -/
theorem truncation_of_inStep (summary : Summary) (same : part = { full with link := part.link })
    (inStep : InStep interruption before full.link part.link) :
    Truncation interruption before summary full (.ok summary) part where
  shorter := ⟨[], by rw [inStep.sent, List.append_nil]⟩
  quiet _ := ⟨summary, rfl⟩
  refused _ count counted below := by
    have within := inStep.room count counted
    rw [inStep.sent] at within
    omega
  unharmed uncancelled _ _ _ := by
    refine ⟨rfl, ?_⟩
    have untouched : part.link.cancelled = false := by
      rw [← Bool.not_eq_true]
      exact fun cancelled => uncancelled (inStep.cause cancelled)
    have sameLink : part.link = full.link := by
      have sameToken := untouched.trans inStep.uncancelled.symm
      obtain ⟨link, reads, sent, -, -, -⟩ := inStep
      cases partLink : part.link
      cases fullLink : full.link
      simp_all
    rw [same, sameLink]

theorem truncation_of_cut (summary : Summary) {failure : Failure}
    (cut : Cut interruption before full.link part.link failure) :
    Truncation interruption before summary full (closing part failure) part := by
  cases cut with
  | cancelled shorter cause =>
      exact ⟨shorter, fun _ => ⟨_, rfl⟩, fun uncancelled => absurd cause uncancelled,
        fun uncancelled => absurd cause uncancelled⟩
  | refused line shorter next reached =>
      obtain ⟨inside, isLine⟩ := List.getElem?_eq_some_iff.1 next
      refine ⟨shorter, ?_, ?_, ?_⟩
      · intro accepting
        rw [accepting] at reached
        contradiction
      · intro _ count counted below
        obtain rfl : part.link.sent.size = count := by simpa [reached] using counted
        constructor
        · simpa using List.prefix_iff_eq_take.1 shorter
        · rw [← isLine]
          simp [closing, Failure.notSent]
      · intro _ count counted enough
        obtain rfl : part.link.sent.size = count := by simpa [reached] using counted
        simp only [Array.length_toList] at inside
        omega

/-- Without an interruption a memory link is a willing host that can always be read. -/
theorem desk_never_willing : (desk .never).Willing fun rehearsal => rehearsal.cancelled = false where
  host :=
    { continues := fun _ uncancelled => uncancelled
      accepts := by
        rintro line ⟨link, reads, sent, cancelled⟩ uncancelled
        refine ⟨⟨⟨link.input, link.log.push line⟩, reads, sent.push line, cancelled⟩, ?_, uncancelled⟩
        simp [desk, Desk.sharing, Desk.host, transport, Rehearsal.send, Interruption.refuses,
          Interruption.never, Interruption.cancels, MemoryLink.transport, MemoryLink.send] }
  continues _ uncancelled := uncancelled
  reads := by
    rintro ⟨link, reads, sent, cancelled⟩ uncancelled
    refine ⟨_, _, rfl, ?_⟩
    simpa [Interruption.never] using uncancelled

variable [Quantity α]

/-- When the session returns without an interruption, it returns with a summary, and it returns with
the interruption too, having sent a beginning of the same lines. -/
theorem interruption_only_truncates {board : Board α} {settings : SessionSettings}
    {lines : List String} {returned : Except Stop Summary}
    (completes : (Session.start board (.start (.ofInput lines) false)).Completes (desk .never)
      settings (returned, full))
    (interruption : Interruption) (before : Bool) :
    ∃ summary outcome part,
      returned = .ok summary ∧
      (Session.start board (.start (.ofInput lines) before)).Completes (desk interruption)
        settings (outcome, part) ∧
      Truncation interruption before summary full outcome part := by
  obtain ⟨returns, patience, lasts⟩ := completes
  have fullRun : Session.run (desk .never) settings patience
      (.start board (.start (.ofInput lines) false)) = (returned, full) :=
    lasts patience (Nat.le_refl patience)
  obtain ⟨summary, rfl⟩ : ∃ summary, returned = .ok summary := by
    rcases returned with (failure | _) | summary
    · have unfailing := Session.run_of_willing desk_never_willing settings patience
        (.start board (.start (.ofInput lines) false)) rfl failure
      exact absurd (congrArg Prod.fst fullRun) unfailing
    · exact absurd rfl returns
    · exact ⟨summary, rfl⟩
  have inStep : InStep interruption before (.start (.ofInput lines) false)
      (.start (.ofInput lines) before) := .start
  obtain ⟨interrupted, interruptedRun⟩ : ∃ interrupted,
      Session.run (desk interruption) settings patience
        (Session.start board (.start (.ofInput lines) before)) = interrupted := ⟨_, rfl⟩
  have follows := run_follows inStep fullRun interruptedRun
  have ended : interrupted.1 ≠ .error .outOfPatience := by
    rcases follows with ⟨sameOutcome, _, _⟩ | ⟨failure, closed, _⟩
    · simp [sameOutcome]
    · cases failure <;> simp [closed, closing]
  refine ⟨summary, interrupted.1, interrupted.2, rfl, ?_, ?_⟩
  · subst interruptedRun
    exact Session.completes_of_run ended
  · rcases follows with ⟨sameOutcome, sameSession, inStep⟩ | ⟨failure, closed, cut⟩
    · rw [sameOutcome]
      exact truncation_of_inStep summary sameSession inStep
    · rw [closed]
      exact truncation_of_cut summary cut

/-- A board that has just been powered up is asked to home its axes. -/
def homing : Session Float (Rehearsal MemoryLink) :=
  .start (.powerUp .standard (.cycle []) ⟨0⟩) (.start (.ofInput ["G28"]) false)

/-- The host takes two of the three lines that announce homing, and then refuses the third. -/
theorem homing_is_truncated :
    homing.Completes (desk .never) .standard (homing.run (desk .never) .standard 3) ∧
      ∃ summary outcome part,
        (homing.run (desk .never) .standard 3).1 = .ok summary ∧
        homing.Completes (desk ⟨none, none, some 2⟩) .standard (outcome, part) ∧
        Truncation ⟨none, none, some 2⟩ false summary (homing.run (desk .never) .standard 3).2
          outcome part := by
  have returned : (homing.run (desk .never) .standard 3).1 = .ok ⟨1, 0, 1, .endOfInput⟩ := by rfl
  have completes : homing.Completes (desk .never) .standard
      (homing.run (desk .never) .standard 3) := by
    apply Session.completes_of_run
    rw [returned]
    simp
  exact ⟨completes, interruption_only_truncates completes ⟨none, none, some 2⟩ false⟩

end Rehearsal

end BenchPrinter
