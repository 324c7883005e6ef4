import Mathlib.Data.List.Chain
import BenchPrinter.Proofs.Agenda
import BenchPrinter.Proofs.Footprint

/-!
Where the checkpoints of a line stand. No keep-alive and no pause is without a checkpoint right
before it, but for the pause that follows its keep-alive, and every other line is followed by a
checkpoint. Only the lines of the mesh report follow each other.
-/

namespace BenchPrinter

namespace Step

variable {α : Type} {interval : UInt64}

/-- The step puts a line in front of the host. -/
def delivers : Step α → Bool
  | send _ | sendTemperatures => true
  | _ => false

def isCheckpoint : Step α → Bool
  | checkpoint => true
  | _ => false

/-- What may come right before what. -/
structure Leads (interval : UInt64) (step next : Step α) : Prop where
  keepAlive : next = send Report.busy → step = checkpoint
  pause : ∀ milliseconds, next = sleep milliseconds →
    milliseconds = interval ∧ (step = checkpoint ∨ step = send Report.busy)
  afterKeepAlive : step = send Report.busy → next = sleep interval
  afterLine : step.delivers = true → step ≠ send Report.busy → next = checkpoint

def IsPaced (interval : UInt64) (steps : List (Step α)) : Prop :=
  steps.IsChain (Leads interval)

/-- The steps begin neither with a keep-alive nor with a pause. -/
def Opens (steps : List (Step α)) : Prop :=
  ∀ step ∈ steps.head?, step ≠ send Report.busy ∧ ∀ milliseconds, step ≠ sleep milliseconds

theorem Opens.cons (step : Step α) (noKeepAlive : step ≠ send Report.busy)
    (noPause : ∀ milliseconds, step ≠ sleep milliseconds) (steps : List (Step α)) :
    Opens (step :: steps) := by
  intro next head
  obtain rfl : step = next := Option.some.inj head
  exact ⟨noKeepAlive, noPause⟩

theorem Opens.nil : Opens ([] : List (Step α)) :=
  nofun

/-- The steps a keep-alive or a pause can be among. -/
def isTimed : Step α → Bool
  | send _ | sleep _ => true
  | _ => false

theorem ne_busy_of_untimed {step : Step α} (untimed : step.isTimed = false) :
    step ≠ send Report.busy := by
  rintro rfl
  cases untimed

theorem Opens.of_untimed {step : Step α} (untimed : step.isTimed = false) (steps : List (Step α)) :
    Opens (step :: steps) := by
  refine .cons step (ne_busy_of_untimed untimed) ?_ steps
  rintro _ rfl
  cases untimed

theorem Leads.of_silent {step next : Step α} (silent : step.delivers = false)
    (noKeepAlive : next ≠ send Report.busy) (noPause : ∀ milliseconds, next ≠ sleep milliseconds) :
    Leads interval step next where
  keepAlive same := absurd same noKeepAlive
  pause _ same := absurd same (noPause _)
  afterKeepAlive same := by rw [same] at silent; cases silent
  afterLine delivers := by rw [silent] at delivers; cases delivers

theorem Leads.to_checkpoint {step : Step α} (other : step ≠ send Report.busy) :
    Leads interval step checkpoint :=
  ⟨nofun, nofun, fun same => absurd same other, fun _ _ => rfl⟩

/-- A wait pauses after it has asked. -/
theorem Leads.to_pause : Leads (α := α) interval checkpoint (sleep interval) :=
  ⟨nofun, by rintro _ ⟨rfl⟩; exact ⟨rfl, .inl rfl⟩, nofun, nofun⟩

theorem IsPaced.cons_silent {step : Step α} {steps : List (Step α)} (silent : step.delivers = false)
    (opens : Opens steps) (paced : IsPaced interval steps) : IsPaced interval (step :: steps) :=
  List.IsChain.cons paced fun next head =>
    .of_silent silent (opens next head).1 (opens next head).2

/-- A line is sent, and then the host is asked. -/
theorem IsPaced.cons_line (step : Step α) (other : step ≠ send Report.busy) {steps : List (Step α)}
    (checked : ∀ next ∈ steps.head?, next = checkpoint) (paced : IsPaced interval steps) :
    IsPaced interval (step :: steps) :=
  List.IsChain.cons paced fun next head => checked next head ▸ .to_checkpoint other

theorem Opens.of_checked {steps : List (Step α)}
    (checked : ∀ next ∈ steps.head?, next = checkpoint) : Opens steps := by
  intro step head
  rw [checked step head]
  exact ⟨nofun, nofun⟩

/-- Keep-alives in front of paced work keep it paced. -/
theorem paced_busy (count : Nat) {steps : List (Step α)} (opens : Opens steps)
    (paced : IsPaced interval steps) :
    IsPaced interval (busy interval count ++ steps) ∧ Opens (busy interval count ++ steps) := by
  induction count with
  | zero => exact ⟨paced, opens⟩
  | succ count inductionHypothesis =>
      obtain ⟨pacedLater, opensLater⟩ := inductionHypothesis
      refine ⟨?_, .of_checked fun next head => (Option.some.inj head).symm⟩
      have asked : Leads (α := α) interval checkpoint (send Report.busy) :=
        ⟨fun _ => rfl, nofun, nofun, nofun⟩
      have kept : Leads (α := α) interval (send Report.busy) (sleep interval) :=
        ⟨nofun, by rintro _ ⟨rfl⟩; exact ⟨rfl, .inr rfl⟩, fun _ => rfl,
          fun _ other => absurd rfl other⟩
      exact .cons_cons asked (.cons_cons kept (pacedLater.cons_silent rfl opensLater))

/-- Silent work in front of paced work keeps it paced. -/
theorem paced_silent {first steps : List (Step α)}
    (silent : ∀ step ∈ first, step.delivers = false ∧ ∀ milliseconds, step ≠ sleep milliseconds)
    (opens : Opens steps) (paced : IsPaced interval steps) :
    IsPaced interval (first ++ steps) ∧ Opens (first ++ steps) := by
  induction first with
  | nil => exact ⟨paced, opens⟩
  | cons step rest inductionHypothesis =>
      obtain ⟨pacedLater, opensLater⟩ := inductionHypothesis fun other member =>
        silent other (.tail step member)
      obtain ⟨noLine, noPause⟩ := silent step (.head rest)
      refine ⟨pacedLater.cons_silent noLine opensLater, .cons step ?_ noPause _⟩
      rintro rfl
      cases noLine

/-- Each text is announced and followed by keep-alives. -/
def announcing (interval : UInt64) (texts : List String) : List (Step α) :=
  texts.flatMap fun text => send text :: busy interval Probing.busyPerStep

theorem paced_announcing {texts : List String} (other : ∀ text ∈ texts, text ≠ Report.busy) :
    IsPaced (α := α) interval (announcing interval texts) ∧
      Opens (α := α) (announcing interval texts) := by
  induction texts with
  | nil => exact ⟨.nil, .nil⟩
  | cons text rest inductionHypothesis =>
      obtain ⟨pacedLater, opensLater⟩ := inductionHypothesis fun text member =>
        other text (.tail _ member)
      obtain ⟨paced, -⟩ := paced_busy Probing.busyPerStep opensLater pacedLater
      have isOther : (send text : Step α) ≠ send Report.busy := by
        rintro ⟨rfl⟩
        exact other _ (.head rest) rfl
      exact ⟨paced.cons_line _ isOther fun next head => (Option.some.inj head).symm,
        .cons _ isOther nofun _⟩

/-- Neither a checkpoint nor a keep-alive nor a pause. -/
structure IsPlain (step : Step α) : Prop where
  unchecked : step.isCheckpoint = false
  noKeepAlive : step ≠ send Report.busy
  noPause : ∀ milliseconds, step ≠ sleep milliseconds

/-- The steps that are done whatever the host answers at the next checkpoint. -/
def ahead (steps : List (Step α)) : List (Step α) :=
  steps.takeWhile fun step => !step.isCheckpoint

theorem ahead_append (first rest : List (Step α)) :
    ahead (first ++ checkpoint :: rest) = ahead first := by
  induction first with
  | nil => rfl
  | cons step later inductionHypothesis =>
      rw [List.cons_append, ahead, ahead, List.takeWhile_cons, List.takeWhile_cons]
      split
      · exact congrArg (step :: ·) inductionHypothesis
      · rfl

theorem ahead_of_unchecked {steps : List (Step α)}
    (unchecked : ∀ step ∈ steps, step.isCheckpoint = false) : ahead steps = steps := by
  induction steps with
  | nil => rfl
  | cons step rest inductionHypothesis =>
      rw [ahead, List.takeWhile_cons_of_pos (by rw [unchecked step (.head rest)]; rfl)]
      exact congrArg (step :: ·) (inductionHypothesis fun other member =>
        unchecked other (.tail step member))

/-- A step that is no checkpoint is before the checkpoint or after it. -/
theorem split_at_checkpoint {before after done todo : List (Step α)} {step : Step α}
    (split : before ++ checkpoint :: after = done ++ step :: todo) (unchecked : step ≠ checkpoint) :
    (∃ between, before = done ++ step :: between ∧ todo = between ++ checkpoint :: after) ∨
      ∃ between, done = before ++ checkpoint :: between ∧ after = between ++ step :: todo := by
  rcases List.append_eq_append_iff.1 split with ⟨_ | ⟨first, between⟩, outer, inner⟩ |
    ⟨_ | ⟨first, between⟩, outer, inner⟩
  · exact absurd (List.cons.inj inner).1.symm unchecked
  · obtain ⟨rfl, rest⟩ := List.cons.inj inner
    exact .inr ⟨between, outer, rest⟩
  · exact absurd (List.cons.inj inner).1 unchecked
  · obtain ⟨rfl, rest⟩ := List.cons.inj inner
    exact .inl ⟨between, outer, rest⟩

theorem ne_checkpoint_iff {step : Step α} : step ≠ checkpoint ↔ step.isCheckpoint = false := by
  cases step <;> simp [isCheckpoint]

/-- After a step that is no keep-alive there is at most one line before the next checkpoint, and
after a line there is nothing. -/
theorem calm_of_paced {step : Step α} {todo : List (Step α)}
    (paced : IsPaced interval (step :: todo)) (unchecked : step ≠ checkpoint)
    (noKeepAlive : step ≠ send Report.busy) :
    (∀ next ∈ ahead todo, next.IsPlain) ∧ (ahead todo).countP delivers ≤ 1 ∧
      (step.delivers = true → ahead todo = []) := by
  induction todo generalizing step with
  | nil => simp [ahead]
  | cons next rest inductionHypothesis =>
      obtain ⟨leads, later⟩ := List.isChain_cons_cons.1 paced
      cases checks : next.isCheckpoint with
      | true => simp [ahead, checks]
      | false =>
          have nextUnchecked := ne_checkpoint_iff.2 checks
          have plain : next.IsPlain :=
            ⟨checks, fun same => unchecked (leads.keepAlive same), fun _ same =>
              (leads.pause _ same).2.elim unchecked noKeepAlive⟩
          obtain ⟨allPlain, few, ends⟩ := inductionHypothesis later nextUnchecked plain.noKeepAlive
          have unfolded : ahead (next :: rest) = next :: ahead rest := by simp [ahead, checks]
          rw [unfolded]
          refine ⟨List.forall_mem_cons.2 ⟨plain, allPlain⟩, ?_, fun delivers =>
            absurd (leads.afterLine delivers noKeepAlive) nextUnchecked⟩
          cases delivers : next.delivers with
          | true => simp [ends delivers, delivers]
          | false => simpa [delivers] using few

/-- Before the next checkpoint there is at most the pause after a keep-alive, and then at most one
line, which is no keep-alive. -/
theorem ahead_of_paced {step : Step α} {todo : List (Step α)}
    (paced : IsPaced interval (step :: todo)) (unchecked : step ≠ checkpoint) :
    ∃ pause calm, ahead todo = pause ++ calm ∧
      (pause = [] ∨ pause = [sleep interval] ∧ step = send Report.busy) ∧
      (∀ next ∈ calm, next.IsPlain) ∧ calm.countP delivers ≤ 1 := by
  by_cases keepAlive : step = send Report.busy
  · cases todo with
    | nil => exact ⟨[], [], rfl, .inl rfl, nofun, Nat.zero_le 1⟩
    | cons next rest =>
        obtain ⟨leads, later⟩ := List.isChain_cons_cons.1 paced
        obtain rfl := leads.afterKeepAlive keepAlive
        obtain ⟨plain, few, -⟩ := calm_of_paced later nofun nofun
        exact ⟨[sleep interval], ahead rest, by simp [ahead, isCheckpoint], .inr ⟨rfl, keepAlive⟩,
          plain, few⟩
  · obtain ⟨plain, few, -⟩ := calm_of_paced paced unchecked keepAlive
    exact ⟨[], ahead todo, rfl, .inl rfl, plain, few⟩

end Step

namespace Probing

/-- What is announced while the bed is probed. -/
def announcements : List String := banner :: points.map line

/-- All that is sent before the mesh report. -/
def talk : List String :=
  announcements.flatMap fun text => text :: List.replicate busyPerStep Report.busy

theorem ne_busy : (∀ text ∈ announcements, text ≠ Report.busy) ∧
    ∀ text ∈ grid, text ≠ Report.busy := by
  decide +kernel

end Probing

namespace Step

variable {α : Type}

/-- A text that does not depend on the board. -/
def text? : Step α → Option String
  | send text => some text
  | _ => none

theorem texts_busy (interval : UInt64) (count : Nat) :
    (busy (α := α) interval count).filterMap text? = List.replicate count Report.busy := by
  induction count with
  | zero => rfl
  | succ count inductionHypothesis => exact congrArg (Report.busy :: ·) inductionHypothesis

theorem texts_announcing (interval : UInt64) (texts : List String) :
    (announcing (α := α) interval texts).filterMap text? =
      texts.flatMap fun text => text :: List.replicate Probing.busyPerStep Report.busy := by
  induction texts with
  | nil => rfl
  | cons text rest inductionHypothesis =>
      have announced : (send text :: busy (α := α) interval Probing.busyPerStep).filterMap text? =
          text :: List.replicate Probing.busyPerStep Report.busy :=
        congrArg (text :: ·) (texts_busy interval _)
      rw [announcing, List.flatMap_cons, List.flatMap_cons, List.filterMap_append, announced]
      exact congrArg _ inductionHypothesis

theorem texts_sends (texts : List String) :
    (texts.map (send (α := α))).filterMap text? = texts := by
  induction texts with
  | nil => rfl
  | cons text rest inductionHypothesis => exact congrArg (text :: ·) inductionHypothesis

theorem probing_eq (interval : UInt64) :
    probing (α := α) interval =
      announcing interval Probing.announcements ++ Probing.grid.map send := by
  simp [probing, announcing, Probing.announcements, List.flatMap_map]

/-- The last keep-alive comes right before the mesh report. -/
theorem announcing_end (interval : UInt64) :
    ∃ first, announcing (α := α) interval Probing.announcements =
      first ++ [checkpoint, send Report.busy, sleep interval] := by
  rcases List.eq_nil_or_concat' Probing.announcements with none | ⟨texts, text, split⟩
  · cases none
  · refine ⟨announcing interval texts ++ send text :: busy interval 2, ?_⟩
    rw [split]
    simp [announcing, busy, Probing.busyPerStep]

end Step

namespace Board

open Step

variable {α : Type} [Quantity α]

/-- A wait reports the temperatures right before each of its checkpoints. -/
theorem paced_rounds (id : HeaterId) (patience : Nat) (board : Board α) :
    IsPaced board.busyInterval (rounds id patience board) ∧
      ∀ step ∈ (rounds id patience board).head?, step = .checkpoint := by
  induction patience generalizing board with
  | zero => exact ⟨.nil, by simp [rounds]⟩
  | succ patience inductionHypothesis =>
      rw [rounds]
      split
      · exact ⟨.nil, by simp⟩
      have interval : board.round.busyInterval = board.busyInterval :=
        afterSteps_busyInterval _ board
      obtain ⟨later, checked⟩ := inductionHypothesis board.round
      rw [interval] at later
      have report {steps : List (Step α)} (paced : IsPaced board.busyInterval steps)
          (checked : ∀ step ∈ steps.head?, step = .checkpoint) :
          IsPaced board.busyInterval (.updateHeaters :: .sendTemperatures :: steps) :=
        (paced.cons_line .sendTemperatures (ne_busy_of_untimed rfl) checked).cons_silent rfl
          (.of_untimed rfl _)
      have half := report (.cons_cons .to_pause ((report later checked).cons_silent rfl
        (.of_untimed rfl _))) fun _ head => (Option.some.inj head).symm
      rw [Step.waitingRound, List.append_assoc]
      exact ⟨(paced_busy 1 (.of_untimed rfl _) half).1, fun _ head => (Option.some.inj head).symm⟩

/-- Most commands neither send nor pause. -/
theorem silent_ofCommand {board : Board α} {line : String} {command : Command}
    (noHome : command ≠ .home) (noProbing : command ≠ .probeBed) {step : Step α}
    (member : step ∈ (Plan.ofCommand board.busyInterval line command).steps) :
    step.delivers = false ∧ ∀ milliseconds, step ≠ .sleep milliseconds := by
  cases Plan.mem_ofCommand member with
  | talk | home => exact absurd rfl noHome
  | probing => exact absurd rfl noProbing
  | move | setMode | aim | heat | update => exact ⟨rfl, nofun⟩

/-- Only the mesh report breaks the rule. -/
theorem paced_agenda {line : String} (noProbing : ¬ Calls line .probeBed) (patience : Nat)
    (board : Board α) : IsPaced board.busyInterval (agenda patience line board) := by
  rcases Plan.waits_or_not board line with unhurried | ⟨id, target, heats⟩
  · rw [agenda, unhurried, List.append_nil]
    cases found : (Command.find? line.toList).map Prod.snd with
    | none =>
        rw [Option.map_eq_none_iff] at found
        simp only [Plan.ofLine, found, Plan.ofReply]
        exact .singleton _
    | some command =>
        rw [Plan.ofLine_of_found board found]
        have body : IsPaced (α := α) board.busyInterval
              (Plan.ofCommand board.busyInterval line command).steps ∧
            Opens (α := α) (Plan.ofCommand board.busyInterval line command).steps := by
          by_cases isHome : command = .home
          · rw [isHome]
            exact paced_busy 3 (.of_untimed rfl []) (.singleton _)
          · rw [← List.append_nil (Plan.ofCommand board.busyInterval line command).steps]
            exact paced_silent (fun _ member => silent_ofCommand isHome
              (fun isProbing => noProbing (isProbing ▸ found)) member) .nil .nil
        exact body.1.cons_silent rfl body.2
  · have interval : (board.aim id target).busyInterval = board.busyInterval :=
      afterSteps_busyInterval [.sleep board.lineDelay, .aim id target] board
    obtain ⟨later, checked⟩ := paced_rounds id patience (board.aim id target)
    rw [interval] at later
    rw [agenda, heats.plan board]
    exact (later.cons_silent rfl (.of_checked checked)).cons_silent rfl (.of_untimed rfl _)

/-- Probing ends with the mesh report. -/
theorem agenda_of_probing {line : String} (probing : Calls line .probeBed) (patience : Nat)
    (board : Board α) : agenda patience line board =
      .sleep board.lineDelay :: announcing board.busyInterval Probing.announcements ++
        Probing.grid.map .send := by
  rw [agenda, Plan.ofLine_of_found board probing]
  simp only [Plan.ofCommand, Plan.acknowledge, List.append_nil]
  rw [probing_eq, List.cons_append]

theorem fixed_of_probing {line : String} (probing : Calls line .probeBed) (patience : Nat)
    (board : Board α) : .sendTemperatures ∉ agenda patience line board := by
  have unhurried : (Plan.ofLine board line).waitsFor = none := by
    rw [Plan.ofLine_of_found board probing]
    rfl
  simp only [agenda, unhurried, List.append_nil]
  exact Plan.sendTemperatures_not_mem_ofLine board line

omit [Quantity α] in
theorem paced_probing (board : Board α) : IsPaced (α := α) board.busyInterval
    (.sleep board.lineDelay :: announcing board.busyInterval Probing.announcements) := by
  obtain ⟨paced, opens⟩ := paced_announcing Probing.ne_busy.1
  exact paced.cons_silent rfl opens

/-- What is still ahead after a step of the agenda: perhaps the pause after a keep-alive, and then
at most one line, or the rest of the mesh report. -/
structure Ahead (line : String) (interval : UInt64) (done : List (Step α)) (step : Step α)
    (todo pause calm : List (Step α)) : Prop where
  split : ahead todo = pause ++ calm
  paused : pause = [] ∨ pause = [.sleep interval] ∧ step = .send Report.busy
  plain : ∀ next ∈ calm, next.IsPlain
  few : ¬ (Calls line .probeBed ∧ Probing.talk <+: (done ++ [step]).filterMap text?) →
    calm.countP delivers ≤ 1
  grid : Calls line .probeBed → ∀ before,
    (done ++ [step]).filterMap text? = Probing.talk ++ before →
      ∃ left, Probing.grid = before ++ left ∧ calm = left.map .send

omit [Quantity α] in
/-- Within the mesh report the rest of it is ahead. -/
theorem ahead_of_grid {line : String} {interval : UInt64} {done pause : List (Step α)}
    {step : Step α} {sent left : List String} (probing : Calls line .probeBed)
    (texts : (done ++ [step]).filterMap text? = Probing.talk ++ sent)
    (split : Probing.grid = sent ++ left)
    (paused : pause = [] ∨ pause = [.sleep interval] ∧ step = .send Report.busy) :
    Ahead line interval done step (pause ++ left.map .send) pause (left.map .send) where
  split := by
    apply ahead_of_unchecked
    intro next member
    rcases List.mem_append.1 member with pauses | sends
    · rcases paused with rfl | ⟨rfl, -⟩
      · cases pauses
      · rw [List.mem_singleton.1 pauses]
        rfl
    · obtain ⟨text, -, rfl⟩ := List.mem_map.1 sends
      rfl
  paused := paused
  plain next member := by
    obtain ⟨text, isLeft, rfl⟩ := List.mem_map.1 member
    refine ⟨rfl, ?_, nofun⟩
    rintro ⟨rfl⟩
    exact Probing.ne_busy.2 _ (by rw [split]; exact List.mem_append_right sent isLeft) rfl
  few elsewhere := absurd ⟨probing, by rw [texts]; exact List.prefix_append _ _⟩ elsewhere
  grid _ before same := by
    rw [texts] at same
    exact ⟨left, by rw [← List.append_cancel_left same, split], rfl⟩

omit [Quantity α] in
/-- Probing up to its last checkpoint, which comes right before the last keep-alive. -/
theorem talk_split (interval : UInt64) : ∃ first : List (Step α),
    announcing interval Probing.announcements =
        first ++ [.checkpoint, .send Report.busy, .sleep interval] ∧
      Probing.talk = first.filterMap text? ++ [Report.busy] := by
  obtain ⟨first, announced⟩ := announcing_end (α := α) interval
  have texts := texts_announcing (α := α) interval Probing.announcements
  rw [announced, List.filterMap_append] at texts
  exact ⟨first, announced, texts.symm⟩

omit [Quantity α] in
/-- After its last checkpoint nothing holds probing up. -/
theorem ahead_of_mesh {line : String} {interval : UInt64} {before between todo : List (Step α)}
    {step : Step α} (probing : Calls line .probeBed)
    (talk : Probing.talk = before.filterMap text? ++ [Report.busy])
    (mesh : .send Report.busy :: .sleep interval :: Probing.grid.map .send =
      between ++ step :: todo) :
    ∃ pause calm, Ahead line interval (before ++ .checkpoint :: between) step todo pause calm := by
  have texts (more : List (Step α)) :
      (before ++ .checkpoint :: .send Report.busy :: more).filterMap text? =
        Probing.talk ++ more.filterMap text? := by
    rw [talk, List.filterMap_append, List.append_assoc]
    rfl
  rcases between with _ | ⟨keepAlive, between⟩
  · obtain ⟨rfl, rfl⟩ := List.cons.inj mesh
    refine ⟨[.sleep interval], _, ahead_of_grid probing ?_ (List.nil_append _).symm
      (.inr ⟨rfl, rfl⟩)⟩
    rw [List.append_assoc]
    exact texts []
  obtain ⟨rfl, afterKeepAlive⟩ := List.cons.inj mesh
  rcases between with _ | ⟨pause, between⟩
  · obtain ⟨rfl, rfl⟩ := List.cons.inj afterKeepAlive
    refine ⟨[], _, ahead_of_grid probing ?_ (List.nil_append _).symm (.inl rfl)⟩
    rw [List.append_assoc]
    exact texts [.sleep interval]
  obtain ⟨rfl, lines⟩ := List.cons.inj afterKeepAlive
  obtain ⟨sent, rest, grid, rfl, sends⟩ := List.map_eq_append_iff.1 lines
  obtain ⟨text, left, rfl, rfl, rfl⟩ := List.map_eq_cons_iff.1 sends
  refine ⟨[], _, ahead_of_grid probing ?_ (grid.trans (List.append_cons sent text left)) (.inl rfl)⟩
  rw [List.append_assoc]
  refine (texts (.sleep interval :: (sent.map .send ++ [.send text]))).trans ?_
  rw [← List.map_singleton, ← List.map_append]
  exact congrArg _ (texts_sends (sent ++ [text]))

/-- Wherever a line stands, little is ahead of it before the next checkpoint. -/
theorem ahead_of_agenda {patience : Nat} {line : String} {board : Board α}
    {done todo : List (Step α)} {step : Step α}
    (split : agenda patience line board = done ++ step :: todo) (unchecked : step ≠ .checkpoint) :
    ∃ pause calm, Ahead line board.busyInterval done step todo pause calm := by
  by_cases probing : Calls line .probeBed
  · obtain ⟨first, announced, talk⟩ := talk_split (α := α) board.busyInterval
    have paced := paced_probing board
    rw [announced] at paced
    rw [agenda_of_probing probing, announced, List.cons_append, List.append_assoc,
      List.cons_append, ← List.cons_append] at split
    rcases split_at_checkpoint split unchecked with ⟨between, before, rfl⟩ | ⟨between, rfl, mesh⟩
    · rw [← List.cons_append, before, List.append_assoc, List.cons_append] at paced
      obtain ⟨pause, calm, ahead, paused, plain, few⟩ :=
        ahead_of_paced paced.right_of_append unchecked
      rw [ahead_append] at ahead
      refine ⟨pause, calm, by rw [ahead_append, ahead], paused, plain, fun _ => few, ?_⟩
      intro _ sent texts
      -- the keep-alive that ends the talk is still to come
      have whole : first.filterMap text? =
          (done ++ [step]).filterMap text? ++ between.filterMap text? := by
        rw [← List.filterMap_append, List.append_assoc, List.singleton_append, ← before]
        rfl
      have lengths := congrArg List.length whole
      rw [texts, talk] at lengths
      simp only [List.length_append, List.length_singleton] at lengths
      omega
    · exact ahead_of_mesh probing talk mesh
  · have paced := paced_agenda probing patience board
    rw [split] at paced
    obtain ⟨pause, calm, ahead, paused, plain, few⟩ :=
      ahead_of_paced paced.right_of_append unchecked
    exact ⟨pause, calm, ahead, paused, plain, fun _ => few, fun probes => absurd probes probing⟩

end Board

end BenchPrinter
