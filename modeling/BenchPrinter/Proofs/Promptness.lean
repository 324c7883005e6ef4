import BenchPrinter.Proofs.Acknowledgement
import BenchPrinter.Proofs.Convergence
import BenchPrinter.Proofs.Pacing

/-!
How soon a board notices that its work is cancelled. Once the token is set, the board ends the pause
after a keep-alive that has just been taken, sends at most one more line and stops at the next
checkpoint. Only the mesh report, which no checkpoint interrupts, is still sent in full.
-/

namespace BenchPrinter

namespace Host

variable {σ : Type}

/-- A token that is set stays set. -/
def Latches (host : Host σ) : Prop :=
  ∀ line state, host.cancelled state = true → host.cancelled (host.send line state).2 = true

/-- The host as it is when its token is never set. -/
def uncancelled (host : Host σ) : Host σ := { host with cancelled := fun _ => false }

/-- The host once it has heard of these actions. -/
def heard (host : Host σ) : List Action → σ → σ
  | [], state => state
  | .slept _ :: rest, state => heard host rest state
  | .sent line :: rest, state => heard host rest (host.send line state).2
  | .refused line :: rest, state => heard host rest (host.send line state).2

theorem heard_append (host : Host σ) (first second : List Action) (state : σ) :
    host.heard (first ++ second) state = host.heard second (host.heard first state) := by
  induction first generalizing state with
  | nil => rfl
  | cons action rest inductionHypothesis => cases action <;> exact inductionHypothesis _

theorem heard_uncancelled (host : Host σ) (actions : List Action) (state : σ) :
    host.uncancelled.heard actions state = host.heard actions state := by
  induction actions generalizing state with
  | nil => rfl
  | cons action rest inductionHypothesis => cases action <;> exact inductionHypothesis _

theorem Latches.heard {host : Host σ} (latches : host.Latches) (actions : List Action) {state : σ}
    (set : host.cancelled state = true) : host.cancelled (host.heard actions state) = true := by
  induction actions generalizing state with
  | nil => exact set
  | cons action rest inductionHypothesis =>
      cases action with
      | slept milliseconds => exact inductionHypothesis set
      | sent line | refused line => exact inductionHypothesis (latches line state set)

end Host

theorem Step.eq_checkpoint_of_permission {α : Type} [Quantity α] {step : Step α} {board : Board α}
    (asked : step.request board = .permission) : step = .checkpoint := by
  cases step <;> first | rfl | cases asked

namespace Board

variable {α σ : Type} [Quantity α]

section

variable {host : Host σ} {step : Step α} {board : Board α} {state after : σ} {actions : List Action}
  {failure : Failure}

theorem Passes.hears (passes : Passes host step board state actions after) :
    after = host.heard actions state := by
  cases passes with
  | quiet => cases step <;> rfl
  | granted => rfl
  | delivered asked delivered => simp [Host.heard, delivered]

theorem Passes.uncancelled (passes : Passes host step board state actions after) :
    Passes host.uncancelled step board state actions after := by
  cases passes with
  | quiet asked => exact .quiet asked
  | granted asked => exact .granted asked rfl
  | delivered asked delivered => exact .delivered asked delivered

theorem Stops.hears (stops : Stops host step board state failure actions after) :
    after = host.heard actions state := by
  cases stops with
  | cancelled => rfl
  | refused asked refused => simp [Host.heard, refused]

/-- At most one action is seen of a step, and none of a checkpoint. -/
theorem Passes.seen (passes : Passes host step board state actions after) :
    actions = [] ∨ ∃ action, actions = [action] ∧ step ≠ .checkpoint ∧
      ∀ text, step = .send text → action = .sent text := by
  cases passes with
  | quiet asked =>
      cases step with
      | sleep milliseconds => exact .inr ⟨_, rfl, nofun, nofun⟩
      | checkpoint | send | sendTemperatures => cases asked
      | updateHeaters | move | home | setMode | aim => exact .inl rfl
  | granted => exact .inl rfl
  | delivered asked =>
      refine .inr ⟨_, rfl, ?_, ?_⟩
      · rintro rfl
        cases asked
      · rintro text rfl
        rw [Request.delivery.inj asked]

end

theorem host_of_follow (host : Host σ) (steps : List (Step α)) (board : Board α) (state : σ) :
    (follow host steps board state).host =
      host.heard (follow host steps board state).actions state := by
  induction steps generalizing board state with
  | nil => rfl
  | cons step rest inductionHypothesis =>
      rcases passes_or_stops host step board state with ⟨actions, after, passes⟩ |
        ⟨failure, actions, after, stops⟩
      · rw [passes.follow, Attempt.host_after, Attempt.actions_after, Host.heard_append,
          inductionHypothesis, passes.hears]
      · rw [stops.follow, stops.hears]

/-- Where a beginning of the actions ends, a step has just been done. -/
theorem follow_split {host : Host σ} {steps : List (Step α)} {board : Board α} {state : σ}
    {earlier : List Action} (reached : earlier <+: (follow host steps board state).actions)
    (begun : earlier ≠ []) (taken : ∀ text, earlier.getLast? ≠ some (.refused text)) :
    ∃ done step todo, steps = done ++ step :: todo ∧ step ≠ .checkpoint ∧
      (∀ text, step = .send text → earlier.getLast? = some (.sent text)) ∧
      (follow host (done ++ [step]) board state).outcome = .ok () ∧
      (follow host (done ++ [step]) board state).actions = earlier := by
  induction steps generalizing board state earlier with
  | nil => exact absurd (List.prefix_nil.1 reached) begun
  | cons first rest inductionHypothesis =>
      rcases passes_or_stops host first board state with ⟨actions, after, passes⟩ |
        ⟨failure, actions, after, stops⟩
      · -- what is left of the beginning after the actions of the first step
        have later {left : List Action} (split : earlier = actions ++ left) (more : left ≠ [])
            (reached : left <+: (follow host rest (first.apply board) after).actions) :
            ∃ done step todo, first :: rest = done ++ step :: todo ∧ step ≠ .checkpoint ∧
              (∀ text, step = .send text → earlier.getLast? = some (.sent text)) ∧
              (follow host (done ++ [step]) board state).outcome = .ok () ∧
              (follow host (done ++ [step]) board state).actions = earlier := by
          have sameLast : earlier.getLast? = left.getLast? := by
            rw [split, List.getLast?_append_of_ne_nil _ more]
          rw [sameLast] at taken ⊢
          obtain ⟨done, step, todo, splitRest, unchecked, last, succeeded, acted⟩ :=
            inductionHypothesis reached more taken
          refine ⟨first :: done, step, todo, by rw [splitRest, List.cons_append], unchecked, last,
            ?_, ?_⟩
          · rw [List.cons_append, passes.follow]
            exact succeeded
          · rw [List.cons_append, passes.follow, Attempt.actions_after, acted, split]
        rw [passes.follow, Attempt.actions_after] at reached
        rcases passes.seen with rfl | ⟨action, rfl, unchecked, sends⟩
        · exact later rfl begun reached
        · obtain ⟨head, left, rfl⟩ := List.exists_cons_of_ne_nil begun
          obtain ⟨rfl, within⟩ := List.cons_prefix_cons.1 reached
          by_cases more : left = []
          · subst more
            refine ⟨[], first, rest, rfl, unchecked, fun text same => ?_, ?_, ?_⟩
            · rw [sends text same]
              rfl
            · rw [List.nil_append, passes.follow]
              rfl
            · rw [List.nil_append, passes.follow]
              rfl
          · exact later rfl more within
      · rw [stops.follow] at reached
        cases stops with
        | cancelled => exact absurd (List.prefix_nil.1 reached) begun
        | refused =>
            obtain ⟨head, left, rfl⟩ := List.exists_cons_of_ne_nil begun
            obtain ⟨rfl, ended⟩ := List.cons_prefix_cons.1 reached
            rw [List.prefix_nil.1 ended] at taken
            exact absurd rfl (taken _)

/-- Work goes on as if it were never cancelled, up to a checkpoint that stops it. -/
theorem follow_or_cancelled (host : Host σ) (steps : List (Step α)) (board : Board α) (state : σ) :
    follow host steps board state = follow host.uncancelled steps board state ∨
      ∃ done todo, steps = done ++ .checkpoint :: todo ∧
        let work := follow host.uncancelled done board state
        work.outcome = .ok () ∧ host.cancelled work.host = true ∧
          follow host steps board state = { work with outcome := .error (.failed .cancelled) } := by
  induction steps generalizing board state with
  | nil => exact .inl rfl
  | cons step rest inductionHypothesis =>
      rcases passes_or_stops host step board state with ⟨actions, after, passes⟩ |
        ⟨failure, actions, after, stops⟩
      · rcases inductionHypothesis (step.apply board) after with
          same | ⟨done, todo, split, succeeded, cancelled, stopped⟩
        · exact .inl (by rw [passes.follow, passes.uncancelled.follow, same])
        · refine .inr ⟨step :: done, todo, by rw [split, List.cons_append], ?_⟩
          rw [passes.follow, passes.uncancelled.follow, stopped]
          exact ⟨succeeded, cancelled, rfl⟩
      · cases stops with
        | cancelled asked cancelled =>
            obtain rfl : step = .checkpoint := Step.eq_checkpoint_of_permission asked
            exact .inr ⟨[], rest, rfl, rfl, cancelled, follow_of_cancelled asked cancelled rest⟩
        | refused asked refused =>
            have stops : Stops host.uncancelled step board state _ _ _ := .refused asked refused
            exact .inl (by rw [follow_of_refused asked refused, stops.follow])

/-- Once the token is set, work ends at the next checkpoint that it comes to. -/
theorem follow_of_set {host : Host σ} {done : List (Step α)} {board : Board α} {state : σ}
    (succeeded : (follow host.uncancelled done board state).outcome = .ok ())
    (set : host.cancelled (follow host.uncancelled done board state).host = true)
    (todo : List (Step α)) :
    (follow host (done ++ .checkpoint :: todo) board state).outcome =
      .error (.failed .cancelled) := by
  rw [follow_append]
  rcases follow_or_cancelled host done board state with same | ⟨_, _, _, _, _, stopped⟩
  · rw [same, Attempt.andThen_of_ok succeeded, Attempt.outcome_after,
      follow_of_cancelled rfl set]
    rfl
  · rw [stopped, Attempt.andThen_of_error rfl]

/-- Work that is never cancelled ends with success or with a refused line. -/
theorem follow_uncancelled (host : Host σ) (steps : List (Step α)) (board : Board α) (state : σ) :
    (follow host.uncancelled steps board state).outcome = .ok () ∨
      ∃ text, .refused text ∈ (follow host.uncancelled steps board state).actions := by
  induction steps generalizing board state with
  | nil => exact .inl rfl
  | cons step rest inductionHypothesis =>
      rcases passes_or_stops host.uncancelled step board state with ⟨actions, after, passes⟩ |
        ⟨failure, actions, after, stops⟩
      · rw [passes.follow]
        exact (inductionHypothesis _ _).imp_right fun ⟨text, member⟩ =>
          ⟨text, List.mem_append_right actions member⟩
      · rw [stops.follow]
        cases stops with
        | cancelled asked cancelled => cases cancelled
        | refused asked refused => exact .inr ⟨_, .head _⟩

/-- Patience has no part in the steps. -/
theorem follow_outcome (host : Host σ) (steps : List (Step α)) (board : Board α) (state : σ) :
    (follow host steps board state).outcome ≠ .error .outOfPatience := by
  induction steps generalizing board state with
  | nil => exact nofun
  | cons step rest inductionHypothesis =>
      rcases passes_or_stops host step board state with ⟨actions, after, passes⟩ |
        ⟨failure, actions, after, stops⟩
      · rw [passes.follow]
        exact inductionHypothesis _ _
      · rw [stops.follow]
        exact nofun

/-- With the token set, only the steps before the next checkpoint are seen. -/
theorem actions_ahead {host : Host σ} (latches : host.Latches) (steps : List (Step α))
    (board : Board α) {state : σ} (set : host.cancelled state = true) :
    (follow host steps board state).actions =
      (follow host (Step.ahead steps) board state).actions := by
  induction steps generalizing board state with
  | nil => rfl
  | cons step rest inductionHypothesis =>
      cases checks : step.isCheckpoint with
      | true =>
          obtain rfl : step = .checkpoint := not_ne_iff.1 fun other => by
            rw [Step.ne_checkpoint_iff.1 other] at checks
            cases checks
          rw [follow_of_cancelled rfl set]
          rfl
      | false =>
          have unfolded : Step.ahead (step :: rest) = step :: Step.ahead rest := by
            simp [Step.ahead, checks]
          rw [unfolded]
          rcases passes_or_stops host step board state with ⟨actions, after, passes⟩ |
            ⟨failure, actions, after, stops⟩
          · rw [passes.follow, passes.follow, Attempt.actions_after, Attempt.actions_after,
              inductionHypothesis]
            rw [passes.hears]
            exact latches.heard actions set
          · rw [stops.follow, stops.follow]

end Board

/-- The host is offered a line that is no keep-alive. -/
def Action.IsLine (action : Action) : Prop :=
  ∃ text, text ≠ Report.busy ∧ (action = .sent text ∨ action = .refused text)

/-- The lines are offered in order, up to the first that is refused. -/
inductive Delivers : List String → List Action → Prop where
  | nil : Delivers [] []
  | refused (text : String) (rest : List String) : Delivers (text :: rest) [.refused text]
  | sent (text : String) {rest : List String} {actions : List Action}
      (later : Delivers rest actions) : Delivers (text :: rest) (.sent text :: actions)

theorem Report.temperatures_ne_busy {α : Type} [Quantity α] (heaters : Heaters α) :
    temperatures heaters false ≠ busy := by
  intro same
  have heads := congrArg (fun text : String => text.toList.head?) same
  simp [temperatures, busy] at heads

namespace Board

variable {α σ : Type} [Quantity α]

/-- Plain steps offer lines and are not seen otherwise. -/
theorem follow_plain (host : Host σ) {steps : List (Step α)}
    (plain : ∀ step ∈ steps, step.IsPlain) (board : Board α) (state : σ) :
    (∀ action ∈ (follow host steps board state).actions, action.IsLine) ∧
      (follow host steps board state).actions.length ≤ steps.countP Step.delivers := by
  induction steps generalizing board state with
  | nil => exact ⟨nofun, Nat.le_refl 0⟩
  | cons step rest inductionHypothesis =>
      have stepPlain := plain step (.head rest)
      have offers {text : String} (asked : step.request board = .delivery text) :
          text ≠ Report.busy ∧ step.delivers = true := by
        cases step with
        | send line =>
            obtain rfl := Request.delivery.inj asked
            exact ⟨fun same => stepPlain.noKeepAlive (by rw [same]), rfl⟩
        | sendTemperatures =>
            obtain rfl := Request.delivery.inj asked
            exact ⟨Report.temperatures_ne_busy _, rfl⟩
        | checkpoint | sleep | updateHeaters | move | home | setMode | aim => cases asked
      have noCheckpoint : step.request board ≠ .permission := fun asked => by
        have checks := stepPlain.unchecked
        rw [Step.eq_checkpoint_of_permission asked] at checks
        cases checks
      rcases passes_or_stops host step board state with ⟨actions, after, passes⟩ |
        ⟨failure, actions, after, stops⟩
      · obtain ⟨lines, few⟩ := inductionHypothesis
          (fun other member => plain other (.tail step member)) (step.apply board) after
        rw [passes.follow, Attempt.actions_after]
        cases passes with
        | quiet asked =>
            have unseen : step.quietActions = [] := by
              cases step with
              | sleep milliseconds => exact absurd rfl (stepPlain.noPause milliseconds)
              | checkpoint | send | sendTemperatures => rfl
              | updateHeaters | move | home | setMode | aim => rfl
            rw [unseen, List.nil_append, List.countP_cons]
            exact ⟨lines, by omega⟩
        | granted asked => exact absurd asked noCheckpoint
        | delivered asked =>
            obtain ⟨other, delivers⟩ := offers asked
            rw [List.countP_cons_of_pos delivers]
            refine ⟨List.forall_mem_cons.2 ⟨⟨_, other, .inl rfl⟩, lines⟩, ?_⟩
            simpa using few
      · rw [stops.follow]
        cases stops with
        | cancelled asked => exact absurd asked noCheckpoint
        | refused asked =>
            obtain ⟨other, delivers⟩ := offers asked
            rw [List.countP_cons_of_pos delivers]
            refine ⟨List.forall_mem_singleton.2 ⟨_, other, .inr rfl⟩, ?_⟩
            simp

theorem follow_sends (host : Host σ) (texts : List String) (board : Board α) (state : σ) :
    Delivers texts (follow host (texts.map .send) board state).actions := by
  induction texts generalizing state with
  | nil => exact .nil
  | cons text rest inductionHypothesis =>
      rcases delivered : host.send text state with ⟨failure | _, after⟩
      · rw [List.map_cons, follow_of_refused rfl delivered]
        exact .refused text rest
      · rw [List.map_cons, follow_of_delivered rfl delivered]
        exact .sent text (inductionHypothesis after)

/-- Steps that are all done have sent all their texts. -/
theorem sentTexts_of_follow (host : Host σ) {steps : List (Step α)}
    (fixed : .sendTemperatures ∉ steps) {board : Board α} {state : σ}
    (succeeded : (follow host steps board state).outcome = .ok ()) :
    sentTexts (follow host steps board state).actions = steps.filterMap Step.text? := by
  induction steps generalizing board state with
  | nil => rfl
  | cons step rest inductionHypothesis =>
      rcases passes_or_stops host step board state with ⟨actions, after, passes⟩ |
        ⟨failure, actions, after, stops⟩
      · rw [passes.follow, Attempt.outcome_after] at succeeded
        rw [passes.follow, Attempt.actions_after, sentTexts_append,
          inductionHypothesis (fun member => fixed (.tail step member)) succeeded]
        cases passes with
        | quiet asked =>
            cases step with
            | send | sendTemperatures | checkpoint => cases asked
            | sleep | updateHeaters | move | home | setMode | aim => rfl
        | granted asked =>
            rw [Step.eq_checkpoint_of_permission asked]
            rfl
        | delivered asked =>
            cases step with
            | send text =>
                obtain rfl := Request.delivery.inj asked
                rfl
            | sendTemperatures => exact absurd (.head rest) fixed
            | checkpoint | sleep | updateHeaters | move | home | setMode | aim => cases asked
      · rw [stops.follow] at succeeded
        cases succeeded

/-- How a line goes on once its token is set. It ends the pause of a keep-alive that was just taken,
and it sends no keep-alive and at most one other line. Once the talk of the probing is over, the
rest of the mesh report is sent. -/
structure WindsUp (line : String) (board : Board α) (earlier pause lines : List Action) : Prop where
  paused : pause = [] ∨
    pause = [.slept board.busyInterval] ∧ earlier.getLast? = some (.sent Report.busy)
  plain : ∀ action ∈ lines, action.IsLine
  few : ¬ (Calls line .probeBed ∧ Probing.talk <+: sentTexts earlier) → lines.length ≤ 1
  grid : Calls line .probeBed → ∀ before, sentTexts earlier = Probing.talk ++ before →
    ∃ left, Probing.grid = before ++ left ∧ Delivers left lines

/-- While the bed is probed, the texts of the steps that are done have been sent. -/
theorem sentTexts_of_probing {host : Host σ} {patience : Nat} {line : String} {board : Board α}
    {state : σ} {done todo : List (Step α)} (probing : Calls line .probeBed)
    (split : agenda patience line board = done ++ todo)
    (succeeded : (follow host done board state).outcome = .ok ()) :
    sentTexts (follow host done board state).actions = done.filterMap Step.text? := by
  refine sentTexts_of_follow host (fun member => ?_) succeeded
  apply fixed_of_probing probing patience board
  rw [split]
  exact List.mem_append_left todo member

omit [Quantity α] in
theorem last_of_delayed {board : Board α} {earlier : List Action} {action : Action}
    (other : action ≠ .slept board.lineDelay)
    (isLast : (.slept board.lineDelay :: earlier).getLast? = some action) :
    earlier.getLast? = some action := by
  rw [List.getLast?_cons, Option.some.injEq] at isLast
  cases found : earlier.getLast? with
  | none => exact absurd (by rw [← isLast, found]; rfl) other
  | some last => rw [← isLast, found]; rfl

theorem windsUp_of_set {host : Host σ} (latches : host.Latches) {patience : Nat} {line : String}
    {board : Board α} {state : σ} {earlier : List Action}
    (reached : .slept board.lineDelay :: earlier <+:
      (follow host (agenda patience line board) board state).actions)
    (moment : earlier = [] ∨ ∃ text, earlier.getLast? = some (.sent text))
    (set : host.cancelled (host.heard earlier state) = true) :
    ∃ pause lines, (follow host (agenda patience line board) board state).actions =
        .slept board.lineDelay :: (earlier ++ (pause ++ lines)) ∧
      WindsUp line board earlier pause lines := by
  have taken (text : String) :
      (.slept board.lineDelay :: earlier).getLast? ≠ some (.refused text) := by
    intro refused
    have refused := last_of_delayed (by simp) refused
    rcases moment with rfl | ⟨sent, isSent⟩
    · cases refused
    · rw [isSent] at refused
      cases refused
  obtain ⟨done, step, todo, split, unchecked, sent, succeeded, acted⟩ :=
    follow_split reached (List.cons_ne_nil _ _) taken
  obtain ⟨pause, calm, ahead⟩ := ahead_of_agenda split unchecked
  generalize work : follow host (done ++ [step]) board state = attempt at succeeded acted
  have hears : attempt.host = host.heard earlier state := by
    rw [← work, host_of_follow, work, acted]
    rfl
  have whole : (follow host (agenda patience line board) board state).actions =
      attempt.actions ++ (follow host (pause ++ calm) attempt.board attempt.host).actions := by
    rw [split, List.append_cons, follow_append, work, Attempt.andThen_of_ok succeeded,
      Attempt.actions_after, actions_ahead latches todo _ (hears ▸ set), ahead.split]
  obtain ⟨board', later⟩ : ∃ board', (follow host (pause ++ calm) attempt.board
      attempt.host).actions =
        pause.flatMap Step.quietActions ++ (follow host calm board' attempt.host).actions := by
    rcases ahead.paused with rfl | ⟨rfl, -⟩
    · exact ⟨attempt.board, rfl⟩
    · exact ⟨(Step.sleep board.busyInterval).apply attempt.board, rfl⟩
  have texts (probing : Calls line .probeBed) :
      (done ++ [step]).filterMap Step.text? = sentTexts earlier := by
    rw [← sentTexts_of_probing probing (split.trans (List.append_cons ..)) (work ▸ succeeded), work,
      acted]
    rfl
  obtain ⟨lines, few⟩ := follow_plain host ahead.plain board' attempt.host
  refine ⟨_, _, by rw [whole, later, acted]; rfl, ?_, lines, fun elsewhere => ?_, ?_⟩
  · rcases ahead.paused with rfl | ⟨rfl, keepAlive⟩
    · exact .inl rfl
    · exact .inr ⟨rfl, last_of_delayed (by simp) (sent _ keepAlive)⟩
  · exact few.trans (ahead.few fun ⟨probing, talk⟩ => elsewhere ⟨probing, texts probing ▸ talk⟩)
  · intro probing before same
    obtain ⟨left, grid, rfl⟩ := ahead.grid probing before ((texts probing).trans same)
    exact ⟨left, grid, follow_sends host left board' attempt.host⟩

theorem actions_of_process (host : Host σ) (patience : Nat) (line : String) (board : Board α)
    (state : σ) : (process host patience line board state).actions =
      (follow host (agenda patience line board) board state).actions := by
  rw [process_eq]
  cases reached : (follow host (agenda patience line board) board state).outcome with
  | ok value =>
      rw [Attempt.andThen_of_ok reached, Attempt.actions_after, conclude]
      split <;> exact List.append_nil _
  | error stop => rw [Attempt.andThen_of_error reached]

/-- More patience does not undo what was done. -/
theorem actions_grow (host : Host σ) (patience : Nat) (line : String) (board : Board α)
    (state : σ) : (follow host (agenda patience line board) board state).actions <+:
      (follow host (agenda (patience + 1) line board) board state).actions := by
  rw [agenda_succ, follow_append]
  cases reached : (follow host (agenda patience line board) board state).outcome with
  | ok value =>
      rw [Attempt.andThen_of_ok reached]
      exact List.prefix_append _ _
  | error stop => rw [Attempt.andThen_of_error reached]

/-- Each round of waiting begins with a checkpoint. -/
theorem round_of_set {host : Host σ} {state : σ} (set : host.cancelled state = true)
    (interval : UInt64) (board : Board α) :
    (follow host (Step.waitingRound interval) board state).outcome =
      .error (.failed .cancelled) := by
  rw [Step.waitingRound, Step.busy, List.cons_append, follow_of_cancelled rfl set]
  rfl

/-- With the token set, one more round of patience is enough. -/
theorem process_ends {host : Host σ} (latches : host.Latches) {patience : Nat} {line : String}
    {board : Board α} {state : σ} {earlier : List Action}
    (reached : .slept board.lineDelay :: earlier <+:
      (follow host (agenda patience line board) board state).actions)
    (set : host.cancelled (host.heard earlier state) = true) :
    (process host (patience + 1) line board state).outcome ≠ .error .outOfPatience := by
  have ends := follow_outcome host (agenda (patience + 1) line board) board state
  rw [process_eq]
  cases whole : (follow host (agenda (patience + 1) line board) board state).outcome with
  | error stop =>
      rw [Attempt.andThen_of_error whole]
      exact fun same => ends (whole.trans (congrArg _ (Except.error.inj same)))
  | ok value =>
      rw [Attempt.andThen_of_ok whole, Attempt.outcome_after, board_of_follow whole]
      rw [agenda_succ] at whole ⊢
      cases settled : (Plan.ofLine board line).waitsFor.all
          (board.afterSteps (agenda patience line board)).isSettled with
      | true => simp [conclude, settled, Attempt.done]
      | false =>
          rw [settled, follow_append] at whole
          cases followed : (follow host (agenda patience line board) board state).outcome with
          | error stop =>
              rw [Attempt.andThen_of_error followed] at whole
              cases whole
          | ok value =>
              have stillSet : host.cancelled (follow host (agenda patience line board) board
                  state).host = true := by
                obtain ⟨later, split⟩ := reached
                rw [host_of_follow, ← split, List.cons_append, Host.heard, Host.heard_append]
                exact latches.heard later set
              rw [Attempt.andThen_of_ok followed, Attempt.outcome_after, if_neg Bool.false_ne_true,
                round_of_set stillSet] at whole
              cases whole

/-- Without cancellation the line would come to a checkpoint after these actions. -/
def ChecksAfter (host : Host σ) (line : String) (board : Board α) (state : σ)
    (earlier : List Action) : Prop :=
  ∃ patience done todo, agenda patience line board = done ++ .checkpoint :: todo ∧
    let work := follow host.uncancelled done board state
    work.outcome = .ok () ∧ .slept board.lineDelay :: earlier <+: work.actions

/-- What becomes of a line whose token is set after these actions. -/
structure EndsPromptly (host : Host σ) (line : String) (board : Board α) (state : σ)
    (earlier : List Action) (attempt : Attempt α σ String) : Prop where
  completes : Completes host line board state attempt
  windsUp : ∃ pause lines,
    attempt.actions = .slept board.lineDelay :: (earlier ++ (pause ++ lines)) ∧
      WindsUp line board earlier pause lines
  cancelled : ChecksAfter host line board state earlier →
    attempt.outcome = .error (.failed .cancelled)
  unchanged : ¬ ChecksAfter host line board state earlier →
    Completes host.uncancelled line board state attempt ∧
      ((∃ response, attempt.outcome = .ok response) ∨ ∃ text, .refused text ∈ attempt.actions)

/-- A line that comes to a checkpoint with its token set is cancelled. -/
theorem cancelled_of_checkpoint {host : Host σ} (latches : host.Latches) {patience : Nat}
    {line : String} {board : Board α} {state : σ} {earlier : List Action}
    (ended : (process host patience line board state).outcome ≠ .error .outOfPatience)
    (set : host.cancelled (host.heard earlier state) = true)
    (checks : ChecksAfter host line board state earlier) :
    (process host patience line board state).outcome = .error (.failed .cancelled) := by
  obtain ⟨more, done, todo, split, succeeded, later, before⟩ := checks
  obtain ⟨-, enough, lasts⟩ := completes_of_process ended
  obtain ⟨rest, longer⟩ := agenda_grows line board (Nat.le_max_right enough more)
  have stillSet : host.cancelled (follow host.uncancelled done board state).host = true := by
    rw [host_of_follow, Host.heard_uncancelled, ← before, List.cons_append, Host.heard,
      Host.heard_append]
    exact latches.heard later set
  have stopped := follow_of_set succeeded stillSet (todo ++ rest)
  rw [← List.cons_append, ← List.append_assoc, ← split, longer] at stopped
  rw [← lasts (max enough more) (Nat.le_max_left enough more)]
  simp only [process_eq, Attempt.andThen_of_error stopped]

/-- A line that comes to no checkpoint any more ends as it does without cancellation. -/
theorem unchanged_of_unchecked {host : Host σ} {patience : Nat} {line : String} {board : Board α}
    {state : σ} {earlier : List Action}
    (ended : (process host patience line board state).outcome ≠ .error .outOfPatience)
    (within : .slept board.lineDelay :: earlier <+:
      (follow host (agenda patience line board) board state).actions)
    (unchecked : ¬ ChecksAfter host line board state earlier) :
    Completes host.uncancelled line board state (process host patience line board state) ∧
      ((∃ response, (process host patience line board state).outcome = .ok response) ∨
        ∃ text, .refused text ∈ (process host patience line board state).actions) := by
  rcases follow_or_cancelled host (agenda patience line board) board state with
    same | ⟨done, todo, split, succeeded, -, stopped⟩
  · have unchanged : process host patience line board state =
        process host.uncancelled patience line board state := by
      rw [process_eq, process_eq, same]
    rw [unchanged] at ended ⊢
    refine ⟨completes_of_process ended, ?_⟩
    rw [actions_of_process]
    refine (follow_uncancelled host _ board state).imp_left fun succeeded => ?_
    rw [process_eq, Attempt.andThen_of_ok succeeded, Attempt.outcome_after, conclude] at ended ⊢
    split at ended
    · rename_i settled
      exact ⟨_, by rw [if_pos settled]; rfl⟩
    · exact absurd rfl ended
  · rw [stopped] at within
    exact absurd ⟨_, done, todo, split, succeeded, within⟩ unchecked

/-- Whenever the token is set, before the line or while the host takes one, the board soon comes to
an end. It is cancelled if a checkpoint is left, and otherwise it does exactly what it does without
cancellation. -/
theorem cancellation_is_prompt {host : Host σ} (latches : host.Latches) {patience : Nat}
    {line : String} {board : Board α} {state : σ} {earlier : List Action}
    (reached : .slept board.lineDelay :: earlier <+:
      (process host patience line board state).actions)
    (moment : earlier = [] ∨ ∃ text, earlier.getLast? = some (.sent text))
    (set : host.cancelled (host.heard earlier state) = true) :
    ∃ attempt, EndsPromptly host line board state earlier attempt := by
  rw [actions_of_process] at reached
  have ended := process_ends latches reached set
  have within := reached.trans (actions_grow host patience line board state)
  obtain ⟨pause, lines, acted, windsUp⟩ := windsUp_of_set latches within moment set
  exact ⟨process host (patience + 1) line board state, completes_of_process ended,
    ⟨pause, lines, (actions_of_process ..).trans acted, windsUp⟩,
    cancelled_of_checkpoint latches ended set, unchanged_of_unchecked ended within⟩

end Board

/-- This host cancels once it has taken so many lines. -/
def Host.countdown (moment : Nat) : Host Nat :=
  ⟨fun _ count => (.ok (), count + 1), fun count => moment ≤ count⟩

theorem Host.countdown_latches (moment : Nat) : (countdown moment).Latches := by
  intro line count set
  have late : moment ≤ count := of_decide_eq_true set
  exact decide_eq_true (Nat.le_succ_of_le late)

namespace Board

/-- A probing up to its last keep-alive. -/
def probed : List Action :=
  (Probing.announcements.flatMap fun text => .sent text ::
    (List.replicate Probing.busyPerStep [.sent Report.busy, .slept 1000]).flatten).dropLast

/-- The probing is cancelled while its last keep-alive is taken, too late for the mesh report. -/
theorem cancelled_probing_is_prompt :
    ((Host.countdown 68).Latches ∧
        .slept exactBoard.lineDelay :: probed <+:
          (process (.countdown 68) 0 "G29 V4" exactBoard 0).actions ∧
        probed.getLast? = some (.sent Report.busy) ∧
        (Host.countdown 68).cancelled ((Host.countdown 68).heard probed 0) = true) ∧
      ∃ attempt, EndsPromptly (.countdown 68) "G29 V4" exactBoard 0 probed attempt := by
  have reached : .slept exactBoard.lineDelay :: probed <+:
      (process (.countdown 68) 0 "G29 V4" exactBoard 0).actions := by decide +kernel
  have last : probed.getLast? = some (.sent Report.busy) := by decide +kernel
  have set : (Host.countdown 68).cancelled ((Host.countdown 68).heard probed 0) = true := by
    decide +kernel
  exact ⟨⟨Host.countdown_latches 68, reached, last, set⟩,
    cancellation_is_prompt (Host.countdown_latches 68) reached (.inr ⟨_, last⟩) set⟩

end Board

end BenchPrinter
