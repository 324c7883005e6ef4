import BenchPrinter.Proofs.Traces
import BenchPrinter.Proofs.Travel

/-!
Where the time of a board goes. A board pauses only for the delay of a line and then for one interval
at a time, each of them right after a line that it has sent. So the time of lines that were answered
can be counted from what was sent meanwhile.
-/

namespace BenchPrinter

/-- A report of the temperatures that acknowledges nothing begins with a blank and the label of the
hotend. -/
def Report.isTemperatures (text : String) : Bool := " T:".toList.isPrefixOf text.toList

/-- A pause takes one interval and comes right after a line that was sent. -/
def Action.Rests (interval : UInt64) (action next : Action) : Prop :=
  ∀ milliseconds, next = .slept milliseconds →
    milliseconds = interval ∧ ∃ text, action = .sent text

theorem Action.rests_before_sent (interval : UInt64) (action : Action) (text : String) :
    action.Rests interval (.sent text) := by
  intro _ same
  cases same

theorem Action.rests_after_sent (interval : UInt64) (text : String) :
    (sent text).Rests interval (.slept interval) := by
  rintro _ ⟨rfl⟩
  exact ⟨rfl, text, rfl⟩

namespace Step

variable {α : Type}

/-- Half of a round of waiting: two reports with a pause between them. -/
def reports (interval : UInt64) : List (Step α) :=
  [updateHeaters, sendTemperatures, checkpoint, sleep interval, updateHeaters, sendTemperatures]

/-- Work that pauses for one interval at a time: after a keep-alive, and between two reports. -/
inductive Rhythm (interval : UInt64) : List (Step α) → Prop where
  | nil : Rhythm interval []
  | silent {step : Step α} {rest : List (Step α)}
      (silent : step.delivers = false ∧ ∀ milliseconds, step ≠ sleep milliseconds)
      (later : Rhythm interval rest) : Rhythm interval (step :: rest)
  | line {text : String} {rest : List (Step α)} (noKeepAlive : text ≠ Report.busy)
      (noReport : Report.isTemperatures text = false) (later : Rhythm interval rest) :
      Rhythm interval (send text :: rest)
  | keepAlive {rest : List (Step α)} (later : Rhythm interval rest) :
      Rhythm interval (checkpoint :: send Report.busy :: sleep interval :: rest)
  | reports {rest : List (Step α)} (later : Rhythm interval rest) :
      Rhythm interval (reports interval ++ rest)

namespace Rhythm

variable {interval : UInt64}

theorem busy (count : Nat) {rest : List (Step α)} (later : Rhythm interval rest) :
    Rhythm interval (busy interval count ++ rest) := by
  induction count with
  | zero => exact later
  | succ count inductionHypothesis => exact .keepAlive inductionHypothesis

theorem waitingRound {rest : List (Step α)} (later : Rhythm interval rest) :
    Rhythm interval (waitingRound interval ++ rest) := by
  rw [Step.waitingRound, List.append_assoc]
  exact .busy 1 (.reports later)

theorem ofSilent {steps : List (Step α)}
    (silent : ∀ step ∈ steps, step.delivers = false ∧ ∀ milliseconds, step ≠ sleep milliseconds) :
    Rhythm interval steps := by
  induction steps with
  | nil => exact .nil
  | cons step rest inductionHypothesis =>
      exact .silent (silent step (.head rest))
        (inductionHypothesis fun other member => silent other (.tail step member))

theorem announcing {texts : List String}
    (other : ∀ text ∈ texts, text ≠ Report.busy ∧ Report.isTemperatures text = false)
    {rest : List (Step α)} (later : Rhythm interval rest) :
    Rhythm interval (announcing interval texts ++ rest) := by
  induction texts with
  | nil => exact later
  | cons text texts inductionHypothesis =>
      obtain ⟨noKeepAlive, noReport⟩ := other text (.head texts)
      rw [Step.announcing, List.flatMap_cons, List.append_assoc, List.cons_append]
      exact .line noKeepAlive noReport (.busy _
        (inductionHypothesis fun text member => other text (.tail _ member)))

theorem sends {texts : List String}
    (other : ∀ text ∈ texts, text ≠ Report.busy ∧ Report.isTemperatures text = false) :
    Rhythm (α := α) interval (texts.map send) := by
  induction texts with
  | nil => exact .nil
  | cons text texts inductionHypothesis =>
      obtain ⟨noKeepAlive, noReport⟩ := other text (.head texts)
      exact .line noKeepAlive noReport (inductionHypothesis fun text member =>
        other text (.tail _ member))

end Rhythm

end Step

theorem Step.trace_of_silent {α : Type} [Quantity α] {step : Step α} {board : Board α}
    (silent : step.delivers = false ∧ ∀ milliseconds, step ≠ sleep milliseconds) :
    step.trace board = [] := by
  cases step with
  | sleep milliseconds => exact absurd rfl (silent.2 milliseconds)
  | send | sendTemperatures => cases silent.1
  | checkpoint | updateHeaters | move | home | setMode | aim => rfl

theorem Report.isTemperatures_temperatures {α : Type} [Quantity α] (heaters : Heaters α) :
    isTemperatures (temperatures heaters false) = true := by
  simp [isTemperatures, temperatures, heater, HeaterId.label, List.isPrefixOf]

theorem Report.not_temperatures {α : Type} [Quantity α] {text : String}
    (other : isTemperatures text = false) :
    isTemperatures text = true ↔ ∃ heaters : Heaters α, text = temperatures heaters false := by
  rw [other]
  refine ⟨nofun, ?_⟩
  rintro ⟨heaters, rfl⟩
  exact other.symm.trans (isTemperatures_temperatures heaters)

/-- The keep-alives among the lines that were sent. -/
def keepAlives (actions : List Action) : Nat := (sentTexts actions).count Report.busy

/-- The reports of the temperatures among the lines that were sent. -/
def temperatureReports (actions : List Action) : Nat :=
  (sentTexts actions).countP Report.isTemperatures

theorem keepAlives_append (first second : List Action) :
    keepAlives (first ++ second) = keepAlives first + keepAlives second := by
  rw [keepAlives, sentTexts_append, List.count_append]
  rfl

theorem temperatureReports_append (first second : List Action) :
    temperatureReports (first ++ second) =
      temperatureReports first + temperatureReports second := by
  rw [temperatureReports, sentTexts_append, List.countP_append]
  rfl

theorem Probing.no_report : (∀ text ∈ announcements, Report.isTemperatures text = false) ∧
    ∀ text ∈ grid, Report.isTemperatures text = false := by
  decide +kernel

namespace Board

open Step (Rhythm)

variable {α σ : Type} [Quantity α]

theorem rounds_rhythm (id : HeaterId) (patience : Nat) (board : Board α) :
    Rhythm board.busyInterval (rounds id patience board) := by
  induction patience generalizing board with
  | zero => exact .nil
  | succ patience inductionHypothesis =>
      rw [rounds]
      split
      · exact .nil
      · have later := inductionHypothesis board.round
        rw [show board.round.busyInterval = board.busyInterval from
          afterSteps_busyInterval _ board] at later
        exact later.waitingRound

theorem ofCommand_rhythm (board : Board α) (line : String) (command : Command) :
    Rhythm board.busyInterval (Plan.ofCommand (α := α) board.busyInterval line command).steps := by
  by_cases isHome : command = .home
  · rw [isHome]
    exact .busy 3 (.silent ⟨rfl, nofun⟩ .nil)
  by_cases isProbing : command = .probeBed
  · rw [isProbing]
    change Rhythm _ (Step.probing _)
    rw [Step.probing_eq]
    exact .announcing
      (fun text member => ⟨Probing.ne_busy.1 text member, Probing.no_report.1 text member⟩)
      (.sends fun text member => ⟨Probing.ne_busy.2 text member, Probing.no_report.2 text member⟩)
  · exact .ofSilent fun _ member => silent_ofCommand isHome isProbing member

/-- Whatever the line, its agenda is the delay and then work in this rhythm. -/
theorem agenda_rhythm (patience : Nat) (line : String) (board : Board α) :
    ∃ work, agenda patience line board = .sleep board.lineDelay :: work ∧
      Rhythm board.busyInterval work := by
  rcases Plan.waits_or_not board line with unhurried | ⟨id, target, heats⟩
  · rw [agenda, unhurried, List.append_nil]
    cases found : (Command.find? line.toList).map Prod.snd with
    | none =>
        rw [Option.map_eq_none_iff] at found
        simp only [Plan.ofLine, found]
        exact ⟨_, rfl, .nil⟩
    | some command =>
        rw [Plan.ofLine_of_found board found]
        exact ⟨_, rfl, board.ofCommand_rhythm line command⟩
  · rw [agenda, heats.plan board]
    exact ⟨_, rfl, .silent ⟨rfl, by simp⟩ (rounds_rhythm id patience (board.aim id target))⟩

/-- Whatever was seen before such work, all of its pauses come right after a line. -/
theorem rests_of_rhythm {interval : UInt64} {steps : List (Step α)}
    (rhythm : Rhythm interval steps) (board : Board α) (before : Action) :
    (before :: trace steps board).IsChain (Action.Rests interval) := by
  -- every kind of work sends before it pauses, so it does not matter what came before it
  induction rhythm generalizing board before with
  | nil => exact .singleton before
  | @silent step rest silent later inductionHypothesis =>
      rw [trace, Step.trace_of_silent silent]
      exact inductionHypothesis _ before
  | line noKeepAlive noReport later inductionHypothesis =>
      exact .cons_cons (before.rests_before_sent _ _) (inductionHypothesis _ _)
  | keepAlive later inductionHypothesis =>
      exact .cons_cons (before.rests_before_sent _ _)
        (.cons_cons (Action.rests_after_sent _ _) (inductionHypothesis _ _))
  | reports later inductionHypothesis =>
      exact .cons_cons (before.rests_before_sent _ _)
        (.cons_cons (Action.rests_after_sent _ _)
          (.cons_cons (Action.rests_before_sent _ _ _) (inductionHypothesis _ _)))

/-- Wherever the host ends the work on a line, the board has paused for the delay of the line, and
then only right after a line that it had sent. -/
theorem process_rests (host : Host σ) (patience : Nat) (line : String) (board : Board α)
    (state : σ) : ∃ later,
      (process host patience line board state).actions = .slept board.lineDelay :: later ∧
      (.slept board.lineDelay :: later).IsChain (Action.Rests board.busyInterval) := by
  obtain ⟨work, split, rhythm⟩ := board.agenda_rhythm patience line
  obtain ⟨last, acted, refused⟩ := actions_of_follow host (agenda patience line board) board state
  obtain ⟨rest, isPrefix⟩ :=
    passed_prefix host work ((Step.sleep board.lineDelay).apply board) state
  have chain := rests_of_rhythm rhythm ((Step.sleep board.lineDelay).apply board)
    (.slept board.lineDelay)
  -- the host may cut the work off anywhere, and what it refuses is no pause
  rw [← isPrefix, trace_append, ← List.cons_append] at chain
  rw [actions_of_process, acted, split]
  refine ⟨_, rfl, ?_⟩
  change List.IsChain _ (_ :: _ ++ last)
  refine List.isChain_append.2 ⟨chain.left_of_append, ?_, ?_⟩
  · rcases refused with rfl | ⟨text, rfl⟩
    · exact .nil
    · exact .singleton _
  · rcases refused with rfl | ⟨text, rfl⟩
    · exact fun _ _ => nofun
    · rintro _ _ _ ⟨⟩
      exact nofun

/-- What was seen between two states of the board adds up to the time that has passed: the delay for
each line, an interval for each keep-alive and one for each two reports. -/
structure Accounts (before after : Board α) (lines : Nat) (actions : List Action) : Prop where
  busyInterval : after.busyInterval = before.busyInterval
  lineDelay : after.lineDelay = before.lineDelay
  paired : 2 ∣ temperatureReports actions
  clock : after.clock.now = before.clock.now + lines.toUInt64 * before.lineDelay +
    (keepAlives actions + temperatureReports actions / 2).toUInt64 * before.busyInterval
  reports : ∀ text ∈ sentTexts actions, Report.isTemperatures text = true ↔
    ∃ heaters : Heaters α, text = Report.temperatures heaters false

namespace Accounts

variable {before middle after : Board α} {lines more : Nat} {actions later : List Action}

theorem trans (first : Accounts before middle lines actions)
    (second : Accounts middle after more later) :
    Accounts before after (lines + more) (actions ++ later) where
  busyInterval := second.busyInterval.trans first.busyInterval
  lineDelay := second.lineDelay.trans first.lineDelay
  paired := by
    rw [temperatureReports_append]
    exact Nat.dvd_add first.paired second.paired
  clock := by
    -- the halves add up because the reports of both parts are even in number
    have counted : keepAlives (actions ++ later) + temperatureReports (actions ++ later) / 2 =
        (keepAlives actions + temperatureReports actions / 2) +
          (keepAlives later + temperatureReports later / 2) := by
      have firstPaired := first.paired
      have secondPaired := second.paired
      rw [keepAlives_append, temperatureReports_append]
      omega
    have sum (count next : Nat) : (count + next).toUInt64 = count.toUInt64 + next.toUInt64 :=
      UInt64.ofNat_add count next
    rw [second.clock, first.clock, first.lineDelay, first.busyInterval, counted, sum lines more,
      sum (_ + _) (_ + _), UInt64.add_mul, UInt64.add_mul]
    ac_rfl
  reports := by
    rw [sentTexts_append]
    exact List.forall_mem_append.2 ⟨first.reports, second.reports⟩

/-- Where nothing is counted no time has passed. -/
theorem of_uncounted (clock : after.clock = before.clock)
    (busyInterval : after.busyInterval = before.busyInterval)
    (lineDelay : after.lineDelay = before.lineDelay)
    (other : ∀ text ∈ sentTexts actions,
      text ≠ Report.busy ∧ Report.isTemperatures text = false) :
    Accounts before after 0 actions := by
  have noKeepAlive : keepAlives actions = 0 :=
    List.count_eq_zero.2 fun member => (other _ member).1 rfl
  have noReport : temperatureReports actions = 0 :=
    List.countP_eq_zero.2 fun text member => by simp [(other text member).2]
  refine ⟨busyInterval, lineDelay, by simp [noReport], ?_, fun text member =>
    Report.not_temperatures (other text member).2⟩
  simp [clock, noKeepAlive, noReport]

theorem delay (board : Board α) :
    Accounts board ((Step.sleep board.lineDelay).apply board) 1 [.slept board.lineDelay] where
  busyInterval := rfl
  lineDelay := rfl
  paired := Nat.dvd_zero 2
  clock := by
    have noKeepAlive : keepAlives [.slept board.lineDelay] = 0 := rfl
    have noReport : temperatureReports [.slept board.lineDelay] = 0 := rfl
    change board.clock.now + board.lineDelay = _
    simp [noKeepAlive, noReport]
  reports := nofun

theorem keepAlive (board : Board α) :
    Accounts board ((Step.sleep board.busyInterval).apply board) 0
      [.sent Report.busy, .slept board.busyInterval] where
  busyInterval := rfl
  lineDelay := rfl
  paired := Nat.dvd_zero 2
  clock := by
    have single : keepAlives [.sent Report.busy, .slept board.busyInterval] = 1 :=
      List.count_singleton_self
    have noReport : temperatureReports [.sent Report.busy, .slept board.busyInterval] = 0 := rfl
    change board.clock.now + board.busyInterval = _
    simp [single, noReport]
  reports := List.forall_mem_singleton.2 (Report.not_temperatures rfl)

theorem ofReports (board : Board α) :
    Accounts board (board.afterSteps (Step.reports board.busyInterval)) 0
      (trace (Step.reports board.busyInterval) board) := by
  obtain ⟨first, second, texts⟩ : ∃ first second : Heaters α,
      sentTexts (trace (Step.reports board.busyInterval) board) =
        [Report.temperatures first false, Report.temperatures second false] := ⟨_, _, rfl⟩
  have noKeepAlive : keepAlives (trace (Step.reports board.busyInterval) board) = 0 := by
    rw [keepAlives, texts]
    simp [Report.temperatures_ne_busy]
  have both : temperatureReports (trace (Step.reports board.busyInterval) board) = 2 := by
    rw [temperatureReports, texts]
    simp [Report.isTemperatures_temperatures]
  refine ⟨rfl, rfl, by rw [both], ?_, ?_⟩
  · change board.clock.now + board.busyInterval = _
    simp [noKeepAlive, both]
  · have genuine (heaters : Heaters α) :
        Report.isTemperatures (Report.temperatures heaters false) = true ↔
          ∃ others : Heaters α,
            Report.temperatures heaters false = Report.temperatures others false :=
      ⟨fun _ => ⟨heaters, rfl⟩, fun _ => Report.isTemperatures_temperatures heaters⟩
    rw [texts]
    exact List.forall_mem_cons.2 ⟨genuine first, List.forall_mem_singleton.2 (genuine second)⟩

theorem of_rhythm {interval : UInt64} {steps : List (Step α)} (rhythm : Rhythm interval steps)
    {board : Board α} (sameInterval : board.busyInterval = interval) :
    Accounts board (board.afterSteps steps) 0 (trace steps board) := by
  induction rhythm generalizing board with
  | nil => exact .of_uncounted rfl rfl rfl nofun
  | @silent step rest silent later inductionHypothesis =>
      have first : Accounts board (step.apply board) 0 (step.trace board) := by
        rw [Step.trace_of_silent silent]
        cases step with
        | sleep milliseconds => exact absurd rfl (silent.2 milliseconds)
        | checkpoint | send | sendTemperatures | updateHeaters | move | home | setMode | aim =>
            exact .of_uncounted rfl rfl rfl nofun
      exact first.trans (inductionHypothesis (first.busyInterval.trans sameInterval))
  | @line text rest noKeepAlive noReport later inductionHypothesis =>
      have first : Accounts board board 0 [.sent text] :=
        .of_uncounted rfl rfl rfl (List.forall_mem_singleton.2 ⟨noKeepAlive, noReport⟩)
      exact first.trans (inductionHypothesis sameInterval)
  | keepAlive later inductionHypothesis =>
      subst sameInterval
      exact (keepAlive _).trans (inductionHypothesis rfl)
  | reports later inductionHypothesis =>
      subst sameInterval
      rw [afterSteps_append, trace_append]
      exact (ofReports _).trans (inductionHypothesis rfl)

end Accounts

theorem process_accounts {host : Host σ} {patience : Nat} {line : String} {board : Board α}
    {state : σ} (answered : (process host patience line board state).outcome.isOk = true) :
    Accounts board (process host patience line board state).board 1
      (process host patience line board state).actions := by
  obtain ⟨reached, acted⟩ := process_of_answer answered
  obtain ⟨work, split, rhythm⟩ := board.agenda_rhythm patience line
  rw [reached, acted, split]
  exact (Accounts.delay board).trans (.of_rhythm rhythm rfl)

/-- What is seen of a run of lines. -/
def trail : List Occasion → Board α → List Action
  | [], _ => []
  | occasion :: later, board =>
      (board.hear occasion).actions ++ trail later (board.hear occasion).board

/-- Whoever listens to the board and whatever ends its work, it pauses for the delay of the line and
then for one interval at a time, each of them right after a line that it has sent. And the time of
lines that were all answered is that of their delays, of the keep-alives and of each two reports. -/
theorem time_is_told (board : Board α) :
    (∀ (host : Host σ) (patience : Nat) (line : String) (state : σ), ∃ later,
      (process host patience line board state).actions = .slept board.lineDelay :: later ∧
        (.slept board.lineDelay :: later).IsChain (Action.Rests board.busyInterval)) ∧
    ∀ occasions : List Occasion, (∀ note ∈ board.notes occasions, note.succeeded = true) →
      Accounts board (board.hearAll occasions) occasions.length (board.trail occasions) := by
  refine ⟨fun host patience line state => process_rests host patience line board state, ?_⟩
  intro occasions succeeded
  induction occasions generalizing board with
  | nil => exact .of_uncounted rfl rfl rfl nofun
  | cons occasion later inductionHypothesis =>
      obtain ⟨answered, succeeded⟩ := List.forall_mem_cons.1 succeeded
      rw [List.length_cons, Nat.add_comm]
      exact (process_accounts answered).trans (inductionHypothesis _ succeeded)

/-- Homing, a wait for the hotend, probing and a question, all in front of a willing host. -/
def visits : List Occasion :=
  ["G28", "M109 S25", "G29 V4", "M105"].map fun line => ⟨Host.idle, (), 6, line⟩

theorem exactBoard_time_is_told :
    (∃ later, (process Host.idle 6 "M109 S25" exactBoard ()).actions =
        .slept exactBoard.lineDelay :: later ∧
      (.slept exactBoard.lineDelay :: later).IsChain
        (Action.Rests exactBoard.busyInterval)) ∧
    Accounts exactBoard (exactBoard.hearAll visits) visits.length (exactBoard.trail visits) := by
  obtain ⟨rests, accounts⟩ := @time_is_told Rat Unit _ exactBoard
  exact ⟨rests Host.idle 6 "M109 S25" (), accounts visits (by decide +kernel)⟩

/-- There are four delays, then three keep-alives while homing, five rounds of the wait and three
keep-alives for each of the seventeen announcements. -/
example : (exactBoard.hearAll visits).clock.now = 4 * 10 + (3 + 2 * 5 + 3 * 17) * 1000 := by
  decide +kernel

end Board

end BenchPrinter
