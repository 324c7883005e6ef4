import Mathlib.Data.List.Basic
import Mathlib.Data.List.Induction
import BenchPrinter.Proofs.Beginning
import BenchPrinter.Proofs.Planning
import BenchPrinter.Proofs.Preservation

/-!
Where the axes stand after any number of lines. For one axis a line sets the coordinate, adds to it
or leaves it alone, and the last value that was set decides together with what was added later.
-/

namespace BenchPrinter

/-- What a line does to one coordinate. -/
inductive Shift (α : Type) where
  | set (value : α)
  | add (value : α)
deriving DecidableEq

namespace Shift

variable {α : Type}

def setValue? : Shift α → Option α
  | set value => some value
  | add _ => none

def addedValue? : Shift α → Option α
  | set _ => none
  | add value => some value

/-- The value that was set last, or the coordinate at the start. -/
def base (start : α) (shifts : List (Shift α)) : α :=
  (shifts.filterMap setValue?).getLast?.getD start

/-- The values that were added after the last one was set, in order. -/
def additions (shifts : List (Shift α)) : List α :=
  (shifts.reverse.takeWhile fun shift => shift.setValue?.isNone).reverse.filterMap addedValue?

variable [Quantity α]

/-- The additions are made one by one, so that each of them is rounded. -/
def total (start : α) (shifts : List (Shift α)) : α :=
  (additions shifts).foldl (· + ·) (base start shifts)

def apply (coordinate : α) : Shift α → α
  | set value => value
  | add value => coordinate + value

/-- Applying all shifts in turn comes to the same. -/
theorem foldl_apply (start : α) (shifts : List (Shift α)) :
    shifts.foldl apply start = total start shifts := by
  induction shifts using List.reverseRecOn with
  | nil => rfl
  | append_singleton shifts last inductionHypothesis =>
      rw [List.foldl_append, inductionHypothesis]
      cases last with
      | set value => simp [total, base, additions, apply, setValue?]
      | add value => simp [total, base, additions, apply, setValue?, addedValue?]

omit [Quantity α] in
def read : AxisMode → α → Shift α
  | .absolute => set
  | .relative => add

/-- A move is read in the current mode, and homing sets its axes to zero once it has succeeded. -/
def ofLine? (axis : Axis) (mode : AxisMode) (line : List Char) (succeeded : Bool) :
    Option (Shift α) :=
  match (Command.find? line).map Prod.snd with
  | some .linearMove => (Words.coordinate? axis line).map (read mode)
  | some .home => if succeeded ∧ axis ∈ Words.homingAxes line then some (set 0.0) else none
  | _ => none

end Shift

/-- The mode that a line selects. -/
def AxisMode.ofLine? (line : List Char) : Option AxisMode :=
  match (Command.find? line).map Prod.snd with
  | some (.axisMode mode) => some mode
  | _ => none

/-- The mode after some lines is the one selected last, or the one at the start. -/
def AxisMode.after (start : AxisMode) (lines : List (List Char)) : AxisMode :=
  (lines.filterMap ofLine?).getLast?.getD start

/-- A line that is sent to a board, with the host that it is worked on for. -/
structure Occasion where
  {σ : Type}
  host : Host σ
  state : σ
  patience : Nat
  line : String

/-- What is kept of an occasion afterwards. -/
structure Note where
  line : List Char
  succeeded : Bool

/-- The shifts of the later lines. The earlier lines decide how a move is read. -/
def Note.shifts {α : Type} [Quantity α] (axis : Axis) (start : AxisMode) :
    List Note → List Note → List (Shift α)
  | _, [] => []
  | earlier, note :: later =>
      (Shift.ofLine? axis (start.after (earlier.map line)) note.line note.succeeded).toList ++
        shifts axis start (earlier ++ [note]) later

namespace Step

variable {α : Type}

/-- A motion changes a coordinate or the mode. -/
def isMotion : Step α → Bool
  | move .. | home _ | setMode _ => true
  | _ => false

theorem not_isMotion_of_busy {interval : UInt64} {count : Nat} {step : Step α}
    (member : step ∈ busy interval count) : step.isMotion = false := by
  rcases mem_busy member with rfl | rfl | rfl <;> rfl

theorem not_isMotion_of_probing {interval : UInt64} {step : Step α}
    (member : step ∈ probing interval) : step.isMotion = false := by
  rcases mem_probing member with busy | ⟨text, rfl, -⟩
  · exact not_isMotion_of_busy busy
  · rfl

end Step

namespace Plan

variable {α : Type} [Quantity α]

/-- Only three commands move anything. -/
theorem motion_or_not (board : Board α) (line : String) :
    (∃ command, (Command.find? line.toList).map Prod.snd = some command ∧
        (command = .linearMove ∨ command = .home ∨ ∃ mode, command = .axisMode mode)) ∨
      AxisMode.ofLine? line.toList = none ∧
        (∀ axis mode succeeded,
          Shift.ofLine? (α := α) axis mode line.toList succeeded = none) ∧
        ∀ step ∈ (ofLine board line).steps, step.isMotion = false := by
  by_cases motion : ∃ command, (Command.find? line.toList).map Prod.snd = some command ∧
      (command = .linearMove ∨ command = .home ∨ ∃ mode, command = .axisMode mode)
  · exact .inl motion
  refine .inr ⟨?_, fun axis mode succeeded => ?_, fun step member => ?_⟩
  · unfold AxisMode.ofLine?
    split
    · rename_i mode found
      exact absurd ⟨_, found, .inr (.inr ⟨mode, rfl⟩)⟩ motion
    · rfl
  · unfold Shift.ofLine?
    split
    · rename_i found
      exact absurd ⟨_, found, .inl rfl⟩ motion
    · rename_i found
      exact absurd ⟨_, found, .inr (.inl rfl)⟩ motion
    · rfl
  · rcases mem_ofLine member with rfl | ⟨command, found, prescribed⟩
    · rfl
    cases prescribed with
    | talk member => exact Step.not_isMotion_of_busy member
    | probing member => exact Step.not_isMotion_of_probing member
    | aim | heat | update => rfl
    | move => exact absurd ⟨_, found, .inl rfl⟩ motion
    | home => exact absurd ⟨_, found, .inr (.inl rfl)⟩ motion
    | setMode mode => exact absurd ⟨_, found, .inr (.inr ⟨mode, rfl⟩)⟩ motion

/-- A move asks nothing of the host. -/
theorem isQuiet_of_linearMove (board : Board α) {line : String}
    (found : (Command.find? line.toList).map Prod.snd = some .linearMove) :
    ∀ step ∈ (ofLine board line).steps, step.IsQuiet := by
  simp only [ofLine_of_found board found, ofCommand, linearMove, acknowledge, List.mem_cons,
    List.mem_filterMap, Option.map_eq_some_iff]
  rintro step (rfl | ⟨axis, -, value, -, rfl⟩) <;> exact fun _ => rfl

end Plan

namespace Board

variable {α σ : Type} [Quantity α]

/-- The position and the mode are these. -/
def Stands (position : Position α) (mode : AxisMode) (board : Board α) : Prop :=
  board.printer.position = position ∧ board.printer.mode = mode

theorem keeps_stands {step : Step α} (still : step.isMotion = false) (position : Position α)
    (mode : AxisMode) : step.Keeps (Stands position mode) := by
  intro board stands
  cases step with
  | move | home | setMode => cases still
  | sleep | checkpoint | send | sendTemperatures | updateHeaters | aim => exact stands

theorem stands_afterSteps {steps : List (Step α)} (still : ∀ step ∈ steps, step.isMotion = false)
    (board : Board α) :
    (board.afterSteps steps).Stands board.printer.position board.printer.mode := by
  have kept : (follow Host.idle steps board ()).board.Stands board.printer.position
      board.printer.mode :=
    follow_keeps Host.idle () (fun step member => keeps_stands (still step member) _ _) ⟨rfl, rfl⟩
  obtain ⟨after, actions, -, followed⟩ := follow_of_willing Host.idle_willing steps board trivial
  rwa [followed] at kept

theorem get_move (board : Board α) (moved axis : Axis) (value : α) :
    ((Step.move moved value).apply board).printer.position.get axis =
      if axis = moved then (Shift.read board.printer.mode value).apply
        (board.printer.position.get axis)
      else board.printer.position.get axis := by
  cases reading : board.printer.mode with
  | absolute => simp [Step.apply, Printer.move, Position.move, reading, Shift.read, Shift.apply]
  | relative =>
      simp only [Step.apply, Printer.move, Position.move, reading, Position.get_set, Shift.read,
        Shift.apply]
      split
      · rename_i same
        rw [same]
      · rfl

/-- Each axis that the line names is moved once. -/
theorem afterSteps_moves (line : List Char) {axes : List Axis} (once : axes.Nodup)
    (board : Board α) :
    let after := board.afterSteps
      (axes.filterMap fun axis => (Words.coordinate? axis line).map (Step.move axis))
    after.printer.mode = board.printer.mode ∧
      ∀ axis, after.printer.position.get axis =
        if axis ∈ axes then
          ((Words.coordinate? axis line).map (Shift.read board.printer.mode)).elim
            (board.printer.position.get axis) (Shift.apply (board.printer.position.get axis))
        else board.printer.position.get axis := by
  induction axes generalizing board with
  | nil => exact ⟨rfl, fun _ => rfl⟩
  | cons first rest inductionHypothesis =>
      obtain ⟨absent, onceMore⟩ := List.nodup_cons.1 once
      cases carried : Words.coordinate? (α := α) first line with
      | none =>
          simp only [List.filterMap_cons, carried, Option.map_none]
          obtain ⟨sameMode, moved⟩ := inductionHypothesis onceMore board
          refine ⟨sameMode, fun axis => ?_⟩
          rw [moved]
          by_cases isFirst : axis = first
          · subst isFirst
            simp [absent, carried]
          · simp [isFirst]
      | some value =>
          simp only [List.filterMap_cons, carried, Option.map_some, afterSteps_cons]
          obtain ⟨sameMode, moved⟩ :=
            inductionHypothesis onceMore ((Step.move first value).apply board)
          refine ⟨sameMode, fun axis => ?_⟩
          rw [moved, get_move]
          by_cases isFirst : axis = first
          · subst isFirst
            simp [absent, carried]
          · simp only [isFirst, if_false, List.mem_cons, false_or]
            rfl

variable (host : Host σ) (patience : Nat) (line : String) (board : Board α) (state : σ)

/-- The line leaves the mode and the coordinates as its events say. -/
structure Travels (attempt : Attempt α σ String) : Prop where
  mode : attempt.board.printer.mode = (AxisMode.ofLine? line.toList).getD board.printer.mode
  position : ∀ axis, attempt.board.printer.position.get axis =
    (Shift.ofLine? axis board.printer.mode line.toList attempt.outcome.isOk).elim
      (board.printer.position.get axis) (Shift.apply (board.printer.position.get axis))

variable {line} {board}

theorem travels_of_still (unset : AxisMode.ofLine? line.toList = none)
    (unmoved : ∀ axis mode succeeded,
      Shift.ofLine? (α := α) axis mode line.toList succeeded = none)
    (still : ∀ step ∈ (Plan.ofLine board line).steps, step.isMotion = false) :
    Travels line board (process host patience line board state) := by
  obtain ⟨position, mode⟩ : (process host patience line board state).board.Stands
      board.printer.position board.printer.mode :=
    process_keeps (fun _ => keeps_stands rfl _ _) (keeps_stands rfl _ _) host patience line state
      (fun step member => keeps_stands (still step member) _ _) ⟨rfl, rfl⟩
  constructor
  · rw [mode, unset]
    rfl
  · intro axis
    rw [position, unmoved]
    rfl

theorem process_of_quiet (unhurried : (Plan.ofLine board line).waitsFor = none)
    (quiet : ∀ step ∈ (Plan.ofLine board line).steps, step.IsQuiet) :
    (process host patience line board state).board =
      board.afterSteps (Plan.ofLine board line).steps := by
  obtain ⟨succeeded, reached⟩ := follow_of_quiet host quiet board state
  rw [process_of_unhurried host patience line board state unhurried,
    Attempt.andThen_of_ok succeeded]
  exact reached

theorem travels_of_linearMove
    (found : (Command.find? line.toList).map Prod.snd = some .linearMove) :
    Travels line board (process host patience line board state) := by
  have plan := Plan.ofLine_of_found board found
  have reached := process_of_quiet host patience state (by rw [plan]; rfl)
    (Plan.isQuiet_of_linearMove board found)
  obtain ⟨mode, position⟩ := afterSteps_moves line.toList (show Axis.all.Nodup by decide)
    ((Step.sleep board.lineDelay).apply board)
  rw [plan] at reached
  constructor
  · rw [reached, AxisMode.ofLine?, found]
    exact mode
  · intro axis
    rw [reached, Shift.ofLine?, found]
    refine (position axis).trans ?_
    rw [if_pos axis.mem_all]
    rfl

theorem travels_of_axisMode {mode : AxisMode}
    (found : (Command.find? line.toList).map Prod.snd = some (.axisMode mode)) :
    Travels line board (process host patience line board state) := by
  have plan := Plan.ofLine_of_found board found
  have quiet : ∀ step ∈ (Plan.ofLine board line).steps, step.IsQuiet := by
    simp only [plan, Plan.ofCommand, Plan.acknowledge, List.mem_cons, List.not_mem_nil, or_false]
    rintro step (rfl | rfl) <;> exact fun _ => rfl
  have reached := process_of_quiet host patience state (by rw [plan]; rfl) quiet
  rw [plan] at reached
  constructor
  · rw [reached, AxisMode.ofLine?, found]
    rfl
  · intro axis
    rw [reached, Shift.ofLine?, found]
    rfl

/-- The axes are set to zero by the last step only. -/
theorem travels_of_home (found : (Command.find? line.toList).map Prod.snd = some .home) :
    Travels line board (process host patience line board state) := by
  have plan := Plan.ofLine_of_found board found
  obtain ⟨done, rest, split, reached, succeeded⟩ :=
    process_beginning host patience line board state (by rw [plan]; rfl)
  have steps : (Plan.ofLine board line).steps =
      (.sleep board.lineDelay :: Step.busy board.busyInterval 3) ++
        [.home (Words.homingAxes line.toList)] := by
    rw [plan]
    rfl
  have still : ∀ step ∈ .sleep board.lineDelay :: Step.busy (α := α) board.busyInterval 3,
      step.isMotion = false := by
    simp only [List.mem_cons]
    rintro step (rfl | member)
    · rfl
    · exact Step.not_isMotion_of_busy member
  rw [steps] at split
  rcases List.eq_nil_or_concat' rest with rfl | ⟨left, last, rfl⟩
  · obtain ⟨position, mode⟩ := stands_afterSteps still board
    rw [List.append_nil] at split
    rw [← split, afterSteps_append] at reached
    constructor
    · rw [reached, AxisMode.ofLine?, found]
      exact mode
    · intro axis
      rw [reached, Shift.ofLine?, found, succeeded.2 rfl]
      refine (Position.get_home _ _ axis).trans ?_
      rw [position]
      by_cases named : axis ∈ Words.homingAxes line.toList
      · simp [named, Shift.apply]
      · simp [named]
  · rw [← List.append_assoc] at split
    obtain ⟨beginning, -⟩ := List.append_inj' split rfl
    have stillDone : ∀ step ∈ done, step.isMotion = false := fun step member =>
      still step (by rw [beginning]; exact List.mem_append_left left member)
    obtain ⟨position, mode⟩ := stands_afterSteps stillDone board
    have failed : (process host patience line board state).outcome.isOk = false := by
      rw [Bool.eq_false_iff]
      exact fun answered => by simpa using succeeded.1 answered
    constructor
    · rw [reached, AxisMode.ofLine?, found]
      exact mode
    · intro axis
      rw [reached, Shift.ofLine?, found, failed, position]
      simp

/-- Whatever the host does, a line changes the mode and each coordinate by its own event only. -/
theorem process_travels (line : String) (board : Board α) :
    Travels line board (process host patience line board state) := by
  rcases Plan.motion_or_not board line with ⟨command, found, motion⟩ | ⟨unset, unmoved, still⟩
  · rcases motion with rfl | rfl | ⟨mode, rfl⟩
    · exact travels_of_linearMove host patience state found
    · exact travels_of_home host patience state found
    · exact travels_of_axisMode host patience state found
  · exact travels_of_still host patience state unset unmoved still

/-- The work on the line of the occasion. -/
def hear (occasion : Occasion) (board : Board α) : Attempt α occasion.σ String :=
  process occasion.host occasion.patience occasion.line board occasion.state

def hearAll (occasions : List Occasion) (board : Board α) : Board α :=
  occasions.foldl (fun board occasion => (board.hear occasion).board) board

/-- What is noted of a run are its lines, and which of them succeeded. -/
def notes : List Occasion → Board α → List Note
  | [], _ => []
  | occasion :: later, board =>
      ⟨occasion.line.toList, (board.hear occasion).outcome.isOk⟩ ::
        notes later (board.hear occasion).board

end Board

theorem AxisMode.after_concat (start : AxisMode) (earlier : List (List Char)) (line : List Char) :
    start.after (earlier ++ [line]) = (ofLine? line).getD (start.after earlier) := by
  cases selected : ofLine? line <;> simp [after, selected]

namespace Board

variable {α : Type} [Quantity α]

/-- The earlier lines have brought the board into its mode. -/
theorem get_hearAll (axis : Axis) (start : AxisMode) (earlier : List Note)
    (occasions : List Occasion) (board : Board α)
    (inMode : board.printer.mode = start.after (earlier.map Note.line)) :
    (board.hearAll occasions).printer.position.get axis =
      (Note.shifts axis start earlier (board.notes occasions)).foldl Shift.apply
        (board.printer.position.get axis) := by
  induction occasions generalizing board earlier with
  | nil => rfl
  | cons occasion later inductionHypothesis =>
      have travels := process_travels occasion.host occasion.patience occasion.state occasion.line
        board
      have next := inductionHypothesis
        (earlier ++ [⟨occasion.line.toList, (board.hear occasion).outcome.isOk⟩])
        (board.hear occasion).board (by
          rw [List.map_append, List.map_singleton, AxisMode.after_concat, ← inMode]
          exact travels.mode)
      rw [notes, Note.shifts, List.foldl_append, ← inMode]
      refine next.trans (congrArg (fun place => List.foldl Shift.apply place _) ?_)
      refine (travels.position axis).trans ?_
      rw [hear]
      cases Shift.ofLine? (α := α) axis board.printer.mode occasion.line.toList
        (process occasion.host occasion.patience occasion.line board
          occasion.state).outcome.isOk <;> rfl

/-- After any lines, whatever becomes of each of them, a coordinate is the value that was set last
with the later additions made to it one by one. -/
theorem coordinate_after_lines (board : Board α) (occasions : List Occasion) (axis : Axis) :
    (board.hearAll occasions).printer.position.get axis =
      Shift.total (board.printer.position.get axis)
        (Note.shifts axis board.printer.mode [] (board.notes occasions)) := by
  rw [get_hearAll axis board.printer.mode [] occasions board rfl, Shift.foldl_apply]

end Board

end BenchPrinter
