import Mathlib.Data.List.Infix
import BenchPrinter.Proofs.Beginning

/-!
Numbered lines. A host may put a line number before a text and a checksum after it. Neither of the
two is ever read as a part of the text, so that only the choice of the command can differ.
-/

namespace BenchPrinter

/-- A line number and a checksum, both in digits. -/
structure Frame where
  number : String
  checksum : String
  digitsOfNumber : ∀ digit ∈ number.toList, digit.isDigit = true
  digitsOfChecksum : ∀ digit ∈ checksum.toList, digit.isDigit = true

namespace Frame

/-- What stands before the text. -/
def front (frame : Frame) : List Char := 'N' :: frame.number.toList ++ [' ']

/-- What stands after the asterisk behind the text. -/
def back (frame : Frame) : List Char := frame.checksum.toList

def around (frame : Frame) (text : String) : String :=
  "N" ++ frame.number ++ " " ++ text ++ "*" ++ frame.checksum

theorem toList_around (frame : Frame) (text : String) :
    (frame.around text).toList = frame.front ++ (text.toList ++ '*' :: frame.back) := by
  simp [around, front, back]

/-- A letter that neither a number nor a mark contains stands in the text only. -/
structure Free (frame : Frame) (letter : Char) : Prop where
  front : letter ∉ frame.front
  back : letter ∉ '*' :: frame.back

/-- The letters that begin a word or a code. -/
def letters : List Char := ['G', 'M', 'P', 'R', 'S', 'X', 'Y', 'Z']

theorem free_of_mem_letters (frame : Frame) {letter : Char} (member : letter ∈ letters) :
    frame.Free letter := by
  obtain ⟨noDigit, noMark⟩ : letter.isDigit = false ∧ letter ∉ ['N', ' ', '*'] :=
    (show ∀ letter ∈ letters, letter.isDigit = false ∧ letter ∉ ['N', ' ', '*'] by
      simp [letters])
      letter member
  have notIn {digits : List Char} (all : ∀ digit ∈ digits, digit.isDigit = true) :
      letter ∉ digits := fun member => by simp [all letter member] at noDigit
  simp only [List.mem_cons, List.not_mem_nil, or_false, not_or] at noMark
  obtain ⟨noStart, noBlank, noAsterisk⟩ := noMark
  constructor
  · simp [front, noStart, noBlank, notIn frame.digitsOfNumber]
  · simp [back, noAsterisk, notIn frame.digitsOfChecksum]

end Frame

/-! A word of the text ends at the asterisk at the latest. -/

section

variable (rest : List Char)

theorem digitRun_mark (text : List Char) :
    digitRun (text ++ '*' :: rest) = ((digitRun text).1, (digitRun text).2 ++ '*' :: rest) := by
  have noDigit : isDecimalDigit '*' = false := by decide
  induction text with
  | nil => simp [digitRun, noDigit]
  | cons first text inductionHypothesis =>
      simp only [digitRun, Prod.mk.injEq] at inductionHypothesis
      cases digit : isDecimalDigit first <;> simp [digitRun, digit, inductionHypothesis]

theorem fractionRun_mark (text : List Char) :
    fractionRun (text ++ '*' :: rest) = fractionRun text := by
  cases text with
  | nil => rfl
  | cons first text =>
      by_cases point : first = '.'
      · subst point
        simp [fractionRun, digitRun_mark]
      · simp [fractionRun, point]

namespace NumberForm

theorem unsigned?_mark (text : List Char) : unsigned? (text ++ '*' :: rest) = unsigned? text := by
  simp only [unsigned?, digitRun_mark, fractionRun_mark]

theorem longest?_mark (form : NumberForm) (text : List Char) :
    form.longest? (text ++ '*' :: rest) = form.longest? text := by
  cases form with
  | unsigned => simp only [longest?, unsigned?_mark]
  | whole => simp only [longest?, digitRun_mark]
  | signed =>
      cases text with
      | nil => exact unsigned?_mark rest []
      | cons first text =>
          by_cases plus : first = '+'
          · subst plus
            simp only [List.cons_append, longest?, unsigned?_mark]
          · by_cases minus : first = '-'
            · subst minus
              simp only [List.cons_append, longest?, unsigned?_mark]
            · simpa [longest?, plus, minus] using unsigned?_mark rest (first :: text)

end NumberForm

end

theorem findWord?_front {letters front : List Char} (form : NumberForm)
    (free : ∀ letter ∈ letters, letter ∉ front) (text : List Char) :
    findWord? letters form (front ++ text) = findWord? letters form text := by
  induction front with
  | nil => rfl
  | cons first front inductionHypothesis =>
      have absent : letters.contains first = false := by
        simpa using fun member => free first member List.mem_cons_self
      rw [List.cons_append, findWord?, absent]
      exact inductionHypothesis fun letter member inFront =>
        free letter member (List.mem_cons_of_mem _ inFront)

theorem findWord?_mark {letters rest : List Char} (form : NumberForm)
    (free : ∀ letter ∈ letters, letter ∉ '*' :: rest) (text : List Char) :
    findWord? letters form (text ++ '*' :: rest) = findWord? letters form text := by
  induction text with
  | nil => simpa using findWord?_front form free []
  | cons first text inductionHypothesis =>
      simp only [List.cons_append, findWord?, NumberForm.longest?_mark, inductionHypothesis]

/-! Nor does a code reach beyond the text. -/

theorem occursIn_iff_infix (code text : List Char) :
    occursIn code text = true ↔ code <:+: text := by
  induction text with
  | nil => simp [occursIn]
  | cons first rest inductionHypothesis =>
      simp [occursIn, List.infix_cons_iff, inductionHypothesis]

section

variable {first : Char} {code : List Char}

theorem infix_front {front : List Char} (free : first ∉ front) (text : List Char) :
    first :: code <:+: front ++ text ↔ first :: code <:+: text := by
  induction front with
  | nil => rfl
  | cons head front inductionHypothesis =>
      obtain ⟨differs, later⟩ := not_or.1 (List.mem_cons.not.1 free)
      simp [List.infix_cons_iff, differs, inductionHypothesis later]

theorem prefix_mark {code : List Char} (unmarked : '*' ∉ code) (rest text : List Char) :
    code <+: text ++ '*' :: rest ↔ code <+: text := by
  induction code generalizing text with
  | nil => simp
  | cons head code inductionHypothesis =>
      obtain ⟨differs, later⟩ := not_or.1 (List.mem_cons.not.1 unmarked)
      cases text with
      | nil => simp [Ne.symm differs]
      | cons letter text => simp [List.cons_prefix_cons, inductionHypothesis later]

theorem infix_mark {rest : List Char} (free : first ∉ '*' :: rest)
    (unmarked : '*' ∉ first :: code) (text : List Char) :
    first :: code <:+: text ++ '*' :: rest ↔ first :: code <:+: text := by
  induction text with
  | nil => simpa using infix_front free []
  | cons letter text inductionHypothesis =>
      rw [List.cons_append, List.infix_cons_iff, ← List.cons_append, prefix_mark unmarked,
        inductionHypothesis, ← List.infix_cons_iff]

end

namespace Command

theorem codes_nodup : table.Nodup := by decide

theorem spelling_of_code : ∀ entry ∈ table,
    (entry.1.toList.head? = some 'G' ∨ entry.1.toList.head? = some 'M') ∧ '*' ∉ entry.1.toList := by
  decide

end Command

namespace Words

/-- Two lines agree when every reader takes the same from both of them. -/
structure Agree (α : Type) [Quantity α] (line other : List Char) : Prop where
  coordinate : ∀ axis, coordinate? (α := α) axis line = coordinate? axis other
  target : target? (α := α) line = target? other
  waitTarget : waitTarget? (α := α) line = waitTarget? other
  feedPercent : feedPercent? line = feedPercent? other
  fan : fan? line = fan? other
  homingAxes : homingAxes line = homingAxes other

end Words

namespace Frame

variable (frame : Frame) (text : String)

theorem findWord?_around {names : List Char} (form : NumberForm)
    (known : ∀ letter ∈ names, letter ∈ letters) :
    findWord? names form (frame.around text).toList = findWord? names form text.toList := by
  have free (letter : Char) (member : letter ∈ names) : frame.Free letter :=
    frame.free_of_mem_letters (known letter member)
  rw [toList_around, findWord?_front form fun letter member => (free letter member).front,
    findWord?_mark form fun letter member => (free letter member).back]

theorem value?_around {α : Type} [Quantity α] {names : List Char} (form : NumberForm)
    (known : ∀ letter ∈ names, letter ∈ letters) :
    Words.value? (α := α) names form (frame.around text).toList =
      Words.value? names form text.toList := by
  simp only [Words.value?, frame.findWord?_around text form known]

theorem contains_around {letter : Char} (known : letter ∈ letters) :
    (frame.around text).toList.contains letter = text.toList.contains letter := by
  have free := frame.free_of_mem_letters known
  rw [Bool.eq_iff_iff, toList_around]
  simp only [List.contains_iff_mem, List.mem_append, free.front, free.back, false_or, or_false]

theorem agree_around (α : Type) [Quantity α] :
    Words.Agree α (frame.around text).toList text.toList := by
  have ofAxis (axis : Axis) : axis.letter ∈ letters := by cases axis <;> decide
  constructor
  · exact fun axis =>
      frame.value?_around text .signed (List.forall_mem_singleton.2 (ofAxis axis))
  · exact frame.value?_around text .unsigned (by simp [letters])
  · exact frame.value?_around text .unsigned (by simp [letters])
  · exact frame.findWord?_around text _ (by simp [letters])
  · exact frame.findWord?_around text _ (by simp [letters])
  · simp only [Words.homingAxes, frame.contains_around text (ofAxis _)]

/-- A numbered line carries a code wherever it stands in the text. -/
theorem carries_around {entry : String × Command} (registered : entry ∈ Command.table) :
    carries (frame.around text).toList entry.1.toList = true ↔
      entry.1.toList <:+: text.toList := by
  obtain ⟨start, unmarked⟩ := Command.spelling_of_code entry registered
  cases spelled : entry.1.toList with
  | nil => simp [spelled] at start
  | cons first code =>
      rw [spelled] at unmarked start
      have free : frame.Free first := frame.free_of_mem_letters (by
        rcases start with start | start <;> cases start <;> decide)
      have notFront : ¬ first :: code <+: (frame.around text).toList := by
        rw [toList_around]
        rintro ⟨later, same⟩
        exact free.front ((List.cons.inj same).1 ▸ List.mem_cons_self)
      have numbered : (frame.around text).toList.head? = some 'N' := by
        simp [toList_around, front]
      simp only [carries, numbered, List.isPrefixOf_iff_prefix, occursIn_iff_infix, Bool.or_eq_true,
        Bool.and_eq_true, notFront, false_or]
      rw [toList_around, infix_front free.front, infix_mark free.back unmarked]
      simp

end Frame

namespace Command

section

variable {line : List Char}

/-- A registered entry that the line carries is found unless an earlier one is. -/
theorem find?_eq_some_iff_of_split {before after : List (String × Command)}
    {entry : String × Command} (split : table = before ++ entry :: after)
    (carried : carries line entry.1.toList = true) :
    find? line = some entry ↔ ∀ other ∈ before, ¬ carries line other.1.toList = true := by
  have absent : entry ∉ before := by
    have distinct := codes_nodup
    rw [split, List.nodup_append] at distinct
    exact fun member => distinct.2.2 entry member entry List.mem_cons_self rfl
  rw [find?, split, List.find?_append, List.find?_cons_of_pos (by exact carried)]
  cases earlier : before.find? fun other => carries line other.1.toList with
  | none => simpa using earlier
  | some other =>
      have isCarried := List.find?_some earlier
      have member := List.mem_of_find?_eq_some earlier
      have differs : other ≠ entry := by
        rintro rfl
        exact absent member
      simp only [Option.some_or, Option.some.injEq, differs, false_iff]
      exact fun none => none other member isCarried

end

end Command

namespace Plan

variable {α : Type} [Quantity α]

/-- Only the answer about a fan that is switched on repeats the line itself. -/
theorem ofCommand_congr {line other : String} (agree : Words.Agree α line.toList other.toList)
    (interval : UInt64) {command : Command} (silent : command ≠ .fanOn) :
    (ofCommand interval line command : Plan α) = ofCommand interval other command := by
  cases command with
  | fanOn => exact absurd rfl silent
  | linearMove => simp only [ofCommand, linearMove, agree.coordinate]
  | home => simp only [ofCommand, agree.homingAxes]
  | setTarget id => simp only [ofCommand, agree.target]
  | heatAndWait id => simp only [ofCommand, heatAndWait, agree.waitTarget]
  | feedRate => simp only [ofCommand, agree.feedPercent]
  | fanOff => simp only [ofCommand, agree.fan]
  | probeBed | axisMode | reportTemperatures | reportPosition => rfl

end Plan

namespace Board

variable {α σ : Type} [Quantity α]

theorem process_congr {line other : String} {entry : String × Command}
    (found : Command.find? line.toList = some entry)
    (foundToo : Command.find? other.toList = some entry)
    (agree : Words.Agree α line.toList other.toList) (silent : entry.2 ≠ .fanOn) (host : Host σ)
    (patience : Nat) (board : Board α) (state : σ) :
    process host patience line board state = process host patience other board state := by
  have same : Plan.ofLine board line = Plan.ofLine board other := by
    simp only [Plan.ofLine, found, foundToo, Plan.ofCommand_congr agree board.busyInterval silent]
  rw [process, process, same]

theorem process_of_fanOn {line : String} {entry : String × Command}
    (found : Command.find? line.toList = some entry) (fan : entry.2 = .fanOn) (host : Host σ)
    (patience : Nat) (board : Board α) (state : σ) :
    process host patience line board state =
      ⟨.ok (Report.acknowledged line), (Step.sleep board.lineDelay).apply board, state,
        [.slept board.lineDelay]⟩ := by
  have plan : Plan.ofLine board line =
      ⟨[.sleep board.lineDelay], none, .text (Report.acknowledged line)⟩ := by
    simp [Plan.ofLine, found, fan, Plan.ofCommand, Plan.ofReply]
  rw [process, plan]
  rfl

/-- A line number and a checksum change no word. They change the command only if an earlier one
stands somewhere in the text, and without that they change nothing but the echo of the line. -/
theorem numbering_is_transparent (frame : Frame) (text : String) :
    Words.Agree α (frame.around text).toList text.toList ∧
    (∀ before entry after, Command.table = before ++ entry :: after →
      entry.1.toList <+: text.toList →
      (Command.find? (frame.around text).toList = some entry ↔
        ∀ other ∈ before, ¬ other.1.toList <:+: text.toList)) ∧
    (Command.find? (frame.around text).toList = none ↔
      ∀ entry ∈ Command.table, ¬ entry.1.toList <:+: text.toList) ∧
    ∀ entry, Command.find? (frame.around text).toList = some entry →
      Command.find? text.toList = some entry →
      ∀ (host : Host σ) (patience : Nat) (board : Board α) (state : σ),
        let numbered := process host patience (frame.around text) board state
        let plain := process host patience text board state
        numbered.board = plain.board ∧ numbered.host = plain.host ∧
          numbered.actions = plain.actions ∧
          if entry.2 = .fanOn then
            numbered.outcome = .ok (Report.acknowledged (frame.around text)) ∧
              plain.outcome = .ok (Report.acknowledged text)
          else numbered.outcome = plain.outcome := by
  refine ⟨frame.agree_around text α, ?_, ?_, ?_⟩
  · intro before entry after split beginning
    have registered : entry ∈ Command.table := by simp [split]
    rw [Command.find?_eq_some_iff_of_split split
      ((frame.carries_around text registered).2 beginning.isInfix)]
    refine forall₂_congr fun other member => ?_
    rw [frame.carries_around text (by simp [split, member])]
  · rw [Command.find?, List.find?_eq_none]
    exact forall₂_congr fun entry registered => not_congr (frame.carries_around text registered)
  · intro entry found foundToo host patience board state
    by_cases fan : entry.2 = .fanOn
    · rw [process_of_fanOn found fan, process_of_fanOn foundToo fan]
      simp [fan]
    · rw [process_congr found foundToo (frame.agree_around text α) fan]
      simp [fan]

/-- The twelfth line of a host. -/
def twelfthFrame : Frame := ⟨"12", "31", by simp, by simp⟩

-- The plain line switches the fan on, since a plain line carries the code it starts with.
example : Command.find? (twelfthFrame.around "M106 G1").toList = some ("G1", .linearMove) := by
  decide

theorem twelfth_fanOn_is_transparent :
    let board : Board Float := powerUp .standard (.cycle []) ⟨0⟩
    let line := twelfthFrame.around "M106 P1 S255"
    Command.find? line.toList = some ("M106", .fanOn) ∧
      (process Host.idle 0 line board ()).board =
        (process Host.idle 0 "M106 P1 S255" board ()).board := by
  intro board line
  obtain ⟨-, chosen, -, same⟩ :=
    numbering_is_transparent (α := Float) (σ := Unit) twelfthFrame "M106 P1 S255"
  have found : Command.find? line.toList = some ("M106", .fanOn) :=
    (chosen (Command.table.take 8) ("M106", .fanOn) (Command.table.drop 9) rfl (by decide)).2
      (by decide)
  exact ⟨found, (same _ found (by decide) Host.idle 0 board ()).1⟩

end Board

end BenchPrinter
