import BenchPrinter.Proofs.Numbering
import BenchPrinter.Proofs.Planning

/-!
What the printer says about a line. Everything that it sends meanwhile is a single piece that is no
acknowledgement, and every answer but the empty one ends with the only acknowledgement in it.
-/

namespace BenchPrinter

/-! Numbers are written without a line end. -/

theorem lineEnd_not_mem_toDigits (number : Nat) : '\n' ∉ Nat.toDigits 10 number :=
  fun member => by
    have isDigit := Nat.isDigit_of_mem_toDigits (by decide) (by decide) member
    simp at isDigit

theorem lineEnd_not_mem_lastDigits (width number : Nat) : '\n' ∉ lastDigits 10 width number := by
  induction width generalizing number with
  | zero => simp [lastDigits]
  | succ width inductionHypothesis =>
      simp [lastDigits, inductionHypothesis]

namespace Exact

theorem lineEnd_not_mem_fixed (places : Nat) (value : Exact) :
    '\n' ∉ (value.fixed places).toList := by
  have unsigned : '\n' ∉ value.unsignedFixed places := by
    cases value with
    | undefined => simp [unsignedFixed]
    | infinite => simp [unsignedFixed]
    | finite =>
        simp [unsignedFixed, pointed, lineEnd_not_mem_toDigits, lineEnd_not_mem_lastDigits]
  rw [fixed, String.toList_ofList]
  split <;> simp [unsigned]

end Exact

theorem lineEnd_not_mem_of_findWord? {letters line number : List Char}
    (found : findWord? letters .whole line = some number) : '\n' ∉ number := by
  induction line with
  | nil => simp [findWord?] at found
  | cons first rest inductionHypothesis =>
      simp only [findWord?] at found
      split at found
      · split at found
        · rename_i run longest
          obtain rfl : run = number := Option.some.inj found
          have isRun : (digitRun rest).1 = run :=
            Option.some.inj (Option.ite_none_left_eq_some.1 longest).2
          rw [← isRun]
          intro member
          have isDigit : isDecimalDigit '\n' = true := 
            List.all_eq_true.1 List.all_takeWhile _ member
          exact absurd isDigit (by decide)
        · exact inductionHypothesis found
      · exact inductionHypothesis found

namespace Report

/-- The pieces of a text stand between its line ends. -/
def pieces (text : String) : List (List Char) := text.toList.splitOn '\n'

/-- A host counts these pieces. -/
def isAcknowledgement (piece : List Char) : Bool :=
  piece == "ok".toList || "ok ".toList.isPrefixOf piece

theorem not_isAcknowledgement {piece : List Char} (other : piece.head? ≠ some 'o') :
    isAcknowledgement piece = false := by
  cases piece with
  | nil => rfl
  | cons first rest =>
      have differs : first ≠ 'o' := fun same => other (by simp [same])
      simp [isAcknowledgement, differs, Ne.symm differs, List.isPrefixOf]

/-- The last piece acknowledges the line, and no other piece does. -/
def Acknowledges (pieces : List (List Char)) : Prop :=
  ∃ earlier last, pieces = earlier ++ [last] ∧ isAcknowledgement last = true ∧
    ∀ piece ∈ earlier, isAcknowledgement piece = false

theorem Acknowledges.after {before after : List (List Char)} (acknowledges : Acknowledges after)
    (other : ∀ piece ∈ before, isAcknowledgement piece = false) :
    Acknowledges (before ++ after) := by
  obtain ⟨earlier, last, rfl, isLast, none⟩ := acknowledges
  exact ⟨before ++ earlier, last, (List.append_assoc ..).symm, isLast,
    List.forall_mem_append.2 ⟨other, none⟩⟩

theorem Acknowledges.spoken {text : String} (acknowledges : Acknowledges (pieces text)) :
    text.toList.isEmpty = false := by
  obtain ⟨earlier, last, split, isLast, -⟩ := acknowledges
  rw [Bool.eq_false_iff]
  intro silent
  have onlyLast : some last = some [] := by
    rw [← List.getLast?_concat, ← split, pieces, List.isEmpty_iff.1 silent]
    rfl
  obtain rfl := Option.some.inj onlyLast
  cases isLast

/-- A text that is sent meanwhile is a single piece, and no acknowledgement. -/
structure IsProgress (text : String) : Prop where
  single : '\n' ∉ text.toList
  other : text.toList.head? ≠ some 'o'

theorem IsProgress.pieces {text : String} (progress : IsProgress text) :
    pieces text = [text.toList] :=
  List.splitOn_eq_singleton progress.single

theorem IsProgress.acknowledges {text : String} (progress : IsProgress text) :
    Acknowledges (Report.pieces (acknowledged text)) := by
  refine ⟨[text.toList], acknowledgement.toList, ?_, rfl, ?_⟩
  · rw [Report.pieces, acknowledged, String.toList_append, String.toList_append, List.append_assoc]
    exact List.splitOn_append_cons_self_of_not_mem progress.single _
  · simpa using not_isAcknowledgement progress.other

variable {α : Type} [Quantity α]

theorem lineEnd_not_mem_temperatures (heaters : Heaters α) (acknowledge : Bool) :
    '\n' ∉ (temperatures heaters acknowledge).toList := by
  have ofHeater (id : HeaterId) (state : Heater α) : '\n' ∉ (heater id state).toList := by
    cases id <;> simp [heater, HeaterId.label, Quantity.fixed, Exact.lineEnd_not_mem_fixed]
  cases acknowledge <;> simp [temperatures, ofHeater]

theorem progress_of_temperatures (heaters : Heaters α) :
    IsProgress (temperatures heaters false) :=
  ⟨lineEnd_not_mem_temperatures heaters false, by simp [temperatures]⟩

theorem temperatures_acknowledges (heaters : Heaters α) :
    Acknowledges (pieces (temperatures heaters true)) := by
  refine ⟨[], _, List.splitOn_eq_singleton (lineEnd_not_mem_temperatures heaters true), ?_, by simp⟩
  simp [isAcknowledgement, temperatures, List.isPrefixOf]

theorem position_acknowledges (place : Position α) : Acknowledges (pieces (position place)) := by
  apply IsProgress.acknowledges
  constructor <;> simp [Quantity.fixed, Exact.lineEnd_not_mem_fixed]

end Report

namespace Command

/-- The line looks like a command. -/
def Begins (line : List Char) : Prop :=
  line.head? = some 'G' ∨ line.head? = some 'M' ∨ line.head? = some 'N'

/-- A line that looks like a command is acknowledged, but a blocking heat is not. -/
def Expects (line : List Char) : Prop :=
  Begins line ∧ ∀ id, (find? line).map Prod.snd ≠ some (.heatAndWait id)

theorem fallback_of_begins {line : List Char} (begins : Begins line) : fallback line = "ok" := by
  rcases begins with head | head | head <;> simp [fallback, head]

theorem fallback_of_not_begins {line : List Char} (begins : ¬ Begins line) :
    fallback line = "" := by
  cases head : line.head? with
  | none => simp [fallback, head]
  | some letter =>
      simp only [Begins, head, Option.some.injEq] at begins
      simp [fallback, head, begins]

theorem begins_of_find? {line : List Char} {entry : String × Command}
    (found : find? line = some entry) : Begins line := by
  obtain ⟨start, -⟩ := spelling_of_code entry (List.mem_of_find?_eq_some found)
  have carried : carries line entry.1.toList = true := by
    simpa using List.find?_some found
  simp only [carries, Bool.or_eq_true, Bool.and_eq_true, beq_iff_eq,
    List.isPrefixOf_iff_prefix] at carried
  rcases carried with ⟨rest, rfl⟩ | ⟨numbered, -⟩
  · rcases start with start | start <;> simp [Begins, List.head?_append, start]
  · exact .inr (.inr numbered)

end Command

namespace Step

variable {α : Type} [Quantity α]

/-- Whatever the step sends is a text of this kind. -/
def Sends (kind : String → Prop) (step : Step α) : Prop :=
  ∀ board text, step.request board = .delivery text → kind text

theorem IsQuiet.sends {step : Step α} (quiet : step.IsQuiet) (kind : String → Prop) :
    step.Sends kind := fun board text asked => by
  rw [quiet board] at asked
  cases asked

theorem checkpoint_sends (kind : String → Prop) : (checkpoint : Step α).Sends kind :=
  fun _ _ asked => nomatch asked

theorem send_sends {kind : String → Prop} {text : String} (holds : kind text) :
    (send text : Step α).Sends kind := by
  rintro board other asked
  exact Request.delivery.inj asked ▸ holds

theorem busy_sends {interval : UInt64} {count : Nat} {step : Step α}
    (member : step ∈ busy interval count) : step.Sends Report.IsProgress := by
  rcases mem_busy member with rfl | rfl | rfl
  · exact checkpoint_sends _
  · exact send_sends ⟨by decide, by decide⟩
  · exact IsQuiet.sends (fun _ => rfl) _

theorem waitingRound_sends (interval : UInt64) (step : Step α)
    (member : step ∈ waitingRound interval) : step.Sends Report.IsProgress := by
  have reports : (sendTemperatures : Step α).Sends Report.IsProgress := by
    rintro board - ⟨⟩
    exact Report.progress_of_temperatures _
  simp only [waitingRound, List.mem_append, List.mem_cons, List.not_mem_nil, or_false] at member
  rcases member with member | rfl | rfl | rfl | rfl | rfl | rfl
  · exact busy_sends member
  · exact IsQuiet.sends (fun _ => rfl) _
  · exact reports
  · exact checkpoint_sends _
  · exact IsQuiet.sends (fun _ => rfl) _
  · exact IsQuiet.sends (fun _ => rfl) _
  · exact reports

theorem progress_of_probing :
    (∀ point ∈ Probing.points, Report.IsProgress (Probing.line point)) ∧
      ∀ text ∈ Probing.grid, Report.IsProgress text := by
  have points : ∀ point ∈ Probing.points, '\n' ∉ (Probing.line point).toList ∧
      (Probing.line point).toList.head? ≠ some 'o' := by decide +kernel
  have grid : ∀ text ∈ Probing.grid, '\n' ∉ text.toList ∧ text.toList.head? ≠ some 'o' := by
    decide +kernel
  exact ⟨fun point member => ⟨(points point member).1, (points point member).2⟩,
    fun text member => ⟨(grid text member).1, (grid text member).2⟩⟩

theorem probing_sends {interval : UInt64} {step : Step α} (member : step ∈ probing interval) :
    step.Sends Report.IsProgress := by
  rcases mem_probing member with busy | ⟨text, rfl, rfl | ⟨point, isPoint, rfl⟩ | isText⟩
  · exact busy_sends busy
  · exact send_sends ⟨by decide, by decide⟩
  · exact send_sends (progress_of_probing.1 point isPoint)
  · exact send_sends (progress_of_probing.2 text isText)

end Step

namespace Plan

variable {α : Type} [Quantity α] (board : Board α) (line : String)

theorem ofLine_sends (step : Step α) (member : step ∈ (ofLine board line).steps) :
    step.Sends Report.IsProgress := by
  have quiet {step : Step α} (quiet : step.IsQuiet) : step.Sends Report.IsProgress := quiet.sends _
  rcases mem_ofLine member with rfl | ⟨command, -, prescribed⟩
  · exact quiet fun _ => rfl
  cases prescribed with
  | talk member => exact Step.busy_sends member
  | probing member => exact Step.probing_sends member
  | home | move | setMode | aim | heat | update => exact quiet fun _ => rfl

theorem reply_of_expected (single : '\n' ∉ line.toList) (expects : Command.Expects line.toList)
    (after : Board α) :
    Report.Acknowledges (Report.pieces ((ofLine board line).reply.render after)) := by
  obtain ⟨begins, noHeat⟩ := expects
  have plainly : Report.Acknowledges (Report.pieces Report.acknowledgement) :=
    ⟨[], "ok".toList, rfl, rfl, by simp⟩
  have text {text : String} (single : '\n' ∉ text.toList) (other : text.toList.head? ≠ some 'o') :
      Report.Acknowledges (Report.pieces (Report.acknowledged text)) :=
    Report.IsProgress.acknowledges ⟨single, other⟩
  cases found : Command.find? line.toList with
  | none =>
      simp only [ofLine, found, ofReply, Command.fallback_of_begins begins]
      exact plainly
  | some entry =>
      obtain ⟨code, command⟩ := entry
      cases command with
      | linearMove | home | probeBed | axisMode =>
          simp only [ofLine, found, ofCommand]
          exact plainly
      | setTarget id =>
          simp only [ofLine, found, ofCommand]
          split <;> exact plainly
      | heatAndWait id => exact absurd (by rw [found]; rfl) (noHeat id)
      | reportTemperatures =>
          simp only [ofLine, found, ofCommand]
          exact Report.temperatures_acknowledges _
      | reportPosition =>
          simp only [ofLine, found, ofCommand]
          exact Report.position_acknowledges _
      | fanOn =>
          have other : line.toList.head? ≠ some 'o' := by
            rcases begins with head | head | head <;> simp [head]
          simp only [ofLine, found, ofCommand]
          exact text single other
      | fanOff =>
          have fan : '\n' ∉ (Words.fan? line.toList).getD ['0'] := by
            cases carried : Words.fan? line.toList with
            | none => simp
            | some number => exact lineEnd_not_mem_of_findWord? carried
          simp only [ofLine, found, ofCommand]
          exact text (by simp [fan]) (by simp)
      | feedRate =>
          simp only [ofLine, found, ofCommand]
          split
          · rename_i percent carried
            exact text (by simp [lineEnd_not_mem_of_findWord? carried]) (by simp)
          · exact plainly

theorem reply_of_unexpected (unexpected : ¬ Command.Expects line.toList) (after : Board α) :
    (ofLine board line).reply.render after = "" := by
  cases found : Command.find? line.toList with
  | none =>
      have isOther : Command.fallback line.toList = "" :=
        Command.fallback_of_not_begins fun begins => unexpected ⟨begins, by simp [found]⟩
      simp [ofLine, found, ofReply, Reply.render, isOther]
  | some entry =>
      have heats : ∃ id, entry.2 = .heatAndWait id := by
        by_contra noHeat
        refine unexpected ⟨Command.begins_of_find? found, fun id => ?_⟩
        simpa [found] using fun same => noHeat ⟨id, same⟩
      obtain ⟨id, heats⟩ := heats
      simp only [ofLine, found, heats, ofCommand, heatAndWait]
      split <;> rfl

end Plan

end BenchPrinter
