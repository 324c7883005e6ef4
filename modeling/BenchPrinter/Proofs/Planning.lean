import BenchPrinter.Board.Plan

/-!
What the plan of a line can contain. Every command has few kinds of steps, and what a step has in
hand comes from the line.
-/

namespace BenchPrinter

namespace Step

variable {α : Type} {interval : UInt64} {step : Step α}

theorem mem_busy {count : Nat} (member : step ∈ busy interval count) :
    step = checkpoint ∨ step = send Report.busy ∨ step = sleep interval := by
  induction count with
  | zero => cases member
  | succ count inductionHypothesis =>
      simp only [busy, List.mem_cons] at member
      rcases member with isCheckpoint | isSend | isSleep | later
      · exact .inl isCheckpoint
      · exact .inr (.inl isSend)
      · exact .inr (.inr isSleep)
      · exact inductionHypothesis later

theorem mem_probing (member : step ∈ probing interval) :
    step ∈ busy interval Probing.busyPerStep ∨
      ∃ text, step = send text ∧ (text = Probing.banner ∨
        (∃ point ∈ Probing.points, text = Probing.line point) ∨ text ∈ Probing.grid) := by
  simp only [probing, List.cons_append, List.mem_cons, List.mem_append, List.mem_flatMap,
    List.mem_map] at member
  rcases member with isBanner | (busy | ⟨point, isPoint, isLine | busy⟩) | ⟨text, isText, rfl⟩
  · exact .inr ⟨_, isBanner, .inl rfl⟩
  · exact .inl busy
  · exact .inr ⟨_, isLine, .inr (.inl ⟨point, isPoint, rfl⟩)⟩
  · exact .inl busy
  · exact .inr ⟨text, rfl, .inr (.inr isText)⟩

end Step

namespace Plan

variable {α : Type} [Quantity α]

/-- The steps that a line with this command can have after the line delay. -/
inductive Prescribes (board : Board α) (line : String) : Command → Step α → Prop where
  | talk {step : Step α} (member : step ∈ Step.busy board.busyInterval 3) :
      Prescribes board line .home step
  | home : Prescribes board line .home (.home (Words.homingAxes line.toList))
  | probing {step : Step α} (member : step ∈ Step.probing board.busyInterval) :
      Prescribes board line .probeBed step
  | move {axis : Axis} {value : α} (carried : Words.coordinate? axis line.toList = some value) :
      Prescribes board line .linearMove (.move axis value)
  | setMode (mode : AxisMode) : Prescribes board line (.axisMode mode) (.setMode mode)
  | aim {id : HeaterId} {target : α} (carried : Words.target? line.toList = some target) :
      Prescribes board line (.setTarget id) (.aim id target)
  | heat {id : HeaterId} {target : α} (carried : Words.waitTarget? line.toList = some target) :
      Prescribes board line (.heatAndWait id) (.aim id target)
  | update : Prescribes board line .reportTemperatures .updateHeaters

theorem ofLine_of_found (board : Board α) {line : String} {command : Command}
    (found : (Command.find? line.toList).map Prod.snd = some command) :
    let plan : Plan α := ofCommand board.busyInterval line command
    ofLine board line = { plan with steps := .sleep board.lineDelay :: plan.steps } := by
  obtain ⟨entry, isEntry, rfl⟩ := Option.map_eq_some_iff.1 found
  simp only [ofLine, isEntry]

theorem mem_ofCommand {board : Board α} {line : String} {command : Command} {step : Step α}
    (member : step ∈ (ofCommand board.busyInterval line command).steps) :
    Prescribes board line command step := by
  cases command with
  | linearMove =>
      simp only [ofCommand, linearMove, acknowledge, List.mem_filterMap,
        Option.map_eq_some_iff] at member
      obtain ⟨axis, -, value, carried, rfl⟩ := member
      exact .move carried
  | home =>
      rcases List.mem_append.1 member with talk | last
      · exact .talk talk
      · exact List.mem_singleton.1 last ▸ .home
  | probeBed => exact .probing member
  | axisMode mode => exact List.mem_singleton.1 member ▸ .setMode mode
  | setTarget id =>
      simp only [ofCommand] at member
      split at member
      · rename_i carried
        exact List.mem_singleton.1 member ▸ .aim carried
      · cases member
  | heatAndWait id =>
      simp only [ofCommand, heatAndWait] at member
      split at member
      · rename_i carried
        exact List.mem_singleton.1 member ▸ .heat carried
      · cases member
  | reportTemperatures => exact List.mem_singleton.1 member ▸ .update
  | feedRate =>
      simp only [ofCommand] at member
      split at member <;> cases member
  | reportPosition | fanOn | fanOff => cases member

theorem mem_ofLine {board : Board α} {line : String} {step : Step α}
    (member : step ∈ (ofLine board line).steps) :
    step = .sleep board.lineDelay ∨ ∃ command,
      (Command.find? line.toList).map Prod.snd = some command ∧
        Prescribes board line command step := by
  cases found : (Command.find? line.toList).map Prod.snd with
  | none =>
      rw [Option.map_eq_none_iff] at found
      simp only [ofLine, found, ofReply, List.mem_singleton] at member
      exact .inl member
  | some command =>
      rw [ofLine_of_found board found] at member
      exact (List.mem_cons.1 member).imp_right fun later => ⟨command, rfl, mem_ofCommand later⟩

/-- Only a wait reports temperatures before it ends. -/
theorem sendTemperatures_not_mem_ofLine (board : Board α) (line : String) :
    .sendTemperatures ∉ (ofLine board line).steps := by
  intro member
  rcases mem_ofLine member with same | ⟨command, -, prescribed⟩
  · cases same
  cases prescribed with
  | talk member => rcases Step.mem_busy member with same | same | same <;> cases same
  | probing member =>
      rcases Step.mem_probing member with talk | ⟨text, same, -⟩
      · rcases Step.mem_busy talk with same | same | same <;> cases same
      · cases same

end Plan

end BenchPrinter
