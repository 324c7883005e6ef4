import BenchPrinter.Proofs.Stranding

/-!
Which lines are answered at all. On a board with the standard settings a line is left unanswered only
by a blocking heat whose first tick leaves the heater stranded.
-/

namespace BenchPrinter

open Double

namespace Board

theorem HeatsTo.waitsFor {α : Type} [Quantity α] {line : String} {id : HeaterId} {target : α}
    (heats : HeatsTo line id target) (board : Board α) :
    (Plan.ofLine board line).waitsFor = some id ∧
      board.afterSteps (Plan.ofLine board line).steps = board.aim id target := by
  rw [heats.plan board]
  exact ⟨rfl, rfl⟩

/-- A line heats one heater to one target. -/
theorem HeatsTo.unique {α : Type} [Quantity α] {line : String} {id other : HeaterId}
    {target goal : α} (heats : HeatsTo line id target) (otherHeats : HeatsTo line other goal) :
    other = id ∧ goal = target :=
  ⟨Command.heatAndWait.inj (Option.some.inj (otherHeats.command.symm.trans heats.command)),
    Option.some.inj (otherHeats.carried.symm.trans heats.carried)⟩

variable {σ : Type} {host : Host σ} {good : σ → Prop} {state : σ} {board : Board Float}

/-- A blocking heat is answered exactly when its wait ends. -/
theorem HeatsTo.completes_iff (willing : host.Willing good) (start : good state)
    (sound : Sound board) {line : String} {id : HeaterId} {target : Float}
    (heats : HeatsTo line id target) :
    (∃ attempt, Completes host line board state attempt) ↔
      (board.aim id target).isSettled id = true ∨ ¬ (board.aim id target).tick.Stranded id := by
  obtain ⟨waits, aimed⟩ := heats.waitsFor board
  rw [completes_iff_endsWait willing line board start, waits, aimed]
  exact (heats.sound sound).settles_iff id

/-- No line with an endless target is answered. -/
theorem HeatsTo.never_completes (willing : host.Willing good) (start : good state)
    (sound : Sound board) {line : String} {id : HeaterId} {target : Float}
    (heats : HeatsTo line id target) (endless : Endless target) :
    ¬ ∃ attempt, Completes host line board state attempt := by
  have aimed := board.aim_effectiveTarget id (endless.not_beq literal_worths.1.1)
  have aimedSound := heats.sound sound
  have stranded : (board.aim id target).Stranded id := by
    apply aimedSound.stranded_of_endless
    rw [aimed]
    exact endless
  have later : (board.aim id target).tick.Stranded id := by
    apply aimedSound.tick.stranded_of_endless
    rw [tick_room, tick_effectiveTarget, aimed]
    exact endless
  rw [heats.completes_iff willing start sound]
  rintro (settled | free)
  · exact absurd settled (by simp [stranded.1])
  · exact free later

/-- On every board that lines and pauses lead to from power-up, a line is answered unless it heats
a heater that its first tick leaves stranded. -/
theorem answers_unless_stranded (willing : host.Willing good) (start : good state)
    (reachable : Reachable board) (line : String) :
    (∃ attempt, Completes host line board state attempt) ↔
      ∀ id target, HeatsTo line id target →
        (board.aim id target).isSettled id = true ∨ ¬ (board.aim id target).tick.Stranded id := by
  rcases Plan.waits_or_not board line with never | ⟨id, target, heats⟩
  · have ends : EndsWait (Plan.ofLine board line).waitsFor
        (board.afterSteps (Plan.ofLine board line).steps)
        (board.afterSteps (Plan.ofLine board line).steps) := by
      rw [never]
      rfl
    refine iff_of_true ((completes_iff_endsWait willing line board start).2 ⟨_, ends⟩) ?_
    intro id target heats
    rw [(heats.waitsFor board).1] at never
    cases never
  · constructor
    · intro completes other _ otherHeats
      exact (otherHeats.completes_iff willing start reachable.sound).1 completes
    · intro free
      exact (heats.completes_iff willing start reachable.sound).2 (free id target heats)

/-- A board with the standard settings that has just been powered up. -/
def coldBoard : Board Float := .powerUp .standard (.cycle []) ⟨0⟩

theorem coldBoard_reachable : Reachable coldBoard := by
  refine .powerUp _ _ fun index => ?_
  have half : IsSample 0.5 := by
    constructor <;> decide +kernel
  exact half

theorem coldBoard_answers_sixty :
    ∃ attempt, Completes Host.idle "M109 S60" coldBoard () attempt := by
  have heats : HeatsTo "M109 S60" .hotend (Quantity.ofNumeral ⟨false, 60, 0⟩ : Float) :=
    .of_numeral (by decide +kernel) (by decide +kernel) (show Numeral.read? ['6', '0'] = _ by rfl)
  have sixty : IsFinite (Quantity.ofNumeral ⟨false, 60, 0⟩) ∧
      worth (Quantity.ofNumeral ⟨false, 60, 0⟩) = 60 := by
    decide +kernel
  have set : (Quantity.ofNumeral ⟨false, 60, 0⟩ == (0.0 : Float)) = false := by
    decide +kernel
  have reachable : (60 : Rat) ≤ reach HeaterId.hotend.nearGrid + 2 := by
    norm_num [reach, HeaterId.nearGrid]
  apply (answers_unless_stranded Host.idle_willing trivial coldBoard_reachable "M109 S60").2
  intro id target otherHeats
  obtain ⟨rfl, rfl⟩ := heats.unique otherHeats
  generalize (Quantity.ofNumeral ⟨false, 60, 0⟩ : Float) = target at *
  have aimed := coldBoard.aim_effectiveTarget .hotend set
  have cold : ((coldBoard.aim .hotend target).heater .hotend).value = 0.0 := by
    rw [aim_heater]
    rfl
  have sound := heats.sound coldBoard_reachable.sound
  right
  apply (sound.free_of_cold _ _ _).1
  · rw [aimed]
    exact sixty.1
  · rw [aimed, sixty.2]
    exact reachable
  · rw [cold]
    exact literal_worths.1.2

/-- The target is written with the given count of nines. -/
def longHeat (count : Nat) : String := "M109 S" ++ String.ofList (List.replicate count '9')

theorem longHeat_toList (count : Nat) :
    (longHeat count).toList = ['M', '1', '0', '9', ' ', 'S'] ++ List.replicate count '9' := by
  have digits : (String.ofList (List.replicate count '9')).toList = List.replicate count '9' :=
    String.toList_ofList
  rw [longHeat, String.toList_append, digits]
  rfl

theorem findWord_longHeat (count : Nat) :
    findWord? ['S', 'R'] .unsigned (longHeat (count + 1)).toList =
      some (List.replicate (count + 1) '9') := by
  have digit : isDecimalDigit '9' = true := by decide
  have run (count : Nat) :
      digitRun (List.replicate count '9') = (List.replicate count '9', []) := by
    simp [digitRun, digit]
  rw [longHeat_toList]
  simp [findWord?, NumberForm.longest?, NumberForm.unsigned?, run, fractionRun]

/-- With three hundred and ten digits the target is positive infinity. -/
theorem coldBoard_never_answers_longHeat :
    Reachable coldBoard ∧ ¬ ∃ attempt, Completes Host.idle (longHeat 310) coldBoard () attempt := by
  have command : (Command.find? (longHeat 310).toList).map Prod.snd =
      some (.heatAndWait .hotend) := by
    rw [longHeat_toList]
    decide +kernel
  have read : Numeral.read? (List.replicate 310 '9') = some ⟨false, 10 ^ 310 - 1, 0⟩ := by
    decide +kernel
  have heats : HeatsTo (longHeat 310) .hotend
      (Quantity.ofNumeral ⟨false, 10 ^ 310 - 1, 0⟩ : Float) :=
    .of_numeral command (findWord_longHeat 309) read
  have endless : Endless (Quantity.ofNumeral ⟨false, 10 ^ 310 - 1, 0⟩) := by
    have bits : (Quantity.ofNumeral ⟨false, 10 ^ 310 - 1, 0⟩ : Float).toModel.toBits =
        0x7ff0000000000000 := by
      decide +kernel
    rw [Endless, unpacked, Float.Model.unpack, bits]
    rfl
  constructor
  · exact coldBoard_reachable
  · exact heats.never_completes Host.idle_willing trivial coldBoard_reachable.sound endless

end Board

end BenchPrinter
