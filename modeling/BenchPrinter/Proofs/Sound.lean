import BenchPrinter.Proofs.Drift
import BenchPrinter.Proofs.Preservation

/-!
Boards with the standard settings. Whatever lines such a board is sent, its temperatures stay
finite, and its targets are finite or positive infinity.
-/

namespace BenchPrinter

open Double

namespace Words

/-- A number without a sign begins with a digit. -/
theorem findWord_unsigned {letters line number : List Char}
    (found : findWord? letters .unsigned line = some number) :
    ∃ digit rest, number = digit :: rest ∧ isDecimalDigit digit = true := by
  induction line with
  | nil => cases found
  | cons letter rest inductionHypothesis =>
      have begins (number : List Char)
          (longest : NumberForm.longest? .unsigned rest = some number) :
          ∃ digit later, number = digit :: later ∧ isDecimalDigit digit = true := by
        simp only [NumberForm.longest?, NumberForm.unsigned?, digitRun] at longest
        cases taken : rest.takeWhile isDecimalDigit with
        | nil => simp [taken] at longest
        | cons digit digits =>
            have member : digit ∈ rest.takeWhile isDecimalDigit := by
              rw [taken]
              exact .head digits
            simp only [taken, List.isEmpty_cons, Bool.false_eq_true, if_false,
              Option.some.injEq] at longest
            exact ⟨digit, _, longest.symm, List.all_eq_true.1 List.all_takeWhile digit member⟩
      rw [findWord?] at found
      split at found
      · split at found
        · rename_i number longest
          obtain rfl := Option.some.inj found
          exact begins _ longest
        · exact inductionHypothesis found
      · exact inductionHypothesis found

/-- So it has no minus sign. -/
theorem positive_of_digit {digit : Char} {rest : List Char} {numeral : Numeral}
    (isDigit : isDecimalDigit digit = true) (read : Numeral.read? (digit :: rest) = some numeral) :
    numeral.negative = false := by
  have notMinus : digit ≠ '-' := by
    rintro rfl
    exact absurd isDigit (by decide)
  have unsigned : (Numeral.splitSign (digit :: rest)).1 = false := by
    unfold Numeral.splitSign
    split
    · rename_i same
      exact absurd (List.cons.inj same).1 notMinus
    · rfl
    · rfl
  simp only [Numeral.read?, unsigned] at read
  split at read
  · cases read
  · split at read
    · rw [← Option.some.inj read]
    · cases read

theorem value_unsigned {letters line : List Char} {target : Float}
    (valued : value? letters .unsigned line = some target) : Unsigned target := by
  unfold value? at valued
  split at valued
  · rename_i number found
    obtain ⟨digit, rest, rfl, isDigit⟩ := findWord_unsigned found
    obtain ⟨numeral, read, rfl⟩ := Option.map_eq_some_iff.1 valued
    rw [Quantity.ofNumeral, positive_of_digit isDigit read]
    exact unsigned_numeral _ _
  · cases valued

end Words

/-- The line sets one target, and it is unsigned. -/
theorem Plan.aims_of_mem {board : Board Float} {line : String} {id : HeaterId} {target : Float}
    (member : .aim id target ∈ (Plan.ofLine board line).steps) :
    (Plan.ofLine board line).steps = [.sleep board.lineDelay, .aim id target] ∧
      Unsigned target := by
  rcases Plan.aims_or_not board line with never | ⟨other, carried, steps, word⟩
  · exact absurd member (never id target)
  · rw [steps] at member
    obtain ⟨rfl, rfl⟩ : id = other ∧ target = carried := by simpa using member
    constructor
    · exact steps
    · rcases word with word | word <;> exact Words.value_unsigned word

/-- What every line leaves in place on a board with the standard settings. -/
structure Sound (board : Board Float) : Prop where
  room : board.room = 20.0
  interval : board.busyInterval = 1000
  delay : board.lineDelay = 10
  unit : ∀ index, IsSample (board.noise.sample index)
  profile : ∀ id, (board.heater id).profile = .standard id
  value : ∀ id, IsFinite (board.heater id).value
  target : ∀ id, Unsigned (board.heater id).target
  fresh : ∀ id, (board.heater id).lastUpdate = none → worth (board.heater id).value = 0

namespace Sound

variable {board : Board Float}

theorem powerUp {noise : Noise Float} (clock : Clock)
    (unit : ∀ index, IsSample (noise.sample index)) : Sound (.powerUp .standard noise clock) := by
  obtain ⟨zero, zeroWorth⟩ := literal_worths.1
  constructor
  · rfl
  · rfl
  · rfl
  · exact unit
  · intro id
    cases id <;> rfl
  · intro id
    cases id <;> exact zero
  · intro id
    cases id <;> exact .inl ⟨zero, zeroWorth.ge⟩
  · intro id _
    cases id <;> exact zeroWorth

/-- The effective target is never zero. -/
theorem effectiveTarget (sound : Sound board) (id : HeaterId) :
    IsFinite ((board.heater id).effectiveTarget board.room) ∧
        0 < worth ((board.heater id).effectiveTarget board.room) ∨
      Endless ((board.heater id).effectiveTarget board.room) := by
  obtain ⟨zero, zeroWorth⟩ := literal_worths.1
  obtain ⟨-, -, -, -, -, ⟨twenty, twentyWorth⟩, -⟩ := literal_worths
  rw [Heater.effectiveTarget, sound.room]
  split
  · refine .inl ⟨twenty, ?_⟩
    rw [twentyWorth]
    norm_num
  · rename_i nonzero
    rcases sound.target id with ⟨finite, nonnegative⟩ | endless
    · refine .inl ⟨finite, lt_of_le_of_ne nonnegative ?_⟩
      intro isZero
      exact nonzero ((beq_iff finite zero).2 (isZero.symm.trans zeroWorth.symm))
    · exact .inr endless

/-- On such a board an update with a finite target is a drift. -/
theorem drift (sound : Sound board) {id : HeaterId} {now : UInt64} {after : Heater Float}
    (advances : Board.Advances board.room board.noise.sample now (board.heater id) after)
    (finite : IsFinite ((board.heater id).effectiveTarget board.room)) :
    Drift (.standard id) ((board.heater id).elapsedSeconds now)
      (worth ((board.heater id).effectiveTarget board.room)) (worth (board.heater id).value)
      after.value := by
  have update := advances.update
  rw [sound.profile id] at update
  rw [sound.room] at update finite ⊢
  exact drift_of_update update sound.unit (elapsed_of_heater _ now) (sound.value id) finite

theorem advanced_finite (sound : Sound board) {id : HeaterId} {now : UInt64} {after : Heater Float}
    (advances : Board.Advances board.room board.noise.sample now (board.heater id) after) :
    IsFinite after.value := by
  rcases sound.effectiveTarget id with ⟨finite, -⟩ | endless
  · exact (sound.drift advances finite).finite
  · have update := advances.update
    rw [sound.profile id] at update
    rw [sound.room] at update endless
    exact finite_of_endless update sound.unit (elapsed_of_heater _ now) (sound.value id) endless

theorem updateHeaters (sound : Sound board) : Sound board.updateHeaters := by
  have advances := board.updateHeaters_advances
  constructor
  · exact sound.room
  · exact sound.interval
  · exact sound.delay
  · rw [Board.updateHeaters_sample]
    exact sound.unit
  · intro id
    obtain ⟨drawn, advanced⟩ := advances id
    rw [advanced]
    exact sound.profile id
  · intro id
    exact sound.advanced_finite (advances id)
  · intro id
    obtain ⟨drawn, advanced⟩ := advances id
    rw [advanced]
    exact sound.target id
  · intro id never
    obtain ⟨drawn, advanced⟩ := advances id
    rw [advanced] at never
    cases never

theorem sleep (sound : Sound board) (milliseconds : UInt64) :
    Sound { board with clock := board.clock.after milliseconds } :=
  { sound with }

theorem tick (sound : Sound board) : Sound board.tick :=
  (sound.sleep board.busyInterval).updateHeaters

theorem aim (sound : Sound board) (id : HeaterId) {target : Float} (unsigned : Unsigned target) :
    Sound ((Step.aim id target).apply board) := by
  refine { sound with profile := ?_, value := ?_, target := ?_, fresh := ?_ } <;>
    (intro other; rw [Step.apply_aim_heater]; split)
  · rename_i same
    rw [same]
    exact sound.profile id
  · exact sound.profile other
  · exact sound.value id
  · exact sound.value other
  · exact unsigned
  · exact sound.target other
  · exact sound.fresh id
  · exact sound.fresh other

/-- Only aiming a heater needs to be looked at. -/
theorem apply (step : Step Float) (aims : ∀ id target, step = .aim id target → Unsigned target) :
    step.Keeps Sound := by
  intro board sound
  cases step with
  | sleep milliseconds => exact sound.sleep milliseconds
  | updateHeaters => exact sound.updateHeaters
  | aim id target => exact sound.aim id (aims id target rfl)
  | checkpoint | send | sendTemperatures => exact sound
  | move | home | setMode => exact { sound with }

theorem planned (line : String) (step : Step Float)
    (member : step ∈ (Plan.ofLine board line).steps) : step.Keeps Sound := by
  apply apply step
  rintro id target rfl
  exact (Plan.aims_of_mem member).2

theorem process (sound : Sound board) {σ : Type} (host : Host σ) (patience : Nat) (line : String)
    (state : σ) : Sound (Board.process host patience line board state).board :=
  Board.process_keeps (fun milliseconds _ => fun sound => sound.sleep milliseconds)
    (fun _ sound => sound.updateHeaters) host patience line state (planned line) sound

end Sound

theorem Board.HeatsTo.sound {board : Board Float} (sound : Sound board) {line : String}
    {id : HeaterId} {target : Float} (heats : Board.HeatsTo line id target) : Sound (board.aim id target) :=
  (sound.sleep board.lineDelay).aim id (Words.value_unsigned heats.carried)

/-- The boards that power-up, lines and pauses lead to. -/
inductive Reachable : Board Float → Prop where
  | powerUp (noise : Noise Float) (clock : Clock) (unit : ∀ index, IsSample (noise.sample index)) :
      Reachable (.powerUp .standard noise clock)
  | line {σ : Type} {board : Board Float} (host : Host σ) (patience : Nat) (line : String)
      (state : σ) (earlier : Reachable board) :
      Reachable (Board.process host patience line board state).board
  | pause {board : Board Float} (milliseconds : UInt64) (earlier : Reachable board) :
      Reachable { board with clock := board.clock.after milliseconds }

theorem Reachable.sound {board : Board Float} (reachable : Reachable board) : Sound board := by
  induction reachable with
  | powerUp noise clock unit => exact .powerUp clock unit
  | line host patience line state _ sound => exact sound.process host patience line state
  | pause milliseconds _ sound => exact sound.sleep milliseconds

end BenchPrinter
