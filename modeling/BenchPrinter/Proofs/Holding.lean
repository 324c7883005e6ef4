import BenchPrinter.Proofs.Edge
import BenchPrinter.Proofs.Returning

/-!
Whether a reached temperature stays reached. The settled regime keeps it through every line and
pause that leaves the target alone, and at an end of the band nothing does.
-/

namespace BenchPrinter

open Double

/-- The boards that later lines and pauses lead to, none of which changes the target of the heater.
A pause does not make the clock wrap. -/
inductive Undisturbed (id : HeaterId) (board : Board Float) : Board Float → Prop where
  | now : Undisturbed id board board
  | line {σ : Type} {later : Board Float} (host : Host σ) (patience : Nat) (line : String)
      (state : σ) (earlier : Undisturbed id board later)
      (same : ((Board.process host patience line later state).board.heater id).target =
        (later.heater id).target) :
      Undisturbed id board (Board.process host patience line later state).board
  | pause {later : Board Float} (milliseconds : UInt64) (earlier : Undisturbed id board later)
      (fits : later.clock.now.toNat + milliseconds.toNat < 2 ^ 64) :
      Undisturbed id board { later with clock := later.clock.after milliseconds }

namespace Board

/-- The temperature is exactly within two degrees of the target. -/
def Near (id : HeaterId) (board : Board Float) : Prop :=
  |worth (board.heater id).value - worth ((board.heater id).effectiveTarget board.room)| ≤ 2

/-- Whenever the temperatures are asked for later, the heater is near its target. -/
def StaysNear (id : HeaterId) (board : Board Float) : Prop :=
  ∀ later, Undisturbed id board later → ∀ report, Reports report →
    ∀ {σ : Type} (host : Host σ) (patience : Nat) (state : σ),
      (process host patience report later state).board.Near id

/-- The clock has a thousand seconds left before it wraps. -/
def Roomy (id : HeaterId) (board : Board Float) : Prop :=
  ∀ last, (board.heater id).lastUpdate = some last →
    max last.toNat board.clock.now.toNat + 1000010 < 2 ^ 64

/-- The settled regime holds the heater at its target. -/
structure Held (id : HeaterId) (goal : Float) (board : Board Float) : Prop extends
    Sound board where
  aims : AimsAt id goal board
  finite : IsFinite ((board.heater id).effectiveTarget board.room)
  aimed : 2 < worth ((board.heater id).effectiveTarget board.room)
  close : |worth (board.heater id).value -
    worth ((board.heater id).effectiveTarget board.room)| ≤ 2
  inner : Inner ((board.heater id).effectiveTarget board.room) (board.heater id).value

theorem updateHeaters_effectiveTarget (board : Board Float) (id : HeaterId) :
    (board.updateHeaters.heater id).effectiveTarget board.updateHeaters.room =
      (board.heater id).effectiveTarget board.room := by
  obtain ⟨drawn, advanced⟩ := board.updateHeaters_advances id
  rw [updateHeaters_room, advanced]
  rfl

end Board

namespace Board.Held

variable {id : HeaterId} {goal : Float} {board : Board Float}

theorem sleep (held : board.Held id goal) (milliseconds : UInt64) :
    Held id goal { board with clock := board.clock.after milliseconds } :=
  ⟨held.toSound.sleep milliseconds, held.aims, held.finite, held.aimed, held.close, held.inner⟩

/-- Whatever time has passed, an update leaves the heater within half a degree of its target. -/
theorem updateHeaters (held : board.Held id goal) : board.updateHeaters.Held id goal := by
  have advances := board.updateHeaters_advances id
  have update := advances.update
  have close := held.close
  have finite := held.finite
  have inner := held.inner
  have aimed := held.aimed
  obtain ⟨low, -⟩ := abs_le.1 close
  have warm : worth (board.heater id).value ≠ 0 := ne_of_gt (by linarith)
  rw [held.profile id] at update
  rw [held.room] at update finite close inner
  obtain ⟨afterFinite, half⟩ := half_degree_of_inner update (held.value id) finite warm
    (close.trans (by norm_num)) held.unit inner
  have same := board.updateHeaters_effectiveTarget id
  rw [← held.room] at half
  constructor
  · exact held.toSound.updateHeaters
  · exact updateHeaters_aimsAt id goal board held.aims
  · rw [same]
    exact held.finite
  · rw [same]
    exact aimed
  · rw [same]
    exact half.trans (by norm_num)
  · rw [same]
    exact inner_of_half_degree afterFinite held.finite half

/-- The other heater may be aimed at will, this one at its own target only. -/
theorem aim (held : board.Held id goal) (other : HeaterId) {target : Float}
    (unsigned : Unsigned target) (same : other = id → target = goal) :
    Held id goal ((Step.aim other target).apply board) := by
  have unchanged : ((Step.aim other target).apply board).heater id = board.heater id := by
    rw [Step.apply_aim_heater]
    split
    · rename_i isOther
      rw [same isOther.symm, ← held.aims, isOther]
    · rfl
  have room : ((Step.aim other target).apply board).room = board.room := rfl
  constructor
  · exact held.toSound.aim other unsigned
  · rw [AimsAt, unchanged]
    exact held.aims
  · rw [unchanged, room]
    exact held.finite
  · rw [unchanged, room]
    exact held.aimed
  · rw [unchanged, room]
    exact held.close
  · rw [unchanged, room]
    exact held.inner

theorem apply (step : Step Float)
    (aims : ∀ other target, step = .aim other target →
      Unsigned target ∧ (other = id → target = goal)) :
    step.Keeps (Held id goal) := by
  intro board held
  cases step with
  | sleep milliseconds => exact held.sleep milliseconds
  | updateHeaters => exact held.updateHeaters
  | aim other target =>
      obtain ⟨unsigned, same⟩ := aims other target rfl
      exact held.aim other unsigned same
  | checkpoint | send | sendTemperatures => exact held
  | move | home | setMode =>
      exact ⟨{ held.toSound with }, held.aims, held.finite, held.aimed, held.close, held.inner⟩

theorem process (held : board.Held id goal) {σ : Type} (host : Host σ) (patience : Nat)
    (line : String) (state : σ)
    (same : AimsAt id goal (Board.process host patience line board state).board) :
    (Board.process host patience line board state).board.Held id goal := by
  have planned : ∀ step ∈ (Plan.ofLine board line).steps, step.Keeps (Held id goal) := by
    intro step member
    apply apply step
    rintro other target rfl
    obtain ⟨steps, unsigned⟩ := Plan.aims_of_mem member
    constructor
    · exact unsigned
    · rintro rfl
      exact (process_aimsAt host patience line board state steps).symm.trans same
  exact process_keeps (fun milliseconds _ held => held.sleep milliseconds)
    (fun _ held => held.updateHeaters) host patience line state planned held

/-- What is held stays held as long as nothing changes the target. -/
theorem undisturbed (held : board.Held id goal) {later : Board Float}
    (run : Undisturbed id board later) : later.Held id goal := by
  induction run with
  | now => exact held
  | line host patience line state _ same earlier =>
      exact earlier.process host patience line state (same.trans earlier.aims)
  | pause milliseconds _ _ earlier => exact earlier.sleep milliseconds

end Board.Held

namespace Board

variable {σ : Type} {board : Board Float} {id : HeaterId}

/-- After a silence of a thousand seconds the temperature reported first is out of the band. -/
theorem far_after_silence (sound : Sound board) (settled : board.isSettled id = true)
    (finite : IsFinite ((board.heater id).effectiveTarget board.room))
    (aimed : 2 < worth ((board.heater id).effectiveTarget board.room))
    (edge : ¬ Inner ((board.heater id).effectiveTarget board.room) (board.heater id).value)
    {last : UInt64} (updated : (board.heater id).lastUpdate = some last) (pause : UInt64)
    (fits : board.clock.now.toNat + pause.toNat + 10 < 2 ^ 64)
    (long : last.toNat + 1000000 ≤ board.clock.now.toNat + pause.toNat + 10)
    {report : String} (reports : Reports report) (host : Host σ) (patience : Nat) (state : σ) :
    ¬ (process host patience report { board with clock := board.clock.after pause }
      state).board.Near id := by
  rw [reports.process]
  generalize asked : ({ { board with clock := board.clock.after pause } with
    clock := (board.clock.after pause).after board.lineDelay } : Board Float) = later
  have time : later.clock.now.toNat = board.clock.now.toNat + pause.toNat + 10 := by
    rw [← asked]
    change (board.clock.now + pause + board.lineDelay).toNat = _
    rw [sound.delay, UInt64.toNat_add, UInt64.toNat_add]
    change ((board.clock.now.toNat + pause.toNat) % 2 ^ 64 + 10) % 2 ^ 64 = _
    omega
  have same : later.heater id = board.heater id ∧ later.room = board.room ∧
      later.noise = board.noise := by
    rw [← asked]
    exact ⟨rfl, rfl, rfl⟩
  have elapsed : (board.heater id).elapsedSeconds later.clock.now =
      Quantity.ofNat (later.clock.now.toNat - last.toNat) / 1000.0 := by
    rw [Heater.elapsedSeconds, updated]
    rfl
  have update := (later.updateHeaters_advances id).update
  have within := (isSettled_iff_within board id).1 settled
  rw [same.1, same.2.1, elapsed, sound.profile id] at update
  rw [Near, updateHeaters_effectiveTarget, same.1, same.2.1, not_le]
  rw [sound.room] at update finite aimed edge within ⊢
  have valueFinite := sound.value id
  have silence : 1000000 ≤ later.clock.now.toNat - last.toNat := by omega
  have short : later.clock.now.toNat - last.toNat < 2 ^ 64 := by omega
  exact far_of_edge update valueFinite finite
    (positive_of_within valueFinite finite aimed within)
    (close_of_within valueFinite finite within) edge (elapsed_of_count short).1
    (thousand_seconds short silence)

theorem inner_of_staysNear (sound : Sound board) (settled : board.isSettled id = true)
    (finite : IsFinite ((board.heater id).effectiveTarget board.room))
    (aimed : 2 < worth ((board.heater id).effectiveTarget board.room)) (roomy : board.Roomy id)
    (stays : board.StaysNear id) :
    Inner ((board.heater id).effectiveTarget board.room) (board.heater id).value := by
  by_contra edge
  have within := (isSettled_iff_within board id).1 settled
  have positive := positive_of_within (sound.value id) finite aimed within
  cases updated : (board.heater id).lastUpdate with
  | none => exact positive.ne' (sound.fresh id updated)
  | some last =>
      have fits := roomy last updated
      obtain ⟨pause, length⟩ : ∃ pause : UInt64, pause.toNat =
          max last.toNat board.clock.now.toNat - board.clock.now.toNat + 1000000 :=
        ⟨.ofNat _, UInt64.toNat_ofNat_of_lt' (by rw [UInt64.size]; omega)⟩
      have far := far_after_silence sound settled finite aimed edge updated pause
        (by omega) (by omega) reports_m105 Host.idle 0 ()
      exact far (stays _ (.pause pause .now (by omega)) "M105" reports_m105 Host.idle 0 ())

theorem staysNear_of_inner (sound : Sound board)
    (finite : IsFinite ((board.heater id).effectiveTarget board.room))
    (aimed : 2 < worth ((board.heater id).effectiveTarget board.room))
    (close : |worth (board.heater id).value -
      worth ((board.heater id).effectiveTarget board.room)| ≤ 4)
    (inner : Inner ((board.heater id).effectiveTarget board.room) (board.heater id).value) :
    board.StaysNear id := by
  have nearer := inner_of_magnitude (sound.value id) finite (close.trans (by norm_num)) inner
  have held : board.Held id (board.heater id).target :=
    ⟨sound, rfl, finite, aimed, nearer.le, inner⟩
  intro later run report reports σ host patience state
  rw [reports.process]
  exact ((held.undisturbed run).sleep later.lineDelay).updateHeaters.close

/-- A temperature that a blocking heat has reached stays reached if the settled regime holds it, and
only then: from an edge of the band a long silence leads out of it. -/
theorem stays_near_unless_on_edge {start : Board Float} (reachable : Reachable start)
    {host : Host σ} {state : σ} {line : String} {target : Float} (heats : HeatsTo line id target)
    {attempt : Attempt Float σ String} {response : String}
    (completes : Completes host line start state attempt)
    (answered : attempt.outcome = .ok response)
    (aimed : 2.0 < (attempt.board.heater id).effectiveTarget attempt.board.room) :
    (Inner ((attempt.board.heater id).effectiveTarget attempt.board.room)
        (attempt.board.heater id).value → attempt.board.StaysNear id) ∧
      (attempt.board.Roomy id → attempt.board.StaysNear id →
        Inner ((attempt.board.heater id).effectiveTarget attempt.board.room)
          (attempt.board.heater id).value) := by
  have settled := heats.settled_of_answer completes answered
  have sound : Sound attempt.board := by
    obtain ⟨-, patience, lasts⟩ := completes
    rw [← lasts patience (Nat.le_refl patience)]
    exact reachable.sound.process host patience line state
  have within := (isSettled_iff_within attempt.board id).1 settled
  obtain ⟨-, -, ⟨two, twoWorth⟩, -⟩ := literal_worths
  rcases sound.effectiveTarget id with ⟨finite, -⟩ | endless
  · rw [lt_iff two finite, twoWorth] at aimed
    constructor
    · exact staysNear_of_inner sound finite aimed
        (close_of_within (sound.value id) finite within)
    · exact inner_of_staysNear sound settled finite aimed
  · exact absurd within.1 ((endless.sub two).not_le (sound.value id))

/-- A heater at zero is brought to the temperature of the room by its first update. -/
theorem updateHeaters_cold (cold : ((board.heater id).value == 0.0) = true) :
    ∃ drawn, (board.updateHeaters.heater id).value =
      board.room + board.noise.sample drawn * 5.0 / 2.0 := by
  have update := (board.updateHeaters_advances id).update
  generalize (board.updateHeaters.heater id).value = after at update ⊢
  cases update with
  | initialized drawn => exact ⟨drawn, rfl⟩
  | heating warm | cooling warm | settled _ warm | approachingFromBelow warm
  | approachingFromAbove warm => exact absurd cold (by simp [warm])

/-- A board without noise whose temperatures have been asked for once. -/
def steadyBoard : Board Float :=
  (process Host.idle 0 "M105" (.powerUp .standard (.cycle [0.0]) ⟨0⟩) ()).board

theorem cycle_single (value : Float) (index : Nat) :
    (Noise.cycle [value]).sample index = value := by
  simp [Noise.cycle, Nat.mod_one]

theorem steadyBoard_reachable : Reachable steadyBoard := by
  apply Reachable.line
  apply Reachable.powerUp
  intro index
  rw [cycle_single]
  constructor <;> decide +kernel

/-- The first update leaves the hotend at the temperature of the room. -/
theorem steadyBoard_hotend : IsFinite (steadyBoard.heater .hotend).value ∧
    worth (steadyBoard.heater .hotend).value = 20 ∧
    (steadyBoard.heater .hotend).lastUpdate = some 10 ∧ steadyBoard.clock.now = 10 := by
  have updated : steadyBoard = (Board.powerUp .standard (.cycle [0.0]) ⟨10⟩).updateHeaters :=
    reports_m105.process Host.idle 0 _ ()
  have isZero : ((0.0 : Float) == 0.0) = true := by decide +kernel
  have room : IsFinite (20.0 + 0.0 * 5.0 / 2.0) ∧ worth (20.0 + 0.0 * 5.0 / 2.0) = 20 := by
    decide +kernel
  obtain ⟨drawn, value⟩ : ∃ drawn, (steadyBoard.heater .hotend).value =
      20.0 + (Noise.cycle [0.0]).sample drawn * 5.0 / 2.0 := by
    rw [updated]
    exact updateHeaters_cold isZero
  rw [cycle_single] at value
  rw [value]
  refine ⟨room.1, room.2, ?_⟩
  rw [updated]
  exact ⟨rfl, rfl⟩

/-- A target near the temperature of the room is reached at once. -/
theorem steadyBoard_settled {target : Float} (finite : IsFinite target)
    (set : (target == (0.0 : Float)) = false) (low : 18 ≤ worth target)
    (high : worth target ≤ 22) : (steadyBoard.aim .hotend target).isSettled .hotend = true := by
  obtain ⟨valueFinite, value, -⟩ := steadyBoard_hotend
  have near : Within target (steadyBoard.heater .hotend).value := by
    apply within_of_near valueFinite finite <;> linarith
  rw [isSettled_iff_within, aim_effectiveTarget _ _ set, aim_heater]
  exact near

theorem steadyBoard_stays_near_twenty :
    ∃ attempt, Completes Host.idle "M109 S20" steadyBoard () attempt ∧
      attempt.outcome = .ok "" ∧ attempt.board.StaysNear .hotend := by
  have heats : HeatsTo "M109 S20" .hotend (Quantity.ofNumeral ⟨false, 20, 0⟩ : Float) :=
    .of_numeral (by decide +kernel) (by decide +kernel) (show Numeral.read? ['2', '0'] = _ by rfl)
  have twenty : IsFinite (Quantity.ofNumeral ⟨false, 20, 0⟩) ∧
      worth (Quantity.ofNumeral ⟨false, 20, 0⟩) = 20 := by
    decide +kernel
  have set : (Quantity.ofNumeral ⟨false, 20, 0⟩ == (0.0 : Float)) = false ∧
      2.0 < (Quantity.ofNumeral ⟨false, 20, 0⟩ : Float) := by
    decide +kernel
  generalize (Quantity.ofNumeral ⟨false, 20, 0⟩ : Float) = target at *
  obtain ⟨valueFinite, value, -⟩ := steadyBoard_hotend
  have aimed := steadyBoard.aim_effectiveTarget .hotend set.1
  have settled := steadyBoard_settled twenty.1 set.1 (by linarith) (by linarith)
  have completes := heats.answered_at_once Host.idle () settled
  refine ⟨_, completes, rfl, ?_⟩
  apply (stays_near_unless_on_edge steadyBoard_reachable heats completes rfl _).1
  · rw [aimed, aim_heater]
    apply inner_of_half_degree valueFinite twenty.1
    rw [value, twenty.2]
    norm_num
  · rw [aimed]
    exact set.2

/-- From the lower edge of the band a silence of a thousand seconds leads out of it. -/
theorem steadyBoard_leaves_twenty_two :
    Reachable steadyBoard ∧ ∃ attempt, Completes Host.idle "M109 S22" steadyBoard () attempt ∧
      attempt.outcome = .ok "" ∧
      2.0 < (attempt.board.heater .hotend).effectiveTarget attempt.board.room ∧
      Undisturbed .hotend attempt.board
        { attempt.board with clock := attempt.board.clock.after 1000000 } ∧
      ¬ (process Host.idle 0 "M105"
          { attempt.board with clock := attempt.board.clock.after 1000000 } ()).board.Near
        .hotend := by
  have heats : HeatsTo "M109 S22" .hotend (Quantity.ofNumeral ⟨false, 22, 0⟩ : Float) :=
    .of_numeral (by decide +kernel) (by decide +kernel) (show Numeral.read? ['2', '2'] = _ by rfl)
  have twentyTwo : IsFinite (Quantity.ofNumeral ⟨false, 22, 0⟩) ∧
      worth (Quantity.ofNumeral ⟨false, 22, 0⟩) = 22 := by
    decide +kernel
  have set : (Quantity.ofNumeral ⟨false, 22, 0⟩ == (0.0 : Float)) = false ∧
      2.0 < (Quantity.ofNumeral ⟨false, 22, 0⟩ : Float) := by
    decide +kernel
  generalize (Quantity.ofNumeral ⟨false, 22, 0⟩ : Float) = target at *
  obtain ⟨valueFinite, value, updated, now⟩ := steadyBoard_hotend
  have aimed := steadyBoard.aim_effectiveTarget .hotend set.1
  have settled := steadyBoard_settled twentyTwo.1 set.1 (by linarith) (by linarith)
  have sound := heats.sound steadyBoard_reachable.sound
  have close : |worth (steadyBoard.heater .hotend).value - worth target| ≤ 10 := by
    rw [value, twentyTwo.2]
    norm_num
  have edge : ¬ Inner target (steadyBoard.heater .hotend).value := by
    intro inner
    have near := inner_of_magnitude valueFinite twentyTwo.1 close inner
    rw [value, twentyTwo.2] at near
    norm_num at near
  have later : (steadyBoard.aim .hotend target).clock.now = 20 := by
    change steadyBoard.clock.now + steadyBoard.lineDelay = 20
    rw [now, steadyBoard_reachable.sound.delay]
    rfl
  refine ⟨steadyBoard_reachable, _, heats.answered_at_once Host.idle () settled, rfl, ?_, ?_, ?_⟩
  · rw [aimed]
    exact set.2
  · apply Undisturbed.pause 1000000 .now
    rw [later]
    decide
  · have fits : (steadyBoard.aim .hotend target).clock.now.toNat + (1000000 : UInt64).toNat + 10 <
        2 ^ 64 := by
      rw [later]
      decide
    have long : (10 : UInt64).toNat + 1000000 ≤
        (steadyBoard.aim .hotend target).clock.now.toNat + (1000000 : UInt64).toNat + 10 := by
      rw [later]
      decide
    apply far_after_silence sound settled _ _ _ _ _ fits long reports_m105
    · rw [aimed]
      exact twentyTwo.1
    · rw [aimed, twentyTwo.2]
      norm_num
    · rw [aimed, aim_heater]
      exact edge
    · rw [aim_heater]
      exact updated

end Board

end BenchPrinter
