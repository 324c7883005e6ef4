import BenchPrinter.Proofs.History
import BenchPrinter.Proofs.Returning
import Mathlib.Data.List.Induction

/-!
The times of the last updates. Both heaters are always updated together, and the time that an update
reckons with is the time that has really passed since the update before it.
-/

namespace BenchPrinter

namespace Step

variable {α : Type}

/-- A stopwatch that every update sets to zero; before the first update it stands still. -/
def watch : Option Nat → Step α → Option Nat
  | _, updateHeaters => some 0
  | since, step => since.map (· + step.duration)

/-- The milliseconds since the last of the updates, when there is one. -/
def sinceUpdate (steps : List (Step α)) : Option Nat := steps.foldl watch none

theorem sinceUpdate_concat (steps : List (Step α)) (step : Step α) :
    sinceUpdate (steps ++ [step]) = watch (sinceUpdate steps) step := by
  simp [sinceUpdate]

end Step

namespace Heater

variable {α : Type} [Quantity α]

/-- An update at this time reckons with the milliseconds since the last update; before the first one
the heater is at zero and no time counts. -/
def Timed (now : UInt64) (heater : Heater α) : Option Nat → Prop
  | some since => ∃ last, heater.lastUpdate = some last ∧ last.toNat + since = now.toNat ∧
      heater.elapsedSeconds now = Quantity.ofNat since / 1000.0
  | none => heater.lastUpdate = none ∧ heater.value = 0.0 ∧ heater.elapsedSeconds now = 0.0

theorem timed_of_last {heater : Heater α} {last now : UInt64} {since : Nat}
    (updated : heater.lastUpdate = some last) (passed : last.toNat + since = now.toNat) :
    heater.Timed now (some since) := by
  refine ⟨last, updated, passed, ?_⟩
  have elapsed : elapsedBetween last now = since := by
    unfold elapsedBetween
    omega
  rw [elapsedSeconds, updated, ← elapsed]

theorem timed_of_never {heater : Heater α} (never : heater.lastUpdate = none)
    (cold : heater.value = 0.0) (now : UInt64) : heater.Timed now none := by
  refine ⟨never, cold, ?_⟩
  rw [elapsedSeconds, never]

/-- Only the time of the last update and a temperature of zero matter. -/
theorem Timed.congr {heater other : Heater α} {now later : UInt64} {since : Option Nat} {passed : Nat}
    (timed : heater.Timed now since) (updated : other.lastUpdate = heater.lastUpdate)
    (value : other.value = heater.value) (reached : now.toNat + passed = later.toNat) :
    other.Timed later (since.map (· + passed)) := by
  cases since with
  | some since =>
      obtain ⟨last, isLast, elapsed, -⟩ := timed
      change other.Timed later (some (since + passed))
      exact timed_of_last (updated.trans isLast) (by omega)
  | none =>
      obtain ⟨never, cold, -⟩ := timed
      exact timed_of_never (updated.trans never) (value.trans cold) later

end Heater

namespace Board

variable {α : Type} [Quantity α]

theorem clock_apply (step : Step α) (board : Board α)
    (fits : board.clock.now.toNat + step.duration < UInt64.size) :
    (step.apply board).clock.now.toNat = board.clock.now.toNat + step.duration := by
  cases step with
  | sleep milliseconds =>
      change (board.clock.now + milliseconds).toNat = board.clock.now.toNat + milliseconds.toNat
      rw [UInt64.toNat_add]
      exact Nat.mod_eq_of_lt fits
  | _ => rfl

/-- Until it wraps the clock shows the time that has passed. -/
theorem clock_afterSteps (steps : List (Step α)) (board : Board α)
    (fits : board.clock.now.toNat + Step.total steps < UInt64.size) :
    (board.afterSteps steps).clock.now.toNat = board.clock.now.toNat + Step.total steps := by
  induction steps generalizing board with
  | nil => rfl
  | cons step rest inductionHypothesis =>
      rw [Step.total_cons] at fits ⊢
      have first := clock_apply step board (by omega)
      rw [afterSteps_cons, inductionHypothesis _ (by omega), first]
      omega

/-- Only an update changes a temperature or the time of an update. -/
theorem keeps_stamp {step : Step α} (still : step ≠ .updateHeaters) (board : Board α)
    (id : HeaterId) :
    ((step.apply board).heater id).lastUpdate = (board.heater id).lastUpdate ∧
      ((step.apply board).heater id).value = (board.heater id).value := by
  cases step with
  | updateHeaters => exact absurd rfl still
  | aim other target =>
      rw [Step.apply_aim_heater]
      split
      · rename_i same
        rw [same]
        exact ⟨rfl, rfl⟩
      · exact ⟨rfl, rfl⟩
  | _ => exact ⟨rfl, rfl⟩

theorem updateHeaters_lastUpdate (board : Board α) (id : HeaterId) :
    (board.updateHeaters.heater id).lastUpdate = some board.clock.now := by
  obtain ⟨drawn, advanced⟩ := board.updateHeaters_advances id
  rw [advanced]
  rfl

theorem timed_apply {step : Step α} {board : Board α} {since : Option Nat} {id : HeaterId}
    (timed : (board.heater id).Timed board.clock.now since)
    (fits : board.clock.now.toNat + step.duration < UInt64.size) :
    ((step.apply board).heater id).Timed (step.apply board).clock.now (Step.watch since step) := by
  by_cases update : step = .updateHeaters
  · subst update
    exact Heater.timed_of_last (board.updateHeaters_lastUpdate id) rfl
  · obtain ⟨updated, value⟩ := keeps_stamp update board id
    have watched : Step.watch since step = since.map (· + step.duration) := by
      cases step with
      | updateHeaters => exact absurd rfl update
      | _ => rfl
    rw [watched]
    exact timed.congr updated value (clock_apply step board fits).symm

/-- At every moment since power-up both heaters keep the time since the last update. -/
theorem timed_afterSteps (settings : BoardSettings α) (noise : Noise α) (clock : Clock)
    (steps : List (Step α)) (fits : clock.now.toNat + Step.total steps < UInt64.size) (id : HeaterId) :
    (((powerUp settings noise clock).afterSteps steps).heater id).Timed
      ((powerUp settings noise clock).afterSteps steps).clock.now (Step.sinceUpdate steps) := by
  induction steps using List.reverseRecOn with
  | nil => cases id <;> exact Heater.timed_of_never rfl rfl _
  | append_singleton earlier step inductionHypothesis =>
      rw [Step.total_append, Step.total_cons, Step.total_nil] at fits
      have reached := clock_afterSteps earlier (powerUp settings noise clock) (by
        change clock.now.toNat + _ < _
        omega)
      change _ = clock.now.toNat + _ at reached
      rw [afterSteps_append, Step.sinceUpdate_concat]
      exact timed_apply (inductionHypothesis (by omega)) (by omega)

/-- Both heaters were last updated at one time, which is not to come, or they were never updated and
are at zero. -/
structure Coherent (board : Board α) : Prop where
  together : (board.heater .hotend).lastUpdate = (board.heater .bed).lastUpdate
  past : ∀ id last, (board.heater id).lastUpdate = some last → last ≤ board.clock.now
  fresh : ∀ id, (board.heater id).lastUpdate = none → (board.heater id).value = 0.0

theorem coherent_of_timed {board : Board α} {since : Option Nat}
    (timed : ∀ id, (board.heater id).Timed board.clock.now since) : board.Coherent := by
  cases since with
  | some since =>
      have stamped (id : HeaterId) : ∃ last, (board.heater id).lastUpdate = some last ∧
          last.toNat + since = board.clock.now.toNat := by
        obtain ⟨last, updated, passed, -⟩ := timed id
        exact ⟨last, updated, passed⟩
      constructor
      · obtain ⟨first, updated, passed⟩ := stamped .hotend
        obtain ⟨second, updatedToo, passedToo⟩ := stamped .bed
        have same : first = second := UInt64.toNat_inj.1 (by omega)
        rw [updated, updatedToo, same]
      · intro id last updated
        obtain ⟨other, isOther, passed⟩ := stamped id
        obtain rfl : other = last := Option.some.inj (isOther.symm.trans updated)
        rw [UInt64.le_iff_toNat_le]
        omega
      · intro id never
        obtain ⟨last, updated, -⟩ := stamped id
        rw [updated] at never
        cases never
  | none =>
      constructor
      · rw [(timed .hotend).1, (timed .bed).1]
      · intro id last updated
        rw [(timed id).1] at updated
        cases updated
      · exact fun id _ => (timed id).2.1

/-- As long as the clock does not wrap, the heaters are coherent at every moment of a board's life,
and each update reckons with the time that has passed since the update before it. -/
theorem timestamps_are_coherent {settings : BoardSettings α} {noise : Noise α} {clock : Clock}
    {past : List (Step α)} {board : Board α} (life : Life (powerUp settings noise clock) past board)
    (fits : clock.now.toNat + Step.total past < UInt64.size) :
    let moment := (powerUp settings noise clock).afterSteps
    board = moment past ∧
      (∀ earlier later, past = earlier ++ later → (moment earlier).Coherent) ∧
      ∀ earlier later, past = earlier ++ .updateHeaters :: later → ∀ id,
        ((moment earlier).heater id).Timed (moment earlier).clock.now
          (Step.sinceUpdate earlier) := by
  intro moment
  have timed {earlier later : List (Step α)} (split : past = earlier ++ later) (id : HeaterId) :
      ((moment earlier).heater id).Timed (moment earlier).clock.now (Step.sinceUpdate earlier) := by
    rw [split, Step.total_append] at fits
    exact timed_afterSteps settings noise clock earlier (by omega) id
  exact ⟨life.afterSteps, fun _ _ split => coherent_of_timed (timed split),
    fun _ _ split => timed split⟩

theorem Reports.deeds {σ : Type} {line : String} (reports : Reports line) (host : Host σ)
    (patience : Nat) (board : Board α) (state : σ) :
    deeds host patience line board state = [.sleep board.lineDelay, .updateHeaters] := by
  rw [Board.deeds, agenda, reports.plan board]
  rfl

/-- Five seconds pass between two requests, and the line delay comes on top. -/
theorem second_report_is_timed :
    let start : Board Float := .powerUp .standard (.cycle [0.0]) ⟨0⟩
    let earlier := [.sleep 10, .updateHeaters, .sleep 5000, .sleep 10]
    (0 : UInt64).toNat + Step.total (earlier ++ [.updateHeaters]) < UInt64.size ∧
      ∃ board, Life start (earlier ++ [.updateHeaters]) board ∧ board.Coherent ∧
        ∀ id, ((start.afterSteps earlier).heater id).Timed
          (start.afterSteps earlier).clock.now (some 5010) := by
  intro start earlier
  have fits : (0 : UInt64).toNat + Step.total (earlier ++ [.updateHeaters]) < UInt64.size := by decide
  have first := Life.line Host.idle 0 "M105" () (Life.start : Life start [] start)
  have second := Life.line Host.idle 0 "M105" () (first.pause 5000)
  rw [reports_m105.deeds, reports_m105.deeds] at second
  obtain ⟨board, life⟩ : ∃ board, Life start (earlier ++ [.updateHeaters]) board := ⟨_, second⟩
  obtain ⟨reached, coherent, timed⟩ := timestamps_are_coherent life fits
  refine ⟨fits, board, life, ?_, timed earlier [] rfl⟩
  rw [reached]
  exact coherent (earlier ++ [.updateHeaters]) [] (List.append_nil _).symm

end Board

end BenchPrinter
