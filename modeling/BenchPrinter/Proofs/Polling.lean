import BenchPrinter.Proofs.Regimes
import Mathlib.Tactic.Ring

/-!
A heater far from its target, read over the rationals. While it runs at its full rate it does not
matter how often it is updated: many updates do what a single one at the last of their times does.
-/

namespace BenchPrinter

/-- A heater runs at its full rate up or down. -/
inductive Ramp where
  | up
  | down
deriving DecidableEq

namespace Ramp

def regime : Ramp → Regime
  | up => .heating
  | down => .cooling

def rate (profile : HeaterProfile Rat) : Ramp → Rat
  | up => profile.heatRate
  | down => profile.coolRate

/-- Where the ramp leads from a temperature in some seconds. -/
def course (profile : HeaterProfile Rat) (value seconds : Rat) : Ramp → Rat
  | up => value + profile.heatRate * seconds
  | down => value - profile.coolRate * seconds

/-- More than five degrees before the target. -/
def Zone (target value : Rat) : Ramp → Prop
  | up => value + 5 < target
  | down => target < value - 5

instance (target value : Rat) (ramp : Ramp) : Decidable (ramp.Zone target value) :=
  match ramp with
  | up => inferInstanceAs (Decidable (value + 5 < target))
  | down => inferInstanceAs (Decidable (target < value - 5))

variable {ramp : Ramp} {profile : HeaterProfile Rat} {target value seconds : Rat}

/-- What the ramp does in two parts of the time it does in the whole of it. -/
theorem course_course (ramp : Ramp) (profile : HeaterProfile Rat) (value first second : Rat) :
    ramp.course profile (ramp.course profile value first) second =
      ramp.course profile value (first + second) := by
  cases ramp <;> simp only [course] <;> ring

/-- A ramp that ends in its zone is in it from the beginning. -/
theorem Zone.earlier (zone : ramp.Zone target (ramp.course profile value seconds))
    (onward : 0 ≤ ramp.rate profile) (passed : 0 ≤ seconds) : ramp.Zone target value := by
  cases ramp with
  | up =>
      have climbed : 0 ≤ profile.heatRate * seconds := mul_nonneg onward passed
      simp only [Zone, course] at zone ⊢
      linarith
  | down =>
      have fallen : 0 ≤ profile.coolRate * seconds := mul_nonneg onward passed
      simp only [Zone, course] at zone ⊢
      linarith

/-- A ramp goes on from a positive temperature, upwards or with a target below it that is not
negative, so that it never meets the temperature of a heater without an update. -/
theorem Zone.warm (zone : ramp.Zone target (ramp.course profile value seconds))
    (warm : 0 < value) (aimed : 0 ≤ target) (onward : 0 ≤ ramp.rate profile)
    (passed : 0 ≤ seconds) : 0 < ramp.course profile value seconds := by
  cases ramp with
  | up =>
      have climbed : 0 ≤ profile.heatRate * seconds := mul_nonneg onward passed
      simp only [course]
      linarith
  | down =>
      simp only [Zone] at zone
      linarith

theorem Zone.covers (zone : ramp.Zone target value) (warm : 0 < value) :
    ramp.regime.Covers target value := by
  cases ramp <;> exact ⟨warm.ne', zone⟩

end Ramp

namespace Heater

theorem gap_nonneg (earlier later : UInt64) : 0 ≤ gap earlier later :=
  div_nonneg (Nat.cast_nonneg _) (by norm_num)

theorem gap_add {first second third : UInt64} (before : first ≤ second) (after : second ≤ third) :
    gap first second + gap second third = gap first third := by
  have whole : elapsedBetween first second + elapsedBetween second third =
      elapsedBetween first third := by
    have before := UInt64.le_iff_toNat_le.1 before
    have after := UInt64.le_iff_toNat_le.1 after
    simp only [elapsedBetween]
    omega
  rw [gap, gap, gap, ← whole, Nat.cast_add]
  ring

/-- A warm heater that was last updated at the given time and has a ramp that never turns back. -/
structure Ramping (ramp : Ramp) (room : Rat) (last : UInt64) (heater : Heater Rat) : Prop where
  warm : 0 < heater.value
  updated : heater.lastUpdate = some last
  aimed : 0 ≤ heater.effectiveTarget room
  onward : 0 ≤ ramp.rate heater.profile

/-- The heater at a later time, had it run at its full rate all the while. -/
def ramped (ramp : Ramp) (last now : UInt64) (heater : Heater Rat) : Heater Rat :=
  { heater with
    value := ramp.course heater.profile heater.value (gap last now)
    lastUpdate := some now }

theorem ramped_ramped (ramp : Ramp) {last now final : UInt64} (heater : Heater Rat)
    (before : last ≤ now) (after : now ≤ final) :
    (heater.ramped ramp last now).ramped ramp now final = heater.ramped ramp last final := by
  simp only [ramped, ramp.course_course, gap_add before after]

namespace Ramping

variable {ramp : Ramp} {room : Rat} {last now : UInt64} {heater : Heater Rat}

theorem regime_eq (ramping : heater.Ramping ramp room last)
    (zone : ramp.Zone (heater.effectiveTarget room) heater.value) :
    heater.regime room = ramp.regime :=
  Heater.regime_eq (zone.covers ramping.warm)

/-- An update in the zone is a piece of the ramp and draws nothing. -/
theorem advance_eq (ramping : heater.Ramping ramp room last) (noise : Noise Rat) (now : UInt64)
    (zone : ramp.Zone (heater.effectiveTarget room) heater.value) :
    heater.advance room now noise = (heater.ramped ramp last now, noise) := by
  have regime := ramping.regime_eq zone
  have value : (heater.advance room now noise).1.value =
      ramp.course heater.profile heater.value (gap last now) := by
    rw [value_advance, regime, elapsedSeconds_eq ramping.updated]
    cases ramp <;> rfl
  have left : (heater.advance room now noise).2 = noise := by
    rw [noise_advance, regime]
    cases ramp <;> rfl
  apply Prod.ext
  · rw [ramped, ← value]
    rfl
  · exact left

/-- A heater that is in the zone after some time ramps on from there. -/
theorem ramped (ramping : heater.Ramping ramp room last)
    (zone : ramp.Zone (heater.effectiveTarget room) (heater.ramped ramp last now).value) :
    (heater.ramped ramp last now).Ramping ramp room now where
  warm := zone.warm ramping.warm ramping.aimed ramping.onward (gap_nonneg last now)
  updated := rfl
  aimed := ramping.aimed
  onward := ramping.onward

/-- While the update before the last one is in the zone, all updates together are one ramp. -/
theorem polls_eq {polls : List UInt64} {final : UInt64} (ramping : heater.Ramping ramp room last)
    (noise : Noise Rat) (ordered : (last :: (polls ++ [final])).Pairwise (· ≤ ·))
    (zone : ramp.Zone (heater.effectiveTarget room)
      (heater.ramped ramp last (polls.getLastD last)).value) :
    heater.advanceAll room noise (polls ++ [final]) = (heater.ramped ramp last final, noise) ∧
      heater.regimes room (polls ++ [final]) noise =
        List.replicate (polls ++ [final]).length ramp.regime := by
  -- each update moves the beginning of the ramp; the zone holds from there because it holds later
  induction polls generalizing heater last with
  | nil =>
      have here := zone.earlier ramping.onward (gap_nonneg _ _)
      constructor
      · exact ramping.advance_eq noise final here
      · simp [regimes, ramping.regime_eq here]
  | cons now polls inductionHypothesis =>
      obtain ⟨sooner, later⟩ := List.pairwise_cons.1 ordered
      have before : last ≤ now := sooner now (by simp)
      have after : now ≤ final := (List.pairwise_cons.1 later).1 final (by simp)
      have between : now ≤ polls.getLastD now := by
        rcases List.mem_cons.1 (List.getLastD_mem_cons : polls.getLastD now ∈ now :: polls)
          with same | isLater
        · rw [same]
          exact UInt64.le_refl now
        · exact (List.pairwise_cons.1 later).1 _ (List.mem_append_left _ isLater)
      rw [List.getLastD_cons, ← ramped_ramped ramp heater before between] at zone
      have there : ramp.Zone (heater.effectiveTarget room) (heater.ramped ramp last now).value :=
        zone.earlier ramping.onward (gap_nonneg _ _)
      have here := there.earlier ramping.onward (gap_nonneg _ _)
      obtain ⟨run, regimes⟩ := inductionHypothesis (ramping.ramped there) later zone
      have step := ramping.advance_eq noise now here
      constructor
      · rw [List.cons_append, advanceAll, List.foldl_cons, step]
        rw [ramped_ramped ramp heater before after] at run
        exact run
      · simp only [List.cons_append, Heater.regimes, step, regimes, ramping.regime_eq here,
          List.length_cons, List.replicate_succ]

end Ramping

/-- A heater that runs at its full rate up to the update before the last comes to the same state
however often it is updated: each update finds the same regime, none draws a sample, and all of them
do what a single update at the last time does. -/
theorem polling_keeps_full_ramp (ramp : Ramp) {room : Rat} {last final : UInt64}
    {heater : Heater Rat} {polls : List UInt64} (noise : Noise Rat)
    (ramping : heater.Ramping ramp room last)
    (ordered : (last :: (polls ++ [final])).Pairwise (· ≤ ·))
    (zone : ramp.Zone (heater.effectiveTarget room)
      (ramp.course heater.profile heater.value (gap last (polls.getLastD last)))) :
    let times := polls ++ [final]
    let run := heater.advanceAll room noise times
    run.1.value = ramp.course heater.profile heater.value (gap last final) ∧
      heater.regimes room times noise = List.replicate times.length ramp.regime ∧
      run.2 = noise ∧
      run = heater.advance room final noise := by
  obtain ⟨run, regimes⟩ := ramping.polls_eq noise ordered zone
  have once := ramping.advance_eq noise final
    (zone.earlier ramping.onward (gap_nonneg _ _))
  refine ⟨?_, regimes, ?_, run.trans once.symm⟩
  · rw [run]
    rfl
  · rw [run]

/-- A hotend that is forty degrees below its target. -/
def distant : Heater Rat := ⟨20, 60, some 0, .standard .hotend⟩

/-- The last update takes the temperature beyond the target. -/
theorem distant_polled :
    let times : List UInt64 := [1000, 1000, 25000] ++ [100000]
    let run := distant.advanceAll 20 (.cycle []) times
    run.1.value = Ramp.up.course distant.profile distant.value (gap 0 100000) ∧
      distant.regimes 20 times (.cycle []) = List.replicate times.length Ramp.up.regime ∧
      run.2 = .cycle [] ∧
      run = distant.advance 20 100000 (.cycle []) := by
  exact polling_keeps_full_ramp .up (.cycle [])
    ⟨by decide +kernel, rfl, by decide +kernel, by decide +kernel⟩ (by decide +kernel)
    (by decide +kernel)

end Heater

end BenchPrinter
