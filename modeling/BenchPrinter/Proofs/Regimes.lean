import BenchPrinter.Proofs.Waiting
import Mathlib.Algebra.Order.Ring.Rat
import Mathlib.Tactic.Linarith
import Mathlib.Tactic.NormNum

/-!
The regimes of a heater, read over the rationals. A regime is known by where the temperature stands
to the target, and it says where the temperature goes and whether a sample is drawn for it.
-/

namespace BenchPrinter

namespace Regime

/-- Where the temperature stands in each regime. -/
def Covers (target value : Rat) : Regime → Prop
  | initialized => value = 0
  | heating => value ≠ 0 ∧ value + 5 < target
  | cooling => value ≠ 0 ∧ target < value - 5
  | settled => value ≠ 0 ∧ |value - target| < 2
  | approachingFromBelow => value ≠ 0 ∧ target - 5 ≤ value ∧ value ≤ target - 2
  | approachingFromAbove => value ≠ 0 ∧ target + 2 ≤ value ∧ value ≤ target + 5

/-- Where the temperature goes in each regime. -/
def next (room target elapsed sample : Rat) (profile : HeaterProfile Rat) (value : Rat) :
    Regime → Rat
  | initialized => room + sample * 5 / 2
  | heating => value + profile.heatRate * elapsed
  | cooling => value - profile.coolRate * elapsed
  | settled => target + profile.noise * (sample - 1 / 2)
  | approachingFromBelow => value + profile.heatRate / 3 * elapsed
  | approachingFromAbove => value - profile.coolRate / 3 * elapsed

def draws : Regime → Bool
  | initialized | settled => true
  | heating | cooling | approachingFromBelow | approachingFromAbove => false

/-- No temperature stands in two regimes. -/
theorem Covers.unique {target value : Rat} {first second : Regime}
    (covers : first.Covers target value) (alsoCovers : second.Covers target value) :
    first = second := by
  cases first <;> cases second <;> simp only [Covers, abs_lt] at covers alsoCovers <;> grind

end Regime

namespace Heater

section

variable {α : Type} [Quantity α] (room : α) (now : UInt64) (heater : Heater α) (noise : Noise α)

theorem noise_advance : (heater.advance room now noise).2 =
    if (heater.regime room).draws then noise.draw.2 else noise := by
  rw [advance, step]
  cases heater.regime room <;> rfl

/-- The heater and its noise after an update at each of the times. -/
def advanceAll (times : List UInt64) : Heater α × Noise α :=
  times.foldl (fun state now => state.1.advance room now state.2) (heater, noise)

/-- The regimes in which the heater is updated at these times. -/
def regimes (room : α) : List UInt64 → Heater α → Noise α → List Regime
  | [], _, _ => []
  | now :: later, heater, noise =>
      let (advanced, left) := heater.advance room now noise
      heater.regime room :: regimes room later advanced left

theorem head_regimes {times : List UInt64} {first : Regime}
    (isFirst : first ∈ (heater.regimes room times noise).head?) : first = heater.regime room := by
  cases times with
  | nil => cases isFirst
  | cons now later => exact (Option.some.inj isFirst).symm

end

/-- Read over the rationals the numbers of the model are exact. -/
theorem literals : (0.0 : Rat) = 0 ∧ (0.5 : Rat) = 1 / 2 ∧ (2.0 : Rat) = 2 ∧ (3.0 : Rat) = 3 ∧
    (5.0 : Rat) = 5 ∧ (1000.0 : Rat) = 1000 := by
  norm_num

theorem seconds_eq (count : Nat) : (Quantity.ofNat count / 1000.0 : Rat) = count / 1000 := by
  have whole : (Quantity.ofNat count : Rat) = count := by
    rw [Quantity.ofNat]
    apply Rat.ofScientific_false_def.trans
    rw [Nat.pow_zero, Nat.mul_one]
    rfl
  rw [whole]
  change (count : Rat) / (1000.0 : Rat) = count / 1000
  norm_num

theorem magnitude_eq_abs (value : Rat) : Rat.abs value = |value| := by
  rcases le_total 0 value with nonnegative | nonpositive
  · rw [Rat.abs_of_nonneg nonnegative, abs_of_nonneg nonnegative]
  · rw [Rat.abs_of_nonpos nonpositive, abs_of_nonpos nonpositive]

/-- The seconds from one time to the other. -/
def gap (earlier later : UInt64) : Rat := elapsedBetween earlier later / 1000

variable {room : Rat} {last now : UInt64} {heater : Heater Rat} {noise : Noise Rat}

theorem elapsedSeconds_eq (updated : heater.lastUpdate = some last) :
    heater.elapsedSeconds now = gap last now := by
  rw [elapsedSeconds, updated]
  exact seconds_eq _

theorem regime_covers (room : Rat) (heater : Heater Rat) :
    (heater.regime room).Covers (heater.effectiveTarget room) heater.value := by
  obtain ⟨zero, -, two, -, five, -⟩ := literals
  have cold : (heater.value == (0.0 : Rat)) = true ↔ heater.value = 0 := by rw [beq_iff_eq, zero]
  have distance (value : Rat) : Quantity.magnitude value = |value| := magnitude_eq_abs value
  rw [regime]
  simp only [cold, distance, five, two]
  split_ifs with atZero farBelow farAbove near below
  · exact atZero
  · exact ⟨atZero, farBelow⟩
  · exact ⟨atZero, farAbove⟩
  · exact ⟨atZero, near⟩
  · rw [abs_of_neg (by linarith)] at near
    exact ⟨atZero, by linarith, by linarith⟩
  · rw [abs_of_nonneg (by linarith)] at near
    exact ⟨atZero, by linarith, by linarith⟩

theorem regime_eq {regime : Regime}
    (covers : regime.Covers (heater.effectiveTarget room) heater.value) :
    heater.regime room = regime :=
  (heater.regime_covers room).unique covers

theorem value_advance : (heater.advance room now noise).1.value =
    (heater.regime room).next room (heater.effectiveTarget room) (heater.elapsedSeconds now)
      (noise.sample noise.drawn) heater.profile heater.value := by
  obtain ⟨-, half, two, three, five, -⟩ := literals
  simp only [advance, step]
  cases heater.regime room <;> simp only [Regime.next, Noise.draw, half, two, three, five]

/-- Every update leaves samples between zero and one. -/
theorem unit_advance (room : Rat) (now : UInt64) (heater : Heater Rat)
    (unit : ∀ index, 0 ≤ noise.sample index ∧ noise.sample index < 1) (index : Nat) :
    0 ≤ (heater.advance room now noise).2.sample index ∧
      (heater.advance room now noise).2.sample index < 1 := by
  rw [Board.sample_of_advance]
  exact unit index

end Heater

end BenchPrinter
