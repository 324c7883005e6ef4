import BenchPrinter.Printer.Heater
import BenchPrinter.Thermal.Noise

/-!
The heater model. A heater far from its target runs at its full rate, near the target at a third of
it, and within two degrees it sits at the target plus noise. The regime is chosen from the
temperature before the step.
-/

namespace BenchPrinter

inductive Regime where
  | initialized
  | heating
  | cooling
  | settled
  | approachingFromBelow
  | approachingFromAbove
deriving DecidableEq

/-- The time between two readings of the clock in milliseconds; it is never negative. -/
def elapsedBetween (earlier later : UInt64) : Nat :=
  later.toNat - earlier.toNat

namespace Heater

variable {α : Type} [Quantity α]

/-- A target of zero means the temperature of the room. -/
def effectiveTarget (room : α) (heater : Heater α) : α :=
  if heater.target == 0.0 then room else heater.target

/-- A heater is settled within two degrees of its target, both ends included. -/
def isSettled (room : α) (heater : Heater α) : Bool :=
  let target := heater.effectiveTarget room
  decide (target - 2.0 ≤ heater.value) && decide (heater.value ≤ target + 2.0)

/-- Without an earlier update no time has passed. -/
def elapsedSeconds (now : UInt64) (heater : Heater α) : α :=
  match heater.lastUpdate with
  | some last => Quantity.ofNat (elapsedBetween last now) / 1000.0
  | none => 0.0

/-- The first regime that applies wins. -/
def regime (room : α) (heater : Heater α) : Regime :=
  let target := heater.effectiveTarget room
  if heater.value == 0.0 then .initialized
  else if heater.value + 5.0 < target then .heating
  else if target < heater.value - 5.0 then .cooling
  else if Quantity.magnitude (heater.value - target) < 2.0 then .settled
  else if heater.value < target then .approachingFromBelow
  else .approachingFromAbove

/-- Two regimes draw a sample; the others move the temperature by a rate times the elapsed time. -/
def step (room : α) (now : UInt64) (heater : Heater α) (noise : Noise α) : α × Noise α :=
  let target := heater.effectiveTarget room
  let elapsed := heater.elapsedSeconds now
  match heater.regime room with
  | .initialized => (room + noise.draw.1 * 5.0 / 2.0, noise.draw.2)
  | .heating => (heater.value + heater.profile.heatRate * elapsed, noise)
  | .cooling => (heater.value - heater.profile.coolRate * elapsed, noise)
  | .settled => (target + heater.profile.noise * (noise.draw.1 - 0.5), noise.draw.2)
  | .approachingFromBelow => (heater.value + heater.profile.heatRate / 3.0 * elapsed, noise)
  | .approachingFromAbove => (heater.value - heater.profile.coolRate / 3.0 * elapsed, noise)

/-- The update stamps the heater with the time also when its temperature stays. -/
def advance (room : α) (now : UInt64) (heater : Heater α) (noise : Noise α) :
    Heater α × Noise α :=
  let stepped := heater.step room now noise
  ({ heater with value := stepped.1, lastUpdate := some now }, stepped.2)

end Heater

/-- The hotend draws its noise before the bed. -/
def Heaters.advance {α : Type} [Quantity α] (room : α) (now : UInt64) (heaters : Heaters α)
    (noise : Noise α) : Heaters α × Noise α :=
  let (hotend, noise) := heaters.hotend.advance room now noise
  let (bed, noise) := heaters.bed.advance room now noise
  (⟨hotend, bed⟩, noise)

end BenchPrinter
