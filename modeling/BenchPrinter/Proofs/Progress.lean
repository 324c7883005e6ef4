import BenchPrinter.Proofs.Motion
import Mathlib.Data.List.Chain

/-!
How a heater comes to its target and stays there, with exact numbers. Updates that are not too far
apart lead it through the regimes one way, and nearer with each update. Once it is settled it stays
settled, however far apart the updates are.
-/

namespace BenchPrinter

namespace Regime

/-- Where an update takes the temperature. A heater that is not settled comes nearer from its own
side, and less than two degrees beyond the target at most. -/
def Reaches (target value after : Rat) : Regime → Prop
  | initialized => False
  | heating => value + 5 < target ∧ value < after ∧ after < target + 2
  | cooling => target < value - 5 ∧ target - 2 < after ∧ after < value
  | settled => |after - target| < 2
  | approachingFromBelow =>
      (target - 5 ≤ value ∧ value ≤ target - 2) ∧ value < after ∧ after < target + 2
  | approachingFromAbove =>
      (target + 2 ≤ value ∧ value ≤ target + 5) ∧ target - 2 < after ∧ after < value

/-- Which regime may come after which. -/
def Leads : Regime → Regime → Prop
  | initialized, _ => False
  | heating, later => later = heating ∨ later = approachingFromBelow ∨ later = settled
  | cooling, later => later = cooling ∨ later = approachingFromAbove ∨ later = settled
  | settled, later => later = settled
  | approachingFromBelow, later => later = approachingFromBelow ∨ later = settled
  | approachingFromAbove, later => later = approachingFromAbove ∨ later = settled

variable {regime later : Regime} {target value after : Rat}

theorem Reaches.warm (reaches : regime.Reaches target value after) (warm : 0 < value)
    (aimed : 2 < target) : 0 < after := by
  cases regime with
  | initialized => exact reaches.elim
  | settled =>
      have := (abs_lt.1 reaches).1
      linarith
  | heating | cooling => linarith [reaches.2.1]
  | approachingFromBelow | approachingFromAbove => linarith [reaches.2.1]

theorem Reaches.nearer (reaches : regime.Reaches target value after)
    (unsettled : regime ≠ settled) : |after - target| < |value - target| := by
  have fromBelow (below : value ≤ target - 2) (rises : value < after) (inside : after < target + 2) :
      |after - target| < |value - target| := by
    rw [abs_of_neg (show value - target < 0 by linarith), abs_lt]
    constructor <;> linarith
  have fromAbove (above : target + 2 ≤ value) (inside : target - 2 < after) (falls : after < value) :
      |after - target| < |value - target| := by
    rw [abs_of_pos (show 0 < value - target by linarith), abs_lt]
    constructor <;> linarith
  cases regime with
  | initialized => exact reaches.elim
  | settled => exact absurd rfl unsettled
  | heating => exact fromBelow (by linarith [reaches.1]) reaches.2.1 reaches.2.2
  | cooling => exact fromAbove (by linarith [reaches.1]) reaches.2.1 reaches.2.2
  | approachingFromBelow => exact fromBelow reaches.1.2 reaches.2.1 reaches.2.2
  | approachingFromAbove => exact fromAbove reaches.1.1 reaches.2.1 reaches.2.2

theorem Reaches.leads (reaches : regime.Reaches target value after) (warm : 0 < after)
    (covers : later.Covers target after) : regime.Leads later := by
  cases regime <;> cases later <;> simp only [Reaches, Covers, Leads, abs_lt] at * <;> grind

theorem Covers.below (covers : regime.Covers target value) (warm : 0 < value)
    (below : value < target) : heating.Leads regime := by
  cases regime <;> simp only [Covers, Leads] at * <;> grind

theorem Covers.above (covers : regime.Covers target value) (warm : 0 < value)
    (above : target ≤ value) : cooling.Leads regime := by
  cases regime <;> simp only [Covers, Leads] at * <;> grind

/-- Regimes that begin before or in a stage pass through it once, and the others follow. -/
theorem passes_stage (stage : Regime) (others : Regime → Prop)
    (onward : ∀ later, stage.Leads later → later = stage ∨ others later) {regimes : List Regime}
    (chain : regimes.IsChain Leads)
    (begins : ∀ regime ∈ regimes.head?, regime = stage ∨ others regime) :
    ∃ count rest, regimes = List.replicate count stage ++ rest ∧ rest.IsChain Leads ∧
      ∀ regime ∈ rest.head?, others regime := by
  -- while the run is in the stage, the chain says that it begins there or later again
  induction regimes with
  | nil => exact ⟨0, [], rfl, .nil, nofun⟩
  | cons regime regimes inductionHypothesis =>
      rcases begins regime rfl with rfl | other
      · obtain ⟨leads, chained⟩ := List.isChain_cons.1 chain
        obtain ⟨count, rest, rfl, chained, follows⟩ := inductionHypothesis chained
          fun later isNext => onward later (leads later isNext)
        exact ⟨count + 1, rest, rfl, chained, follows⟩
      · refine ⟨0, regime :: regimes, rfl, chain, ?_⟩
        rintro first ⟨⟩
        exact other

/-- Far, near and there: a stage each, every one of them possibly empty. -/
theorem passes_stages (far near : Regime)
    (fromFar : ∀ later, far.Leads later → later = far ∨ later = near ∨ later = settled)
    (fromNear : ∀ later, near.Leads later → later = near ∨ later = settled)
    {regimes : List Regime} (chain : regimes.IsChain Leads)
    (begins : ∀ regime ∈ regimes.head?, regime = far ∨ regime = near ∨ regime = settled) :
    ∃ first second third, regimes = List.replicate first far ++
      (List.replicate second near ++ List.replicate third settled) := by
  obtain ⟨first, nearer, rfl, chain, begins⟩ := passes_stage far _ fromFar chain begins
  obtain ⟨second, last, rfl, chain, begins⟩ := passes_stage near _ fromNear chain begins
  obtain ⟨third, rest, rfl, -, ends⟩ := passes_stage settled (fun _ => False)
    (fun later leads => .inl leads) chain fun regime isFirst => .inl (begins regime isFirst)
  cases rest with
  | nil => exact ⟨first, second, third, by rw [List.append_nil]⟩
  | cons regime rest => exact (ends regime rfl).elim

end Regime

namespace Heater

instance (profile : HeaterProfile Rat) (interval : Rat) : Decidable (profile.Tame interval) :=
  decidable_of_iff
    ((0 < profile.heatRate * interval ∧ profile.heatRate * interval ≤ 7) ∧
      (0 < profile.coolRate * interval ∧ profile.coolRate * interval ≤ 7) ∧
      0 ≤ profile.noise ∧ profile.noise ≤ 4)
    ⟨fun ⟨⟨heats, heatsSlowly⟩, ⟨cools, coolsSlowly⟩, noisy, quiet⟩ =>
      ⟨heats, heatsSlowly, cools, coolsSlowly, noisy, quiet⟩,
    fun ⟨heats, heatsSlowly, cools, coolsSlowly, noisy, quiet⟩ =>
      ⟨⟨heats, heatsSlowly⟩, ⟨cools, coolsSlowly⟩, noisy, quiet⟩⟩

/-- A heater that was last updated at the given time and has an initialized temperature and a target
that its noise does not lead away from. -/
structure Travelling (room : Rat) (last : UInt64) (heater : Heater Rat) : Prop where
  warm : 0 < heater.value
  updated : heater.lastUpdate = some last
  aimed : 2 < heater.effectiveTarget room
  quiet : heater.profile.noise < 4

namespace Travelling

variable {room : Rat} {last now : UInt64} {heater : Heater Rat} {noise : Noise Rat}

theorem reaches (travelling : heater.Travelling room last)
    (tame : heater.profile.Tame (gap last now))
    (unit : ∀ index, 0 ≤ noise.sample index ∧ noise.sample index < 1) :
    (heater.regime room).Reaches (heater.effectiveTarget room) heater.value
      (heater.advance room now noise).1.value := by
  have covers := heater.regime_covers room
  obtain ⟨heats, heatsSlowly, cools, coolsSlowly, noisy, -⟩ := tame
  rw [value_advance, elapsedSeconds_eq travelling.updated]
  cases regime : heater.regime room <;>
    simp only [regime, Regime.Covers, Regime.Reaches, Regime.next, div_mul_eq_mul_div] at covers ⊢
  case initialized => exact travelling.warm.ne' covers
  case settled =>
    obtain ⟨low, high⟩ := unit noise.drawn
    have jitter := Motion.jitter_le (heater.effectiveTarget room) noisy low high
    linarith [travelling.quiet]
  case heating | cooling => exact ⟨covers.2, by constructor <;> linarith⟩
  case approachingFromBelow | approachingFromAbove =>
    exact ⟨covers.2, by constructor <;> linarith⟩

theorem advance (travelling : heater.Travelling room last)
    (tame : heater.profile.Tame (gap last now))
    (unit : ∀ index, 0 ≤ noise.sample index ∧ noise.sample index < 1) :
    (heater.advance room now noise).1.Travelling room now where
  warm := (travelling.reaches tame unit).warm travelling.warm travelling.aimed
  updated := rfl
  aimed := travelling.aimed
  quiet := travelling.quiet

/-- One update leads from a regime to one that may come after it. -/
theorem leads (travelling : heater.Travelling room last)
    (tame : heater.profile.Tame (gap last now))
    (unit : ∀ index, 0 ≤ noise.sample index ∧ noise.sample index < 1) :
    (heater.regime room).Leads ((heater.advance room now noise).1.regime room) := by
  apply (travelling.reaches tame unit).leads (travelling.advance tame unit).warm
  exact regime_covers room (heater.advance room now noise).1

/-- So a whole run goes from one regime to those that may come after it. -/
theorem isChain_regimes {times : List UInt64} (travelling : heater.Travelling room last)
    (unit : ∀ index, 0 ≤ noise.sample index ∧ noise.sample index < 1)
    (tame : (last :: times).IsChain fun earlier later => heater.profile.Tame (gap earlier later)) :
    (heater.regimes room times noise).IsChain Regime.Leads := by
  induction times generalizing last heater noise with
  | nil => exact .nil
  | cons now times inductionHypothesis =>
      obtain ⟨short, tame⟩ := List.isChain_cons_cons.1 tame
      have chain := inductionHypothesis (travelling.advance short unit)
        (heater.unit_advance room now unit) tame
      cases times with
      | nil => exact .singleton _
      | cons next times => exact .cons_cons (travelling.leads short unit) chain

/-- After a part of the run the heater is still on its way, and the rest of the run is as tame. -/
theorem advanceAll {earlier later : List UInt64} (travelling : heater.Travelling room last)
    (tame : (last :: (earlier ++ later)).IsChain
      fun earlier later => heater.profile.Tame (gap earlier later))
    (unit : ∀ index, 0 ≤ noise.sample index ∧ noise.sample index < 1) :
    ∃ reached advanced left, heater.advanceAll room noise earlier = (advanced, left) ∧
      advanced.Travelling room reached ∧
      ((reached :: later).IsChain fun earlier later => advanced.profile.Tame (gap earlier later)) ∧
      (∀ index, 0 ≤ left.sample index ∧ left.sample index < 1) ∧
      advanced.effectiveTarget room = heater.effectiveTarget room := by
  induction earlier generalizing last heater noise with
  | nil => exact ⟨last, heater, noise, rfl, travelling, tame, unit, rfl⟩
  | cons now earlier inductionHypothesis =>
      obtain ⟨short, tame⟩ := List.isChain_cons_cons.1 tame
      exact inductionHypothesis (travelling.advance short unit) tame
        (heater.unit_advance room now unit)

end Travelling

/-- A heater on its way to its target passes through the regimes of its side one after another, and
every update that does not find it settled brings it nearer. -/
theorem approach_is_one_way {room : Rat} {last : UInt64} {heater : Heater Rat} {noise : Noise Rat}
    {times : List UInt64} (travelling : heater.Travelling room last)
    (unit : ∀ index, 0 ≤ noise.sample index ∧ noise.sample index < 1)
    (tame : (last :: times).IsChain fun earlier later => heater.profile.Tame (gap earlier later)) :
    (∃ far near there, heater.regimes room times noise =
      if heater.value < heater.effectiveTarget room then
        List.replicate far .heating ++
          (List.replicate near .approachingFromBelow ++ List.replicate there .settled)
      else
        List.replicate far .cooling ++
          (List.replicate near .approachingFromAbove ++ List.replicate there .settled)) ∧
    ∀ earlier now later, times = earlier ++ now :: later →
      let before := heater.advanceAll room noise earlier
      let after := before.1.advance room now before.2
      before.1.regime room ≠ .settled →
        |after.1.value - heater.effectiveTarget room| <
          |before.1.value - heater.effectiveTarget room| := by
  constructor
  · have chain := travelling.isChain_regimes unit tame
    have covers := heater.regime_covers room
    split_ifs with below
    · refine Regime.passes_stages .heating .approachingFromBelow (fun _ leads => leads)
        (fun _ leads => leads) chain fun regime isFirst => ?_
      rw [head_regimes room heater noise isFirst]
      exact covers.below travelling.warm below
    · refine Regime.passes_stages .cooling .approachingFromAbove (fun _ leads => leads)
        (fun _ leads => leads) chain fun regime isFirst => ?_
      rw [head_regimes room heater noise isFirst]
      exact covers.above travelling.warm (not_lt.1 below)
  · rintro earlier now later rfl
    obtain ⟨reached, advanced, left, run, travelling, tame, unit, target⟩ :=
      travelling.advanceAll tame unit
    simp only [run, ← target]
    exact (travelling.reaches (List.isChain_cons_cons.1 tame).1 unit).nearer

/-- A hotend at the temperature of the room that is ten degrees below its target. -/
def warming : Heater Rat := ⟨20, 30, some 0, .standard .hotend⟩

/-- Every sample is in the middle, so the jitter is none. -/
theorem half_sample (index : Nat) :
    0 ≤ (Noise.cycle [] : Noise Rat).sample index ∧
      (Noise.cycle [] : Noise Rat).sample index < 1 := by
  change 0 ≤ ([][index % 0]?).getD (0.5 : Rat) ∧ ([][index % 0]?).getD (0.5 : Rat) < 1
  norm_num

theorem warming_is_one_way :
    (∃ far near there, warming.regimes 20 [5000, 10000, 14000, 20000, 25000, 31000] (.cycle []) =
      if warming.value < warming.effectiveTarget 20 then
        List.replicate far .heating ++
          (List.replicate near .approachingFromBelow ++ List.replicate there .settled)
      else
        List.replicate far .cooling ++
          (List.replicate near .approachingFromAbove ++ List.replicate there .settled)) ∧
    ∀ earlier now later,
      [5000, 10000, 14000, 20000, 25000, 31000] = earlier ++ now :: later →
      let before := warming.advanceAll 20 (.cycle []) earlier
      let after := before.1.advance 20 now before.2
      before.1.regime 20 ≠ .settled →
        |after.1.value - warming.effectiveTarget 20| <
          |before.1.value - warming.effectiveTarget 20| := by
  exact approach_is_one_way ⟨by decide +kernel, rfl, by decide +kernel, by decide +kernel⟩
    half_sample (by decide +kernel)

example : warming.regimes 20 [5000, 10000, 14000, 20000, 25000, 31000] (.cycle []) =
    [.heating, .heating, .approachingFromBelow, .approachingFromBelow, .approachingFromBelow,
      .settled] := by
  decide +kernel

/-- A settled heater that the jitter leaves settled and never brings to zero. -/
structure Steady (room : Rat) (heater : Heater Rat) : Prop where
  noisy : 0 ≤ heater.profile.noise
  quiet : heater.profile.noise < 4
  clear : heater.profile.noise / 2 < |heater.effectiveTarget room|
  settled : heater.regime room = .settled

namespace Steady

variable {room : Rat} {now : UInt64} {heater : Heater Rat} {noise : Noise Rat}

theorem near (steady : heater.Steady room)
    (unit : ∀ index, 0 ≤ noise.sample index ∧ noise.sample index < 1) :
    |(heater.advance room now noise).1.value - heater.effectiveTarget room| ≤
      heater.profile.noise / 2 := by
  obtain ⟨low, high⟩ := unit noise.drawn
  rw [value_advance, steady.settled]
  exact Motion.jitter_le _ steady.noisy low high

theorem advance (steady : heater.Steady room)
    (unit : ∀ index, 0 ≤ noise.sample index ∧ noise.sample index < 1) :
    (heater.advance room now noise).1.Steady room where
  noisy := steady.noisy
  quiet := steady.quiet
  clear := steady.clear
  settled := by
    have near : |(heater.advance room now noise).1.value - heater.effectiveTarget room| ≤
        heater.profile.noise / 2 := steady.near unit
    apply regime_eq
    constructor
    · intro zero
      rw [zero, zero_sub, abs_neg] at near
      exact absurd near (not_le.2 steady.clear)
    · have quiet := steady.quiet
      exact near.trans_lt (by linarith)

/-- However far apart the updates are, they leave a steady heater steady. -/
theorem advanceAll (steady : heater.Steady room)
    (unit : ∀ index, 0 ≤ noise.sample index ∧ noise.sample index < 1) (times : List UInt64) :
    ∃ advanced left, heater.advanceAll room noise times = (advanced, left) ∧
      advanced.Steady room ∧ (∀ index, 0 ≤ left.sample index ∧ left.sample index < 1) ∧
      advanced.effectiveTarget room = heater.effectiveTarget room ∧
      advanced.profile = heater.profile := by
  induction times generalizing heater noise with
  | nil => exact ⟨heater, noise, rfl, steady, unit, rfl, rfl⟩
  | cons now times inductionHypothesis =>
      exact inductionHypothesis (steady.advance unit) (heater.unit_advance room now unit)

end Steady

/-- Once a heater is settled each update finds it settled, draws one sample and leaves the
temperature within half the noise of the target, at whatever times the updates are made. -/
theorem jitter_is_steady {room : Rat} {heater : Heater Rat} {noise : Noise Rat}
    (steady : heater.Steady room)
    (unit : ∀ index, 0 ≤ noise.sample index ∧ noise.sample index < 1)
    (earlier : List UInt64) (now : UInt64) :
    let before := heater.advanceAll room noise earlier
    let after := before.1.advance room now before.2
    before.1.regime room = .settled ∧ after.2 = before.2.draw.2 ∧
      |after.1.value - heater.effectiveTarget room| ≤ heater.profile.noise / 2 := by
  obtain ⟨advanced, left, run, steady, unit, target, profile⟩ := steady.advanceAll unit earlier
  simp only [run, ← target, ← profile]
  refine ⟨steady.settled, ?_, steady.near unit⟩
  rw [noise_advance, steady.settled]
  rfl

/-- A settled heater with a lot of noise. -/
def jittery : Heater Rat := ⟨59, 60, some 9000, ⟨1, 1, 7 / 2⟩⟩

/-- The samples are low and high in turn. -/
def swinging : Noise Rat := ⟨fun index => if index % 2 = 0 then 0 else 9 / 10, 0⟩

theorem jittery_is_steady :
    let before := jittery.advanceAll 20 swinging [20000, 1000, 1000, 0]
    let after := before.1.advance 20 5 before.2
    before.1.regime 20 = .settled ∧ after.2 = before.2.draw.2 ∧
      |after.1.value - jittery.effectiveTarget 20| ≤ jittery.profile.noise / 2 := by
  have unit (index : Nat) : 0 ≤ swinging.sample index ∧ swinging.sample index < 1 := by
    rw [swinging]
    dsimp only
    split_ifs <;> norm_num
  exact jitter_is_steady
    ⟨by decide +kernel, by decide +kernel, by decide +kernel, by decide +kernel⟩ unit _ _

end Heater

end BenchPrinter
