import BenchPrinter.Proofs.Regimes
import Mathlib.Data.Rat.Floor

/-!
The heater model read over the rationals. One update is a motion of the temperature, with one kind
of motion for each regime. While an update moves the temperature by no more than seven degrees, no
motion leaves or jumps over the band of two degrees around the target.
-/

namespace BenchPrinter

/-- One update takes the temperature to another one; each kind carries the guard of its regime. -/
inductive Motion (room target elapsed : Rat) (profile : HeaterProfile Rat) (value : Rat) :
    Rat → Prop where
  | initialized (sample : Rat) (cold : value = 0) (low : 0 ≤ sample) (high : sample < 1) :
      Motion room target elapsed profile value (room + sample * 5 / 2)
  | heating (warm : value ≠ 0) (far : value + 5 < target) :
      Motion room target elapsed profile value (value + profile.heatRate * elapsed)
  | cooling (warm : value ≠ 0) (far : target < value - 5) :
      Motion room target elapsed profile value (value - profile.coolRate * elapsed)
  | settled (sample : Rat) (warm : value ≠ 0) (near : |value - target| < 2) (low : 0 ≤ sample)
      (high : sample < 1) :
      Motion room target elapsed profile value (target + profile.noise * (sample - 1 / 2))
  | approachingFromBelow (warm : value ≠ 0) (near : target ≤ value + 5) (below : value ≤ target - 2) :
      Motion room target elapsed profile value (value + profile.heatRate / 3 * elapsed)
  | approachingFromAbove (warm : value ≠ 0) (near : value - 5 ≤ target) (above : target + 2 ≤ value) :
      Motion room target elapsed profile value (value - profile.coolRate / 3 * elapsed)

namespace Heater

theorem isSettled_iff_near (room : Rat) (heater : Heater Rat) :
    heater.isSettled room = true ↔ |heater.value - heater.effectiveTarget room| ≤ 2 := by
  rw [isSettled]
  simp only [Bool.and_eq_true, decide_eq_true_eq]
  change heater.effectiveTarget room - (2.0 : Rat) ≤ heater.value ∧
    heater.value ≤ heater.effectiveTarget room + (2.0 : Rat) ↔ _
  rw [abs_le, show (2.0 : Rat) = 2 by norm_num]
  constructor
  · rintro ⟨low, high⟩
    constructor <;> linarith
  · rintro ⟨low, high⟩
    constructor <;> linarith

/-- An update with samples between zero and one is a motion. -/
theorem motion_of_advances {room : Rat} {samples : Nat → Rat} {now : UInt64}
    {heater after : Heater Rat} (advances : Board.Advances room samples now heater after)
    (unit : ∀ index, 0 ≤ samples index ∧ samples index < 1) :
    Motion room (heater.effectiveTarget room) (heater.elapsedSeconds now) heater.profile
      heater.value after.value := by
  obtain ⟨drawn, rfl⟩ := advances
  obtain ⟨low, high⟩ := unit drawn
  have covers := heater.regime_covers room
  rw [value_advance]
  generalize heater.regime room = regime at covers ⊢
  cases regime with
  | initialized => exact .initialized _ covers low high
  | heating => exact .heating covers.1 covers.2
  | cooling => exact .cooling covers.1 covers.2
  | settled => exact .settled _ covers.1 covers.2 low high
  | approachingFromBelow =>
      obtain ⟨warm, near, below⟩ := covers
      exact .approachingFromBelow warm (by linarith) below
  | approachingFromAbove =>
      obtain ⟨warm, above, near⟩ := covers
      exact .approachingFromAbove warm (by linarith) above

end Heater

/-- In one interval the full rates move the temperature by at most seven degrees, and the noise is at
most two degrees on each side. -/
structure HeaterProfile.Tame (profile : HeaterProfile Rat) (interval : Rat) : Prop where
  heats : 0 < profile.heatRate * interval
  heatsSlowly : profile.heatRate * interval ≤ 7
  cools : 0 < profile.coolRate * interval
  coolsSlowly : profile.coolRate * interval ≤ 7
  noisy : 0 ≤ profile.noise
  quiet : profile.noise ≤ 4

namespace Motion

variable {room target elapsed interval value after : Rat} {profile : HeaterProfile Rat}

/-- The way that the slowest motion makes in one interval. -/
def pace (profile : HeaterProfile Rat) (interval : Rat) : Rat :=
  min (profile.heatRate * interval) (profile.coolRate * interval) / 3

theorem pace_pos (tame : profile.Tame interval) : 0 < pace profile interval := by
  have slower := lt_min tame.heats tame.cools
  unfold pace
  linarith

/-- The temperature becomes positive in at most two stages: it is heated up to zero, and a heater at
zero is given the temperature of the room. -/
def stage (value : Rat) : Nat :=
  if 0 < value then 0 else if value = 0 then 1 else 2

theorem stage_of_pos (positive : 0 < value) : stage value = 0 := by
  simp [stage, positive]

theorem stage_antitone {lower higher : Rat} (ordered : lower ≤ higher) :
    stage higher ≤ stage lower := by
  unfold stage
  grind

/-- The stages come first, then the distance in paces, then the time until the clock wraps. -/
def rank (pace target value : Rat) (now : UInt64) : Nat × Nat × Nat :=
  (stage value, ⌈|value - target| / pace⌉₊, now.toNat)

def Lower : Nat × Nat × Nat → Nat × Nat × Nat → Prop :=
  Prod.Lex (· < ·) (Prod.Lex (· < ·) (· < ·))

theorem lower_wellFounded : WellFounded Lower :=
  WellFounded.prod_lex wellFounded_lt (WellFounded.prod_lex wellFounded_lt wellFounded_lt)

section

variable {pace : Rat} {now later : UInt64}

theorem lower_of_stage (lower : stage after < stage value) :
    Lower (rank pace target after later) (rank pace target value now) :=
  .left _ _ lower

theorem lower_of_nearer (positive : 0 < pace) (level : stage after ≤ stage value)
    (nearer : |after - target| + pace ≤ |value - target|) :
    Lower (rank pace target after later) (rank pace target value now) := by
  have fewer : ⌈|after - target| / pace⌉₊ < ⌈|value - target| / pace⌉₊ := by
    have less : |after - target| / pace + 1 ≤ |value - target| / pace := by
      rw [div_add_one positive.ne', div_le_div_iff_of_pos_right positive]
      exact nearer
    have bound := Nat.ceil_lt_add_one (div_nonneg (abs_nonneg (after - target)) positive.le)
    exact Nat.lt_ceil.2 (bound.trans_le less)
  rw [Lower, Prod.lex_def, Prod.lex_def]
  rcases level.lt_or_eq with lower | same
  · exact .inl lower
  · exact .inr ⟨same, .inl fewer⟩

theorem lower_of_rest (same : after = value) (wraps : later.toNat < now.toNat) :
    Lower (rank pace target after later) (rank pace target value now) := by
  rw [Lower, Prod.lex_def, Prod.lex_def, same]
  exact .inr ⟨rfl, .inr ⟨rfl, wraps⟩⟩

end

theorem reach (tame : profile.Tame interval) (short : elapsed = 0 ∨ elapsed = interval) :
    (0 ≤ profile.heatRate * elapsed ∧ profile.heatRate * elapsed ≤ 7) ∧
      0 ≤ profile.coolRate * elapsed ∧ profile.coolRate * elapsed ≤ 7 := by
  obtain ⟨heats, heatsSlowly, cools, coolsSlowly, -, -⟩ := tame
  rcases short with rfl | rfl
  · simp
  · exact ⟨⟨heats.le, heatsSlowly⟩, cools.le, coolsSlowly⟩

/-- The jitter is half the noise at most. -/
theorem jitter_le {noise sample : Rat} (target : Rat) (noisy : 0 ≤ noise) (low : 0 ≤ sample)
    (high : sample < 1) : |target + noise * (sample - 1 / 2) - target| ≤ noise / 2 := by
  have upper := mul_le_mul_of_nonneg_left (show sample - 1 / 2 ≤ 1 / 2 by linarith) noisy
  have lower := mul_le_mul_of_nonneg_left (show -(1 / 2) ≤ sample - 1 / 2 by linarith) noisy
  rw [abs_le]
  constructor <;> linarith

/-- The noise stays within two degrees of the target. -/
theorem jitter_near (tame : profile.Tame interval) {sample : Rat} (low : 0 ≤ sample)
    (high : sample < 1) : |target + profile.noise * (sample - 1 / 2) - target| ≤ 2 := by
  have quiet := tame.quiet
  exact (jitter_le target tame.noisy low high).trans (by linarith)

/-- A motion that begins in the band ends in it. -/
theorem remains (tame : profile.Tame interval) (short : elapsed = 0 ∨ elapsed = interval)
    (aimed : 2 < target) (motion : Motion room target elapsed profile value after)
    (near : |value - target| ≤ 2) : |after - target| ≤ 2 := by
  obtain ⟨⟨heats, heatsSlowly⟩, cools, coolsSlowly⟩ := reach tame short
  obtain ⟨low, high⟩ := abs_le.1 near
  cases motion with
  | initialized sample cold => linarith
  | heating warm far => linarith
  | cooling warm far => linarith
  | settled sample warm _ lowSample highSample => exact jitter_near tame lowSample highSample
  | approachingFromBelow =>
      rw [div_mul_eq_mul_div, abs_le]
      constructor <;> linarith
  | approachingFromAbove =>
      rw [div_mul_eq_mul_div, abs_le]
      constructor <;> linarith

/-- A motion of no time leaves the temperature where it is, unless the heater is at zero. -/
theorem rests (roomy : 0 < room) (motion : Motion room target 0 profile value after)
    (apart : ¬ |value - target| ≤ 2) : stage after < stage value ∨ after = value := by
  cases motion with
  | initialized sample cold low =>
      have positive : 0 < room + sample * 5 / 2 := by linarith
      left
      rw [stage_of_pos positive]
      simp [stage, cold]
  | settled _ _ near => exact absurd near.le apart
  | heating | cooling | approachingFromBelow | approachingFromAbove => simp

/-- Nearer to the band means nearer by the given way, and no stage is gone back. -/
def Approaches (way target value after : Rat) : Prop :=
  |after - target| ≤ 2 ∨ stage after < stage value ∨
    (stage after ≤ stage value ∧ |after - target| + way ≤ |value - target|)

theorem approaches_of_rise {way rise : Rat} (enough : way ≤ rise) (nonnegative : 0 ≤ rise)
    (inside : value + rise ≤ target + 2) : Approaches way target value (value + rise) := by
  rcases le_or_gt (target - 2) (value + rise) with reached | short
  · left
    rw [abs_le]
    constructor <;> linarith
  · refine .inr (.inr ⟨stage_antitone (by linarith), ?_⟩)
    rw [abs_of_neg (by linarith), abs_of_neg (by linarith)]
    linarith

theorem approaches_of_fall {way fall : Rat} (aimed : 2 < target) (above : target + 2 ≤ value)
    (enough : way ≤ fall) (inside : target - 2 ≤ value - fall) :
    Approaches way target value (value - fall) := by
  rcases le_or_gt (value - fall) (target + 2) with reached | short
  · left
    rw [abs_le]
    constructor <;> linarith
  · right
    right
    constructor
    · rw [stage_of_pos (show 0 < value - fall by linarith)]
      exact Nat.zero_le _
    · rw [abs_of_pos (by linarith), abs_of_pos (by linarith)]
      linarith

/-- A motion of one interval outside the band comes into it or nearer to it. -/
theorem approaches (tame : profile.Tame interval) (roomy : 0 < room) (aimed : 2 < target)
    (motion : Motion room target interval profile value after)
    (apart : ¬ |value - target| ≤ 2) : Approaches (pace profile interval) target value after := by
  obtain ⟨heats, heatsSlowly, cools, coolsSlowly, -, -⟩ := tame
  have heatWay : pace profile interval ≤ profile.heatRate * interval / 3 := by
    unfold pace
    linarith [min_le_left (profile.heatRate * interval) (profile.coolRate * interval)]
  have coolWay : pace profile interval ≤ profile.coolRate * interval / 3 := by
    unfold pace
    linarith [min_le_right (profile.heatRate * interval) (profile.coolRate * interval)]
  cases motion with
  | initialized sample cold low =>
      right
      left
      rw [stage_of_pos (show 0 < room + sample * 5 / 2 by linarith)]
      simp [stage, cold]
  | heating warm far =>
      exact approaches_of_rise (by linarith) heats.le (by linarith)
  | cooling warm far =>
      exact approaches_of_fall aimed (by linarith) (by linarith) (by linarith)
  | settled _ _ near => exact absurd near.le apart
  | approachingFromBelow warm near below =>
      rw [div_mul_eq_mul_div]
      exact approaches_of_rise heatWay (by linarith) (by linarith)
  | approachingFromAbove warm near above =>
      rw [div_mul_eq_mul_div]
      exact approaches_of_fall aimed above coolWay (by linarith)

end Motion

end BenchPrinter
