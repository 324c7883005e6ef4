import BenchPrinter.Proofs.Edge

/-!
How far one update moves a temperature. A ramp moves it by its rate times the elapsed time and does
not look where this leads. What keeps a temperature physical is that the ramp ends in reach: a
rising one at the greatest temperature that is allowed, a falling one at zero.
-/

namespace BenchPrinter

open Double

/-- An update moves the temperature up or down, or it draws a new one. -/
inductive Course where
  | up (way : Float)
  | down (way : Float)
  | drawn

namespace Heater

def course (room : Float) (now : UInt64) (heater : Heater Float) : Course :=
  match heater.regime room with
  | .heating => .up (heater.profile.heatRate * heater.elapsedSeconds now)
  | .approachingFromBelow => .up (heater.profile.heatRate / 3.0 * heater.elapsedSeconds now)
  | .cooling => .down (heater.profile.coolRate * heater.elapsedSeconds now)
  | .approachingFromAbove => .down (heater.profile.coolRate / 3.0 * heater.elapsedSeconds now)
  | .initialized | .settled => .drawn

end Heater

/-- The room allows up to 22.5 degrees, and each target allows two degrees above it. -/
def bounds (targets : List Float) : List Float := 22.5 :: targets.map (· + 2.0)

/-- A temperature that a heater with these targets can have. -/
structure Physical (targets : List Float) (value : Float) : Prop where
  low : 0.0 ≤ value
  high : ∃ bound ∈ bounds targets, value ≤ bound

/-- The ramp ends where the temperature is still physical. -/
def Course.InReach (targets : List Float) (value : Float) : Course → Prop
  | up way => ∃ bound ∈ bounds targets, worth value + worth way ≤ worth bound
  | down way => worth way ≤ worth value
  | drawn => True

/-- The targets that leave room for the noise: zero, and everything from a quarter degree on. -/
def Gentle (target : Float) : Prop :=
  IsFinite target ∧ (worth target = 0 ∨ 1 / 4 ≤ worth target)

section

variable {targets : List Float}

theorem finite_of_mem_bounds (gentle : ∀ target ∈ targets, Gentle target) {bound : Float}
    (member : bound ∈ bounds targets) : IsFinite bound := by
  rcases List.mem_cons.1 member with rfl | member
  · decide +kernel
  · obtain ⟨target, isTarget, rfl⟩ := List.mem_map.1 member
    obtain ⟨-, -, ⟨two, twoWorth⟩, -⟩ := literal_worths
    exact (add_nearby (gentle target isTarget).1 two (by rw [twoWorth]; norm_num)).finite

theorem physical_iff (gentle : ∀ target ∈ targets, Gentle target) {value : Float}
    (finite : IsFinite value) :
    Physical targets value ↔
      0 ≤ worth value ∧ ∃ bound ∈ bounds targets, worth value ≤ worth bound := by
  obtain ⟨zero, zeroWorth⟩ := literal_worths.1
  have above : (∃ bound ∈ bounds targets, value ≤ bound) ↔
      ∃ bound ∈ bounds targets, worth value ≤ worth bound :=
    exists_congr fun bound => and_congr_right fun member =>
      le_iff finite (finite_of_mem_bounds gentle member)
  rw [← above, ← zeroWorth, ← le_iff zero finite]
  exact ⟨fun physical => ⟨physical.low, physical.high⟩, fun both => ⟨both.1, both.2⟩⟩

end

/-- Everything that is rounded from less than two degrees above the target lies below the bound. -/
def Covers (target bound : Float) : Prop :=
  ∀ number after, Nearest number after → number < worth target + 2 → worth after ≤ worth bound

theorem Covers.le {target bound : Float} (covers : Covers target bound) (finite : IsFinite target) :
    worth target ≤ worth bound := by
  have itself : Nearest (worth target) target := ⟨finite, fun other _ => by simp⟩
  exact covers _ _ itself (by linarith)

theorem covers_self {target : Float} (finite : IsFinite target) : Covers target (target + 2.0) := by
  obtain ⟨-, -, ⟨two, twoWorth⟩, -⟩ := literal_worths
  have top := add_nearby finite two (by rw [twoWorth]; norm_num)
  rw [twoWorth] at top
  exact fun number after rounded below => rounded.mono top below

theorem covers_room : Covers 20.0 22.5 := by
  intro number after rounded below
  obtain ⟨-, -, -, -, -, ⟨twenty, twentyWorth⟩, -⟩ := literal_worths
  have bound : IsFinite 22.5 ∧ worth 22.5 = 45 / 2 := by decide +kernel
  rw [twentyWorth] at below
  exact rounded.le_worth bound.1 (by rw [bound.2]; linarith)

section

variable {targets : List Float} {value way elapsed : Float}
  (gentle : ∀ target ∈ targets, Gentle target) (finite : IsFinite value) (isWay : Way elapsed way)

include gentle finite isWay

theorem physical_of_up (physical : Physical targets value)
    (inReach : (Course.up way).InReach targets value) : Physical targets (value + way) := by
  obtain ⟨zero, zeroWorth⟩ := literal_worths.1
  have rounded := add_nearby finite isWay.finite isWay.small
  obtain ⟨low, -⟩ := (physical_iff gentle finite).1 physical
  obtain ⟨bound, member, high⟩ := inReach
  refine (physical_iff gentle rounded.finite).2 ⟨?_, bound, member, ?_⟩
  · rw [← zeroWorth]
    exact rounded.worth_le zero (by rw [zeroWorth]; exact add_nonneg low isWay.low)
  · exact rounded.le_worth (finite_of_mem_bounds gentle member) high

theorem physical_of_down (physical : Physical targets value)
    (inReach : (Course.down way).InReach targets value) : Physical targets (value - way) := by
  obtain ⟨zero, zeroWorth⟩ := literal_worths.1
  have rounded := sub_nearby finite isWay.finite isWay.small
  obtain ⟨-, bound, member, high⟩ := (physical_iff gentle finite).1 physical
  refine (physical_iff gentle rounded.finite).2 ⟨?_, bound, member, ?_⟩
  · rw [← zeroWorth]
    exact rounded.worth_le zero (by rw [zeroWorth]; exact sub_nonneg.2 inReach)
  · exact rounded.le_worth (finite_of_mem_bounds gentle member) (by linarith [isWay.low])

/-- A rising ramp that stays below a bound was in reach. -/
theorem inReach_of_up {bound : Float} (member : bound ∈ bounds targets)
    (below : value + way < bound) : (Course.up way).InReach targets value := by
  have rounded := add_nearby finite isWay.finite isWay.small
  have boundFinite := finite_of_mem_bounds gentle member
  rw [lt_iff rounded.finite boundFinite] at below
  refine ⟨bound, member, ?_⟩
  by_contra beyond
  exact absurd (rounded.worth_le boundFinite (not_le.1 beyond).le) (not_le.2 below)

omit gentle in
/-- A falling ramp that stays above zero was in reach. -/
theorem inReach_of_down (above : 0.0 < value - way) : (Course.down way).InReach targets value := by
  obtain ⟨zero, zeroWorth⟩ := literal_worths.1
  have rounded := sub_nearby finite isWay.finite isWay.small
  rw [lt_iff zero rounded.finite] at above
  by_contra beyond
  have fallen := rounded.le_worth zero (by
    rw [zeroWorth]
    exact sub_nonpos.2 (not_le.1 beyond).le)
  exact absurd fallen (not_le.2 above)

end

/-- The ways that the heaters can make in six seconds. -/
theorem HeaterId.six_seconds (id : HeaterId) :
    (worth (HeaterProfile.standard id).heatRate * 6 ≤ 5 ∧
        worth ((HeaterProfile.standard id).heatRate / 3.0) * 6 ≤ 3 / 2) ∧
      worth (HeaterProfile.standard id).coolRate * 6 ≤ 5 ∧
      worth ((HeaterProfile.standard id).coolRate / 3.0) * 6 ≤ 7 / 4 := by
  cases id <;> decide +kernel

theorem way_le_of_prompt {rate elapsed limit : Float} (isRate : Rate rate)
    (isElapsed : Elapsed elapsed) (prompt : worth elapsed ≤ 6) (limitFinite : IsFinite limit)
    (short : worth rate * 6 ≤ worth limit) : worth (rate * elapsed) ≤ worth limit :=
  (isRate.product isElapsed).1.le_worth limitFinite
    ((mul_le_mul_of_nonneg_left prompt isRate.low.le).trans short)

namespace Board

/-- The board has had these targets set, and its temperatures are physical. -/
structure Tame (targets : HeaterId → List Float) (board : Board Float) : Prop extends
    Sound board where
  gentle : ∀ id, ∀ target ∈ targets id, Gentle target
  listed : ∀ id, ((board.heater id).target == 0.0) = true ∨ (board.heater id).target ∈ targets id
  physical : ∀ id, Physical (targets id) (board.heater id).value

/-- The next update of each heater ends in reach. -/
def InReach (targets : HeaterId → List Float) (board : Board Float) : Prop :=
  ∀ id, ((board.heater id).course board.room board.clock.now).InReach (targets id)
    (board.heater id).value

namespace Tame

variable {targets : HeaterId → List Float} {board : Board Float}

/-- A heater is driven to a target that leaves room for the noise on both sides. -/
theorem goal (tame : board.Tame targets) (id : HeaterId) :
    IsFinite ((board.heater id).effectiveTarget board.room) ∧
      1 / 4 ≤ worth ((board.heater id).effectiveTarget board.room) ∧
      ∃ bound ∈ bounds (targets id),
        Covers ((board.heater id).effectiveTarget board.room) bound := by
  obtain ⟨zero, zeroWorth⟩ := literal_worths.1
  obtain ⟨-, -, -, -, -, ⟨twenty, twentyWorth⟩, -⟩ := literal_worths
  rw [Heater.effectiveTarget, tame.room]
  split
  · exact ⟨twenty, by rw [twentyWorth]; norm_num, 22.5, .head _, covers_room⟩
  · rename_i set
    have member := (tame.listed id).resolve_left set
    obtain ⟨finite, unset | enough⟩ := tame.gentle id _ member
    · exact absurd ((beq_iff finite zero).2 (unset.trans zeroWorth.symm)) set
    · exact ⟨finite, enough, _, .tail _ (List.mem_map_of_mem member), covers_self finite⟩

theorem ways (tame : board.Tame targets) (id : HeaterId) :
    let heater := board.heater id
    let elapsed := heater.elapsedSeconds board.clock.now
    (Way elapsed (heater.profile.heatRate * elapsed) ∧
        Way elapsed (heater.profile.heatRate / 3.0 * elapsed)) ∧
      Way elapsed (heater.profile.coolRate * elapsed) ∧
      Way elapsed (heater.profile.coolRate / 3.0 * elapsed) := by
  intro heater elapsed
  have isElapsed : Elapsed elapsed := elapsed_of_heater _ _
  obtain ⟨⟨heats, heatsSlowly⟩, cools, coolsSlowly⟩ := Rate.standard id
  rw [show heater.profile = .standard id from tame.profile id]
  exact ⟨⟨(heats.product isElapsed).2, (heatsSlowly.product isElapsed).2⟩,
    (cools.product isElapsed).2, (coolsSlowly.product isElapsed).2⟩

theorem physical_of_initialized (tame : board.Tame targets) (id : HeaterId) (index : Nat) :
    Physical (targets id) (board.room + board.noise.sample index * 5.0 / 2.0) := by
  have bound : IsFinite 22.5 ∧ worth 22.5 = 45 / 2 := by decide +kernel
  obtain ⟨finite, low, high⟩ := initialized_worth (tame.unit index)
  rw [tame.room]
  refine (physical_iff (tame.gentle id) finite).2 ⟨by linarith, 22.5, .head _, ?_⟩
  rw [bound.2]
  exact high

/-- The noise does not reach down to zero, since the target is at least a quarter degree. -/
theorem physical_of_settled (tame : board.Tame targets) (id : HeaterId) (index : Nat) :
    Physical (targets id) ((board.heater id).effectiveTarget board.room +
      (board.heater id).profile.noise * (board.noise.sample index - 0.5)) := by
  obtain ⟨zero, zeroWorth⟩ := literal_worths.1
  obtain ⟨finite, enough, bound, member, covers⟩ := tame.goal id
  obtain ⟨small, rounded⟩ := settled_nearest id finite (tame.unit index)
  obtain ⟨low, high⟩ := abs_le.1 small
  rw [tame.profile id]
  refine (physical_iff (tame.gentle id) rounded.finite).2 ⟨?_, bound, member, ?_⟩
  · rw [← zeroWorth]
    exact rounded.worth_le zero (by rw [zeroWorth]; linarith)
  · exact covers _ _ rounded (by linarith)

theorem physical_updateHeaters (tame : board.Tame targets) (inReach : board.InReach targets)
    (id : HeaterId) : Physical (targets id) (board.updateHeaters.heater id).value := by
  have reach := inReach id
  have gentle := tame.gentle id
  have finite := tame.value id
  have physical := tame.physical id
  obtain ⟨⟨heats, heatsSlowly⟩, cools, coolsSlowly⟩ := tame.ways id
  obtain ⟨drawn, advanced⟩ := board.updateHeaters_advances id
  rw [advanced, Heater.advance]
  simp only [Heater.course] at reach
  simp only [Heater.step]
  cases regime : (board.heater id).regime board.room <;> rw [regime] at reach
  case initialized => exact tame.physical_of_initialized id drawn
  case heating => exact physical_of_up gentle finite heats physical reach
  case cooling => exact physical_of_down gentle finite cools physical reach
  case settled => exact tame.physical_of_settled id drawn
  case approachingFromBelow => exact physical_of_up gentle finite heatsSlowly physical reach
  case approachingFromAbove => exact physical_of_down gentle finite coolsSlowly physical reach

/-- Conversely, an update after which a temperature lies strictly between zero and a bound ended in
reach. -/
theorem inReach_of_updateHeaters (tame : board.Tame targets)
    (inside : ∀ id, 0.0 < (board.updateHeaters.heater id).value ∧
      ∃ bound ∈ bounds (targets id), (board.updateHeaters.heater id).value < bound) :
    board.InReach targets := by
  intro id
  have gentle := tame.gentle id
  have finite := tame.value id
  obtain ⟨above, bound, member, below⟩ := inside id
  obtain ⟨⟨heats, heatsSlowly⟩, cools, coolsSlowly⟩ := tame.ways id
  obtain ⟨drawn, advanced⟩ := board.updateHeaters_advances id
  rw [advanced, Heater.advance] at above below
  simp only [Heater.step] at above below
  simp only [Heater.course]
  cases regime : (board.heater id).regime board.room <;> rw [regime] at above below
  case initialized => trivial
  case heating => exact inReach_of_up gentle finite heats member below
  case cooling => exact inReach_of_down finite cools above
  case settled => trivial
  case approachingFromBelow => exact inReach_of_up gentle finite heatsSlowly member below
  case approachingFromAbove => exact inReach_of_down finite coolsSlowly above

theorem updateHeaters (tame : board.Tame targets) (inReach : board.InReach targets) :
    board.updateHeaters.Tame targets := by
  refine ⟨tame.toSound.updateHeaters, tame.gentle, fun id => ?_,
    tame.physical_updateHeaters inReach⟩
  obtain ⟨drawn, advanced⟩ := board.updateHeaters_advances id
  rw [advanced]
  exact tame.listed id

/-- Within six seconds no ramp leads out of reach. -/
theorem inReach_of_prompt (tame : board.Tame targets)
    (prompt : ∀ id, worth ((board.heater id).elapsedSeconds board.clock.now) ≤ 6) :
    board.InReach targets := by
  intro id
  have limits : (IsFinite 5.0 ∧ worth 5.0 = 5) ∧ (IsFinite 1.5 ∧ worth 1.5 = 3 / 2) ∧
      IsFinite 1.75 ∧ worth 1.75 = 7 / 4 := by decide +kernel
  obtain ⟨⟨five, fiveWorth⟩, ⟨middle, middleWorth⟩, large, largeWorth⟩ := limits
  have finite := tame.value id
  obtain ⟨targetFinite, enough, bound, member, covers⟩ := tame.goal id
  have top := covers.le targetFinite
  obtain ⟨⟨heats, heatsSlowly⟩, cools, coolsSlowly⟩ := Rate.standard id
  obtain ⟨⟨heated, heatedSlowly⟩, cooled, cooledSlowly⟩ := id.six_seconds
  rw [← tame.profile id] at heats heatsSlowly cools coolsSlowly
  rw [← tame.profile id] at heated heatedSlowly cooled cooledSlowly
  have isElapsed := elapsed_of_heater (board.heater id) board.clock.now
  have update := (board.updateHeaters_advances id).update
  generalize (board.updateHeaters.heater id).value = after at update
  cases update with
  | initialized drawn cold => simp [Heater.course, Heater.regime, cold, Course.InReach]
  | settled drawn warm notBelow notAbove near =>
      simp [Heater.course, Heater.regime, warm, notBelow, notAbove, near, Course.InReach]
  | heating warm farBelow =>
      have way := way_le_of_prompt heats isElapsed (prompt id) five (by rwa [fiveWorth])
      have far := far_below finite targetFinite farBelow
      rw [fiveWorth] at way
      simp only [Heater.course, Heater.regime, warm, farBelow]
      exact ⟨bound, member, by linarith⟩
  | cooling warm notBelow farAbove =>
      have way := way_le_of_prompt cools isElapsed (prompt id) five (by rwa [fiveWorth])
      have far := far_above finite targetFinite farAbove
      rw [fiveWorth] at way
      simp only [Heater.course, Heater.regime, warm, notBelow, farAbove]
      exact way.trans (by linarith)
  | approachingFromBelow warm notBelow notAbove apart below =>
      have way := way_le_of_prompt heatsSlowly isElapsed (prompt id) middle (by rwa [middleWorth])
      have outer := outer_of_magnitude finite targetFinite
        (difference_small finite targetFinite notBelow notAbove) apart
      have less := (lt_iff finite targetFinite).1 below
      rw [abs_of_neg (by linarith)] at outer
      rw [middleWorth] at way
      simp only [Heater.course, Heater.regime, warm, notBelow, notAbove, apart, below]
      exact ⟨bound, member, by linarith⟩
  | approachingFromAbove warm notBelow notAbove apart above =>
      have way := way_le_of_prompt coolsSlowly isElapsed (prompt id) large (by rwa [largeWorth])
      have outer := outer_of_magnitude finite targetFinite
        (difference_small finite targetFinite notBelow notAbove) apart
      have more := not_lt.1 ((lt_iff finite targetFinite).not.1 above)
      rw [abs_of_nonneg (by linarith)] at outer
      rw [largeWorth] at way
      simp only [Heater.course, Heater.regime, warm, notBelow, notAbove, apart, above]
      exact way.trans (by linarith)

theorem sleep (tame : board.Tame targets) (milliseconds : UInt64) :
    Tame targets { board with clock := board.clock.after milliseconds } :=
  ⟨tame.toSound.sleep milliseconds, tame.gentle, tame.listed, tame.physical⟩

end Tame

end Board

end BenchPrinter
