import BenchPrinter.Proofs.Double.Numerals

/-!
The numbers that round to one double. They lie between the middles to the two neighbours of the
double, and the middles belong to it when its mantissa is even.
-/

namespace BenchPrinter.Double

open Float.Model Float.Model.UnpackedFloat

/-- The gap below a double in quarters of the gap above it, taken halfway. Just above a power of two
it is half as wide. -/
def gapBelow (mantissa : Nat) (exponent : Int) : Nat :=
  if mantissa = 2 ^ 52 ∧ -1074 < exponent then 1 else 2

/-- The number lies in the interval of a mantissa and an exponent. -/
structure Captures (mantissa : Nat) (exponent : Int) (number : Rat) : Prop where
  lower : (4 * mantissa - gapBelow mantissa exponent : Rat) * 2 ^ exponent ≤ 4 * number
  upper : 4 * number ≤ (4 * mantissa + 2 : Rat) * 2 ^ exponent
  openBelow : mantissa % 2 = 1 → (4 * mantissa - 2 : Rat) * 2 ^ exponent < 4 * number
  openAbove : mantissa % 2 = 1 → 4 * number < (4 * mantissa + 2 : Rat) * 2 ^ exponent

section

variable {mantissa count : Nat} {exponent grid : Int} {number : Rat}

theorem gapBelow_le (mantissa : Nat) (exponent : Int) : (gapBelow mantissa exponent : Rat) ≤ 2 := by
  unfold gapBelow
  split <;> norm_num

theorem Captures.above_half (captures : Captures mantissa exponent number) :
    (4 * mantissa - 2 : Rat) * 2 ^ exponent ≤ 4 * number := by
  refine le_trans ?_ captures.lower
  have gap := gapBelow_le mantissa exponent
  gcongr

theorem Captures.pos (captures : Captures mantissa exponent number) (positive : 0 < mantissa) :
    0 < number := by
  have unit : (0 : Rat) < 2 ^ exponent := by positivity
  have one : (1 : Rat) ≤ mantissa := by exact_mod_cast positive
  have half := captures.above_half
  have above : (0 : Rat) < (4 * mantissa - 2) * 2 ^ exponent := mul_pos (by linarith) unit
  linarith

/-- No grid that the number is rounded to is coarser than the interval. -/
theorem Captures.grid_le (captures : Captures mantissa exponent number) (fits : mantissa < 2 ^ 53)
    (least : -1074 ≤ exponent) (rounded : Rounded number count grid) : grid ≤ exponent := by
  by_contra coarser
  rw [not_le] at coarser
  obtain ⟨-, large⟩ := rounded.full.resolve_left (by omega)
  have unit : (0 : Rat) < 2 ^ exponent := by positivity
  have step : (2 : Rat) ^ (53 + exponent) ≤ 2 ^ (52 + grid) :=
    zpow_le_zpow_right₀ one_le_two (by omega)
  rw [zpow_add₀ two_ne_zero] at step
  have whole : (mantissa : Rat) + 1 ≤ 2 ^ 53 := by exact_mod_cast fits
  have bound : (4 * mantissa + 2 : Rat) * 2 ^ exponent ≤ (2 ^ 55 - 2) * 2 ^ exponent := by
    gcongr
    linarith
  have upper := captures.upper
  norm_num at step bound
  linarith

/-- On the grid of the mantissa the number is rounded to the mantissa. -/
theorem Captures.count_eq (captures : Captures mantissa exponent number) (positive : 0 < mantissa)
    (rounded : Rounded number count exponent) : count = mantissa := by
  have unit : (0 : Rat) < 2 ^ exponent := by positivity
  obtain ⟨below, above⟩ := abs_le.1 rounded.near
  have half := captures.above_half
  have upper := captures.upper
  have most : (count : Rat) ≤ mantissa + 1 := by
    refine le_of_mul_le_mul_right ?_ unit
    linarith
  have fewest : (mantissa : Rat) ≤ count + 1 := by
    refine le_of_mul_le_mul_right ?_ unit
    linarith
  have most : count ≤ mantissa + 1 := by exact_mod_cast most
  have fewest : mantissa ≤ count + 1 := by exact_mod_cast fewest
  -- One step away the number would be a tie, which an odd mantissa does not capture.
  obtain rfl | high | low : count = mantissa ∨ count = mantissa + 1 ∨ mantissa = count + 1 := by
    omega
  · rfl
  · have cast : (count : Rat) = mantissa + 1 := by exact_mod_cast high
    have tie : |(count : Rat) * 2 ^ exponent - number| = 2 ^ exponent / 2 := by
      refine le_antisymm rounded.near ((le_abs_self _).trans' ?_)
      rw [cast]
      linarith
    have even := rounded.even tie
    have strict := captures.openAbove (by omega)
    rw [cast] at above
    linarith
  · have cast : (mantissa : Rat) = count + 1 := by exact_mod_cast low
    have tie : |(count : Rat) * 2 ^ exponent - number| = 2 ^ exponent / 2 := by
      refine le_antisymm rounded.near ((neg_le_abs _).trans' ?_)
      rw [cast] at half
      linarith
    have even := rounded.even tie
    have strict := captures.openBelow (by omega)
    rw [cast] at strict
    linarith

/-- Only the least full mantissa is reached from a finer grid. -/
theorem Captures.least_full (captures : Captures mantissa exponent number)
    (full : 2 ^ 52 ≤ mantissa) (finer : grid < exponent) (rounded : Rounded number count grid) :
    mantissa = 2 ^ 52 := by
  by_contra wide
  have unit : (0 : Rat) < 2 ^ exponent := by positivity
  have large : (2 ^ 52 + 1 : Rat) ≤ mantissa := by
    exact_mod_cast (by omega : 2 ^ 52 + 1 ≤ mantissa)
  have half := captures.above_half
  have bound : (4 * (2 ^ 52 + 1) - 2 : Rat) * 2 ^ exponent ≤
      (4 * mantissa - 2 : Rat) * 2 ^ exponent := by gcongr
  have fits : (count : Rat) ≤ 2 ^ 53 := by exact_mod_cast rounded.fits
  have room : (count : Rat) * 2 ^ grid ≤ 2 ^ 53 * 2 ^ grid := by gcongr
  have halved : (2 : Rat) ^ grid * 2 ≤ 2 ^ exponent := by
    rw [← zpow_add_one₀ two_ne_zero]
    exact zpow_le_zpow_right₀ one_le_two (by omega)
  have below := (abs_le.1 rounded.near).1
  norm_num at bound room
  linarith

/-- A finer grid reaches the interval with its last point only, just below a power of two. -/
theorem Captures.next_grid (captures : Captures mantissa exponent number)
    (full : 2 ^ 52 ≤ mantissa ∨ exponent = -1074) (finer : grid < exponent)
    (rounded : Rounded number count grid) :
    mantissa = 2 ^ 52 ∧ grid + 1 = exponent ∧ count = 2 ^ 53 := by
  have step : (0 : Rat) < 2 ^ grid := by positivity
  have least := rounded.least
  have narrow := captures.least_full (full.resolve_right (by omega)) finer rounded
  have fits : (count : Rat) ≤ 2 ^ 53 := by exact_mod_cast rounded.fits
  have below := (abs_le.1 rounded.near).1
  have room : (count : Rat) * 2 ^ grid ≤ 2 ^ 53 * 2 ^ grid := by gcongr
  have lower := captures.lower
  rw [gapBelow, if_pos ⟨narrow, by omega⟩, narrow] at lower
  push_cast at lower
  have next : grid + 1 = exponent := by
    by_contra further
    have quartered : (2 : Rat) ^ grid * 4 ≤ 2 ^ exponent := by
      rw [show (4 : Rat) = 2 ^ (2 : Int) by norm_num, ← zpow_add₀ two_ne_zero]
      exact zpow_le_zpow_right₀ one_le_two (by omega)
    norm_num at lower room
    linarith
  refine ⟨narrow, next, ?_⟩
  have double : (2 : Rat) ^ exponent = 2 ^ grid * 2 := by
    rw [← next, zpow_add_one₀ two_ne_zero]
  rw [double] at lower
  have most := rounded.fits
  have fewest : (2 ^ 53 - 1 : Rat) ≤ count := by
    refine le_of_mul_le_mul_right ?_ step
    norm_num at lower ⊢
    linarith
  have fewest : 2 ^ 53 ≤ count + 1 := by
    have cast : (2 ^ 53 : Rat) ≤ count + 1 := by linarith
    exact_mod_cast cast
  by_contra other
  have odd : count = 2 ^ 53 - 1 := by omega
  have cast : (count : Rat) = 2 ^ 53 - 1 := by
    rw [odd]
    norm_num
  have tie : |(count : Rat) * 2 ^ grid - number| = 2 ^ grid / 2 := by
    refine le_antisymm rounded.near ((neg_le_abs _).trans' ?_)
    rw [cast]
    norm_num at lower ⊢
    linarith
  have even := rounded.even tie
  omega

/-- A number in the interval of a double is rounded to the double. -/
theorem Captures.gridPoint_eq (captures : Captures mantissa exponent number)
    (positive : 0 < mantissa) (fits : mantissa < 2 ^ 53) (least : -1074 ≤ exponent)
    (full : 2 ^ 52 ≤ mantissa ∨ exponent = -1074) (rounded : Rounded number count grid)
    (sign : Sign) : gridPoint sign count grid = .finite sign mantissa exponent positive := by
  rcases (captures.grid_le fits least rounded).lt_or_eq with finer | rfl
  · obtain ⟨rfl, rfl, rfl⟩ := captures.next_grid full finer rounded
    rw [gridPoint, if_pos rfl, assemble_of_pos _ _ positive]
  · obtain rfl := captures.count_eq positive rounded
    rw [gridPoint, if_neg fits.ne, assemble_of_pos _ _ positive]

end

end BenchPrinter.Double
