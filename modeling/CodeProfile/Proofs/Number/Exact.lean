import Mathlib.Data.Rat.Floor
import Mathlib.Tactic.Linarith
import Mathlib.Tactic.NormNum
import Mathlib.Tactic.GCongr
import CodeProfile.Number.Scalar

/-!
# Scoring rules in exact arithmetic

The scoring rules are stated over a `Scalar`. This file gives the rationals
as one, so that a law can read a rule without the rounding of doubles. What
a rule needs of them is said here once: the lesser and the greater of two
are those of the order, bringing into the unit range and rounding to two
decimals keep the order and stay in the range
(`clampUnit_mono`, `round2_mono`), and cutting to two decimals loses less
than a hundredth (`floor2_le`, `lt_floor2_add`).
-/

namespace CodeProfile

/-- The nearest integer, a half going away from zero. -/
def nearestInteger (x : ℚ) : ℤ := if x < 0 then -⌊-x + 1 / 2⌋ else ⌊x + 1 / 2⌋

instance : Scalar ℚ where
  ofNat n := n
  decLE := inferInstance
  decLT := inferInstance
  isNaN _ := false
  round x := nearestInteger x
  floor x := ⌊x⌋

namespace Scalar

variable {x y : ℚ}

theorem ofNat_eq (n : ℕ) : (ofNat n : ℚ) = n := rfl

theorem least_eq_min (x y : ℚ) : least x y = min x y := by
  rw [least, min_def]
  split_ifs with hlt hle hle
  · exact absurd hle (not_le.mpr hlt)
  · rfl
  · rfl
  · exact absurd (not_lt.mp hlt) hle

theorem greatest_eq_max (x y : ℚ) : greatest x y = max x y := by
  rw [greatest, max_def]
  split_ifs with hlt hle hle
  · rfl
  · exact absurd hlt.le hle
  · exact le_antisymm hle (not_lt.mp hlt)
  · rfl

theorem clampUnit_eq (x : ℚ) : clampUnit x = max 0 (min 1 x) := by
  have hzero : (0.0 : ℚ) = 0 := by norm_num
  have hone : (1.0 : ℚ) = 1 := by norm_num
  show (if x < 0.0 then (0.0 : ℚ) else if 1.0 < x then 1.0 else x) = max 0 (min 1 x)
  rw [hzero, hone]
  split_ifs with hneg hbig
  · rw [min_eq_right (by linarith), max_eq_left hneg.le]
  · rw [min_eq_left hbig.le, max_eq_right zero_le_one]
  · rw [min_eq_right (not_lt.mp hbig), max_eq_right (not_lt.mp hneg)]

theorem clampUnit_nonneg (x : ℚ) : 0 ≤ clampUnit x := by
  rw [clampUnit_eq]
  exact le_max_left ..

theorem clampUnit_le_one (x : ℚ) : clampUnit x ≤ 1 := by
  rw [clampUnit_eq]
  exact max_le zero_le_one (min_le_left ..)

theorem clampUnit_mono (h : x ≤ y) : clampUnit x ≤ clampUnit y := by
  rw [clampUnit_eq, clampUnit_eq]
  gcongr

theorem clampUnit_of_mem (hx : 0 ≤ x) (hone : x ≤ 1) : clampUnit x = x := by
  rw [clampUnit_eq, min_eq_right hone, max_eq_right hx]

/-! ## Two decimals -/

theorem nearestInteger_mono (h : x ≤ y) : nearestInteger x ≤ nearestInteger y := by
  rw [nearestInteger, nearestInteger]
  split_ifs with hx hy hy
  · exact neg_le_neg (Int.floor_le_floor (by linarith))
  · have hleft : 0 ≤ ⌊-x + 1 / 2⌋ := Int.floor_nonneg.mpr (by linarith)
    have hright : 0 ≤ ⌊y + 1 / 2⌋ := Int.floor_nonneg.mpr (by linarith)
    omega
  · exact absurd (h.trans_lt hy) hx
  · exact Int.floor_le_floor (by linarith)

theorem round2_eq (x : ℚ) : round2 x = nearestInteger (x * 100) / 100 := by
  show (nearestInteger (x * 100.0) : ℚ) / 100.0 = nearestInteger (x * 100) / 100
  norm_num

theorem round2_mono (h : x ≤ y) : round2 x ≤ round2 y := by
  rw [round2_eq, round2_eq]
  have hscaled : x * 100 ≤ y * 100 := by linarith
  gcongr
  exact nearestInteger_mono hscaled

theorem round2_nonneg (h : 0 ≤ x) : 0 ≤ round2 x := by
  have hzero : round2 (0 : ℚ) = 0 := by
    rw [round2_eq]
    norm_num [nearestInteger]
  exact hzero ▸ round2_mono h

theorem round2_le_one (h : x ≤ 1) : round2 x ≤ 1 := by
  have hone : round2 (1 : ℚ) = 1 := by
    rw [round2_eq]
    norm_num [nearestInteger]
  exact hone ▸ round2_mono h

theorem floor2_eq (x : ℚ) : floor2 x = ⌊x * 100⌋ / 100 := by
  show (⌊x * 100.0⌋ : ℚ) / 100.0 = ⌊x * 100⌋ / 100
  norm_num

theorem floor2_le (x : ℚ) : floor2 x ≤ x := by
  have hfloor := Int.floor_le (x * 100)
  rw [floor2_eq]
  linarith

theorem lt_floor2_add (x : ℚ) : x < floor2 x + 1 / 100 := by
  have hfloor := Int.lt_floor_add_one (x * 100)
  rw [floor2_eq]
  linarith

theorem floor2_nonneg (h : 0 ≤ x) : 0 ≤ floor2 x := by
  have hfloor : 0 ≤ ⌊x * 100⌋ := Int.floor_nonneg.mpr (by linarith)
  rw [floor2_eq]
  positivity

end Scalar

end CodeProfile
