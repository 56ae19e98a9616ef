import Mathlib.Algebra.Order.Floor.Ring
import Mathlib.Data.Int.Log
import Mathlib.Data.Rat.Floor
import Mathlib.Tactic

/-!
# Rounding to binary64

`double q` is the number with a significand of 53 bits that is nearest to the
rational `q`; of two nearest ones it is the one with the even significand. The
exponent is unbounded, so the function is the rounding of binary64 wherever that
neither overflows nor leaves the normal numbers. It is computable: a calculation in
doubles is evaluated by rounding each of its results.

* `abs_roundEven_sub_le`: rounding to an integer errs by half a unit at most.
* `double_le_double`: rounding keeps the order of nonnegative numbers.
-/

namespace Lib

/-- The nearest integer, the even one of two. -/
def roundEven (q : ℚ) : ℤ :=
  if q - ⌊q⌋ < 1 / 2 then ⌊q⌋
  else if 1 / 2 < q - ⌊q⌋ then ⌊q⌋ + 1
  else if ⌊q⌋ % 2 = 0 then ⌊q⌋ else ⌊q⌋ + 1

/-- The distance of neighbouring doubles in the binade of `q`. -/
def ulp (q : ℚ) : ℚ := 2 ^ (Int.log 2 |q| - 52)

/-- The double nearest to `q`. -/
def double (q : ℚ) : ℚ := roundEven (q / ulp q) * ulp q

/-- Exact arithmetic: no result is rounded. -/
@[reducible] def unrounded (q : ℚ) : ℚ := q

/-! ## Rounding to integers -/

theorem abs_roundEven_sub_le (q : ℚ) : |roundEven q - q| ≤ 1 / 2 := by
  have hfloor := Int.floor_le q
  have hlt := Int.lt_floor_add_one q
  unfold roundEven
  rw [abs_le]
  split_ifs <;> push_cast <;> constructor <;> linarith

theorem roundEven_intCast (n : ℤ) : roundEven n = n := by
  unfold roundEven
  rw [Int.floor_intCast, sub_self, if_pos (by norm_num)]

/-- Two numbers that were rounded past each other would have to be equal. -/
theorem roundEven_le_roundEven {x y : ℚ} (h : x ≤ y) : roundEven x ≤ roundEven y := by
  by_contra hcross
  have hstep : (roundEven y : ℚ) + 1 ≤ roundEven x := by exact_mod_cast not_le.mp hcross
  have hx := (abs_le.mp (abs_roundEven_sub_le x)).2
  have hy := (abs_le.mp (abs_roundEven_sub_le y)).1
  have : x = y := by linarith
  exact hcross (this ▸ le_refl _)

theorem le_roundEven {x : ℚ} {n : ℤ} (h : n ≤ x) : n ≤ roundEven x :=
  roundEven_intCast n ▸ roundEven_le_roundEven h

theorem roundEven_le {x : ℚ} {n : ℤ} (h : x ≤ n) : roundEven x ≤ n :=
  roundEven_intCast n ▸ roundEven_le_roundEven h

/-! ## Rounding to doubles -/

variable {x y : ℚ}

theorem ulp_pos (q : ℚ) : 0 < ulp q := zpow_pos two_pos _

theorem zpow_eq_mul_ulp (q : ℚ) (k : ℕ) : 2 ^ (Int.log 2 |q| - 52 + k) = (2 ^ k : ℤ) * ulp q := by
  rw [ulp, zpow_add₀ two_ne_zero, mul_comm]
  norm_cast

/-- A positive double is at least the power of two at the foot of its binade. -/
theorem le_double (h : 0 < x) : 2 ^ Int.log 2 x ≤ double x := by
  have hfoot : (2 : ℚ) ^ Int.log 2 x = (2 ^ 52 : ℤ) * ulp x := by
    rw [← zpow_eq_mul_ulp, abs_of_pos h]
    norm_num
  have hbelow : ((2 ^ 52 : ℤ) : ℚ) ≤ x / ulp x := by
    rw [le_div_iff₀ (ulp_pos x), ← hfoot]
    exact Int.zpow_log_le_self one_lt_two h
  rw [hfoot]
  exact mul_le_mul_of_nonneg_right (by exact_mod_cast le_roundEven hbelow) (ulp_pos x).le

/-- A positive double is at most the power of two at the top of its binade. -/
theorem double_le (h : 0 < x) : double x ≤ 2 ^ (Int.log 2 x + 1) := by
  have htop : (2 : ℚ) ^ (Int.log 2 x + 1) = (2 ^ 53 : ℤ) * ulp x := by
    rw [← zpow_eq_mul_ulp, abs_of_pos h]
    congr 1
    push_cast
    ring
  have habove : x / ulp x ≤ ((2 ^ 53 : ℤ) : ℚ) := by
    rw [div_le_iff₀ (ulp_pos x), ← htop]
    exact (Int.lt_zpow_succ_log_self one_lt_two x).le
  rw [htop]
  exact mul_le_mul_of_nonneg_right (by exact_mod_cast roundEven_le habove) (ulp_pos x).le

theorem double_zero : double 0 = 0 := by
  have hzero : roundEven 0 = 0 := roundEven_intCast 0
  rw [double, zero_div, hzero, Int.cast_zero, zero_mul]

/-- **Rounding keeps the order.** Inside a binade the significands are rounded in
    order; from one binade to the next a power of two lies between the results. -/
theorem double_le_double (hx : 0 ≤ x) (h : x ≤ y) : double x ≤ double y := by
  rcases hx.eq_or_lt with rfl | hpos
  · rw [double_zero]
    rcases h.eq_or_lt with rfl | hy
    · rw [double_zero]
    · exact (zpow_pos two_pos _).le.trans (le_double hy)
  have hy : 0 < y := hpos.trans_le h
  rcases (Int.log_mono_right (b := 2) hpos h).eq_or_lt with heq | hlt
  · have hulp : ulp x = ulp y := by
      unfold ulp
      rw [abs_of_pos hpos, abs_of_pos hy, heq]
    unfold double
    rw [hulp]
    refine mul_le_mul_of_nonneg_right ?_ (ulp_pos y).le
    exact_mod_cast roundEven_le_roundEven (div_le_div_of_nonneg_right h (ulp_pos y).le)
  · calc double x ≤ 2 ^ (Int.log 2 x + 1) := double_le hpos
      _ ≤ 2 ^ Int.log 2 y := zpow_le_zpow_right₀ one_le_two hlt
      _ ≤ double y := le_double hy

theorem double_monotoneOn : MonotoneOn double (Set.Ici 0) := fun _ hx _ _ h => double_le_double hx h

/-- Seven tenths are rounded down. -/
example : double (7 / 10) < 7 / 10 ∧ double (3 / 10) < 3 / 10 ∧ double (17 / 20) < 17 / 20 ∧
    double (1 / 2) = 1 / 2 := by decide +kernel

end Lib
