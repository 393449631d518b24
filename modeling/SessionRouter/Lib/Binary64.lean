import Mathlib.Data.Int.Log
import Mathlib.Data.Rat.Floor
import Mathlib.Tactic.FieldSimp
import Mathlib.Tactic.Linarith
import Mathlib.Tactic.Positivity

/-!
# Rounding to binary64
-/

namespace Lib.Binary64

def roundHalfEven (q : ℚ) : ℤ :=
  if q - ⌊q⌋ < 1 / 2 then ⌊q⌋
  else if 1 / 2 < q - ⌊q⌋ then ⌊q⌋ + 1
  else if ⌊q⌋ % 2 = 0 then ⌊q⌋ else ⌊q⌋ + 1

theorem abs_roundHalfEven_sub_le (q : ℚ) : |(roundHalfEven q : ℚ) - q| ≤ 1 / 2 := by
  have hlow := Int.floor_le q
  have hhigh := Int.lt_floor_add_one q
  rw [abs_le]
  unfold roundHalfEven
  split
  · constructor <;> linarith
  · split
    · push_cast
      constructor <;> linarith
    · split
      · constructor <;> linarith
      · push_cast
        constructor <;> linarith

theorem roundHalfEven_eq {q : ℚ} {n : ℤ} (h : |q - n| < 1 / 2) : roundHalfEven q = n := by
  have hround := abs_le.mp (abs_roundHalfEven_sub_le q)
  have hnear := abs_lt.mp h
  have hbelow : ((roundHalfEven q - n : ℤ) : ℚ) < 1 := by
    push_cast
    linarith
  have habove : (-1 : ℚ) < ((roundHalfEven q - n : ℤ) : ℚ) := by
    push_cast
    linarith
  have hbelow : roundHalfEven q - n < 1 := by exact_mod_cast hbelow
  have habove : -1 < roundHalfEven q - n := by exact_mod_cast habove
  omega

@[simp] theorem roundHalfEven_intCast (n : ℤ) : roundHalfEven n = n := roundHalfEven_eq (by simp)

def ulp (q : ℚ) : ℚ :=
  2 ^ (Int.log 2 |q| - 52)

def nearest (q : ℚ) : ℚ :=
  if q = 0 then 0 else roundHalfEven (q / ulp q) * ulp q

theorem ulp_pos (q : ℚ) : 0 < ulp q := zpow_pos (by norm_num) _

theorem ulp_le {q : ℚ} (h : q ≠ 0) : ulp q ≤ |q| / 2 ^ 52 := by
  rw [ulp, zpow_sub₀ (by norm_num)]
  have hlog := Int.zpow_log_le_self (b := 2) (by norm_num) (abs_pos.mpr h)
  exact div_le_div_of_nonneg_right (by exact_mod_cast hlog) (by positivity)

theorem abs_nearest_sub_le (q : ℚ) : |nearest q - q| ≤ |q| / 2 ^ 53 := by
  unfold nearest
  split
  · next h => simp [h]
  · next h =>
    have hpos := ulp_pos q
    have hscale : (roundHalfEven (q / ulp q) : ℚ) * ulp q - q =
        (roundHalfEven (q / ulp q) - q / ulp q) * ulp q := by
      field_simp
    calc |(roundHalfEven (q / ulp q) : ℚ) * ulp q - q|
        = |(roundHalfEven (q / ulp q) : ℚ) - q / ulp q| * ulp q := by
          rw [hscale, abs_mul, abs_of_pos hpos]
      _ ≤ 1 / 2 * (|q| / 2 ^ 52) := by
          exact mul_le_mul (abs_roundHalfEven_sub_le _) (ulp_le h) hpos.le (by norm_num)
      _ = |q| / 2 ^ 53 := by ring

theorem abs_nearest_sub_le_of {q r e : ℚ} (he : e ≤ 1) (h : |r - q| ≤ e * |q|) :
    |nearest r - q| ≤ (e + 1 / 2 ^ 52) * |q| := by
  have hround := abs_nearest_sub_le r
  have hsize : |r| ≤ 2 * |q| := by
    have htriangle := abs_add_le (r - q) q
    rw [sub_add_cancel] at htriangle
    nlinarith [abs_nonneg q]
  calc |nearest r - q| ≤ |nearest r - r| + |r - q| := abs_sub_le _ _ _
    _ ≤ 2 * |q| / 2 ^ 53 + e * |q| := by
        refine add_le_add (hround.trans ?_) h
        exact div_le_div_of_nonneg_right hsize (by positivity)
    _ = (e + 1 / 2 ^ 52) * |q| := by ring

theorem abs_nearest_mul_sub_le (count unit scale : ℚ) :
    |nearest (nearest (count * nearest unit) * scale) - count * unit * scale| ≤
      |count * unit * scale| / 2 ^ 50 := by
  have hscaled {q r e : ℚ} (x : ℚ) (h : |r - q| ≤ e * |q|) : |r * x - q * x| ≤ e * |q * x| := by
    rw [← sub_mul, abs_mul, abs_mul, ← mul_assoc]
    exact mul_le_mul_of_nonneg_right h (abs_nonneg x)
  have hunit : |nearest unit - unit| ≤ 1 / 2 ^ 52 * |unit| := by
    have hsmall : ((2 ^ 53)⁻¹ : ℚ) ≤ 1 / 2 ^ 52 := by norm_num
    refine (abs_nearest_sub_le unit).trans ?_
    rw [div_eq_inv_mul]
    exact mul_le_mul_of_nonneg_right hsmall (abs_nonneg unit)
  have hproduct := abs_nearest_sub_le_of (by norm_num) (hscaled count hunit)
  have hresult := abs_nearest_sub_le_of (by norm_num) (hscaled scale hproduct)
  rw [mul_comm count (nearest unit), mul_comm count unit]
  refine hresult.trans ?_
  have hsmall : (1 / 2 ^ 52 + 1 / 2 ^ 52 + 1 / 2 ^ 52 : ℚ) ≤ 1 / 2 ^ 50 := by norm_num
  rw [div_eq_mul_one_div |_| (2 ^ 50 : ℚ), mul_comm |_| (1 / 2 ^ 50 : ℚ)]
  exact mul_le_mul_of_nonneg_right hsmall (abs_nonneg _)

theorem intCast_div_ulp {n : ℤ} (hzero : n ≠ 0) (h : |n| < 2 ^ 53) :
    ∃ m : ℤ, (n : ℚ) / ulp n = m := by
  have hlog : Int.log 2 |(n : ℚ)| ≤ 52 := by
    refine Int.lt_add_one_iff.mp ((Int.lt_zpow_iff_log_lt (by norm_num) ?_).mp ?_)
    · exact abs_pos.mpr (by exact_mod_cast hzero)
    · exact_mod_cast h
  obtain ⟨shift, hshift⟩ := Int.eq_ofNat_of_zero_le (sub_nonneg.mpr hlog)
  refine ⟨n * 2 ^ shift, ?_⟩
  rw [ulp, ← neg_sub, hshift, zpow_neg, div_inv_eq_mul]
  push_cast
  rfl

theorem nearest_intCast {n : ℤ} (h : |n| < 2 ^ 53) : nearest n = n := by
  unfold nearest
  split
  · next hzero => exact hzero.symm
  · next hzero =>
    obtain ⟨m, hm⟩ := intCast_div_ulp (by exact_mod_cast hzero) h
    rw [hm, roundHalfEven_intCast, ← hm, div_mul_cancel₀ _ (ulp_pos _).ne']

end Lib.Binary64
