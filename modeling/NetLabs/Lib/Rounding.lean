import Mathlib.Data.Int.Log
import Mathlib.Data.Nat.Cast.Order.Field
import Mathlib.Data.Rat.Floor
import Mathlib.Tactic.Linarith
import Mathlib.Tactic.NormNum
import Mathlib.Tactic.SplitIfs

/-!
# Rounding to a binary floating-point format

Numbers that are not negative, rounded to the nearest one with `f` fraction bits after the leading
one, ties to even. The exponent is not bounded: this is what a format computes as long as nothing
overflows and nothing is subnormal. Rounding keeps the order (`roundTo_mono`), and a power of two
that bounds a number bounds the rounded number too (`zpow_le_roundTo`, `roundTo_le_zpow`). The error
is at most a unit in the last place (`roundTo_error`), which the quotient of two integers survives
if it is rounded down afterwards (`floor_roundTo_div`).
-/

namespace NetLabs.Lib

/-- The nearest integer, ties to even. -/
def roundEven (x : ℚ) : ℤ :=
  if x - ⌊x⌋ < 1 / 2 then ⌊x⌋
  else if 1 / 2 < x - ⌊x⌋ then ⌊x⌋ + 1
  else if 2 ∣ ⌊x⌋ then ⌊x⌋ else ⌊x⌋ + 1

/-- The unit in the last place. -/
def ulp (f : ℕ) (x : ℚ) : ℚ := 2 ^ (Int.log 2 x - f)

/-- The nearest number with `f` fraction bits. -/
def roundTo (f : ℕ) (x : ℚ) : ℚ := roundEven (x / ulp f x) * ulp f x

variable {f : ℕ} {x y : ℚ}

/-! ## Integers -/

lemma floor_le_roundEven (x : ℚ) : ⌊x⌋ ≤ roundEven x := by
  unfold roundEven
  split_ifs
  · exact le_refl _
  · omega
  · exact le_refl _
  · omega

lemma roundEven_le_floor_add_one (x : ℚ) : roundEven x ≤ ⌊x⌋ + 1 := by
  unfold roundEven
  split_ifs
  · omega
  · exact le_refl _
  · omega
  · exact le_refl _

lemma roundEven_intCast (n : ℤ) : roundEven n = n := by
  unfold roundEven
  rw [Int.floor_intCast, sub_self, if_pos (by norm_num)]

lemma roundEven_mono (h : x ≤ y) : roundEven x ≤ roundEven y := by
  rcases lt_or_eq_of_le (Int.floor_le_floor h) with hlt | heq
  · have hx := roundEven_le_floor_add_one x
    have hy := floor_le_roundEven y
    omega
  · -- between the same two integers the fraction decides
    unfold roundEven
    rw [heq]
    split_ifs
    all_goals first | omega | linarith

/-! ## Floating-point numbers -/

lemma ulp_pos (f : ℕ) (x : ℚ) : 0 < ulp f x := by
  unfold ulp
  exact zpow_pos (by norm_num) _

lemma zpow_mul_ulp (k : ℤ) (f : ℕ) (x : ℚ) :
    (2 : ℚ) ^ (k + f) * ulp f x = 2 ^ (k + Int.log 2 x) := by
  unfold ulp
  rw [← zpow_add₀ (by norm_num : (2 : ℚ) ≠ 0)]
  congr 1
  omega

lemma roundTo_zero (f : ℕ) : roundTo f 0 = 0 := by
  unfold roundTo
  rw [zero_div, show (0 : ℚ) = (0 : ℤ) from rfl, roundEven_intCast]
  simp

/-- A number between two multiples of its last place stays between them. -/
lemma mul_ulp_le_roundTo {n : ℤ} (h : n * ulp f x ≤ x) : n * ulp f x ≤ roundTo f x := by
  have hdiv : (n : ℚ) ≤ x / ulp f x := (le_div_iff₀ (ulp_pos f x)).mpr h
  have hround := roundEven_mono hdiv
  rw [roundEven_intCast] at hround
  unfold roundTo
  exact mul_le_mul_of_nonneg_right (by exact_mod_cast hround) (ulp_pos f x).le

lemma roundTo_le_mul_ulp {n : ℤ} (h : x ≤ n * ulp f x) : roundTo f x ≤ n * ulp f x := by
  have hdiv : x / ulp f x ≤ (n : ℚ) := (div_le_iff₀ (ulp_pos f x)).mpr h
  have hround := roundEven_mono hdiv
  rw [roundEven_intCast] at hround
  unfold roundTo
  exact mul_le_mul_of_nonneg_right (by exact_mod_cast hround) (ulp_pos f x).le

lemma pow_mul_ulp (f : ℕ) (x : ℚ) : ((2 ^ f : ℤ) : ℚ) * ulp f x = 2 ^ Int.log 2 x := by
  have h := zpow_mul_ulp 0 f x
  rw [zero_add, zero_add, zpow_natCast] at h
  exact_mod_cast h

lemma pow_succ_mul_ulp (f : ℕ) (x : ℚ) :
    ((2 ^ (f + 1) : ℤ) : ℚ) * ulp f x = 2 ^ (Int.log 2 x + 1) := by
  have h := zpow_mul_ulp 1 f x
  rw [add_comm 1, add_comm 1, ← Nat.cast_one, ← Nat.cast_add, zpow_natCast] at h
  exact_mod_cast h

/-- Rounding stays in the binade. -/
lemma zpow_log_le_roundTo (hx : 0 < x) : 2 ^ Int.log 2 x ≤ roundTo f x := by
  rw [← pow_mul_ulp f x]
  apply mul_ulp_le_roundTo
  rw [pow_mul_ulp]
  exact Int.zpow_log_le_self (by norm_num) hx

lemma roundTo_le_zpow_log_succ (f : ℕ) (x : ℚ) : roundTo f x ≤ 2 ^ (Int.log 2 x + 1) := by
  rw [← pow_succ_mul_ulp f x]
  apply roundTo_le_mul_ulp
  rw [pow_succ_mul_ulp]
  exact (Int.lt_zpow_succ_log_self (by norm_num) x).le

lemma roundTo_nonneg (hx : 0 ≤ x) : 0 ≤ roundTo f x := by
  rcases eq_or_lt_of_le hx with rfl | hx
  · rw [roundTo_zero]
  · exact le_trans (zpow_pos (by norm_num) _).le (zpow_log_le_roundTo hx)

/-- **Rounding keeps the order.** -/
theorem roundTo_mono (hx : 0 ≤ x) (h : x ≤ y) : roundTo f x ≤ roundTo f y := by
  rcases eq_or_lt_of_le hx with rfl | hx
  · rw [roundTo_zero]
    exact roundTo_nonneg h
  · have hlog : Int.log 2 x ≤ Int.log 2 y := Int.log_mono_right hx h
    rcases lt_or_eq_of_le hlog with hlt | heq
    · calc roundTo f x ≤ 2 ^ (Int.log 2 x + 1) := roundTo_le_zpow_log_succ f x
        _ ≤ 2 ^ Int.log 2 y := zpow_le_zpow_right₀ (by norm_num) hlt
        _ ≤ roundTo f y := zpow_log_le_roundTo (lt_of_lt_of_le hx h)
    · have hulp : ulp f x = ulp f y := by
        unfold ulp
        rw [heq]
      have hround := roundEven_mono (div_le_div_of_nonneg_right h (ulp_pos f y).le)
      unfold roundTo
      rw [hulp]
      exact mul_le_mul_of_nonneg_right (by exact_mod_cast hround) (ulp_pos f y).le

/-- A power of two is its own rounding. -/
lemma roundTo_zpow (f : ℕ) (k : ℤ) : roundTo f (2 ^ k) = 2 ^ k := by
  have hlog : Int.log 2 ((2 : ℚ) ^ k) = k := Int.log_zpow (R := ℚ) (b := 2) (by norm_num) k
  apply le_antisymm
  · have h := roundTo_le_mul_ulp (f := f) (x := 2 ^ k) (n := 2 ^ f)
    rw [pow_mul_ulp, hlog] at h
    exact h (le_refl _)
  · have h := zpow_log_le_roundTo (f := f) (x := 2 ^ k) (zpow_pos (by norm_num) k)
    rwa [hlog] at h

theorem zpow_le_roundTo {k : ℤ} (h : 2 ^ k ≤ x) : 2 ^ k ≤ roundTo f x := by
  rw [← roundTo_zpow f k]
  exact roundTo_mono (zpow_pos (by norm_num) k).le h

theorem roundTo_le_zpow {k : ℤ} (hx : 0 ≤ x) (h : x ≤ 2 ^ k) : roundTo f x ≤ 2 ^ k := by
  rw [← roundTo_zpow f k]
  exact roundTo_mono hx h

/-- **The error of rounding** is at most a unit in the last place. -/
theorem roundTo_error (hx : 0 ≤ x) : x - x / 2 ^ f ≤ roundTo f x ∧ roundTo f x ≤ x + x / 2 ^ f := by
  rcases eq_or_lt_of_le hx with rfl | hx
  · rw [roundTo_zero, zero_div, sub_zero, add_zero]
    exact ⟨le_refl _, le_refl _⟩
  have hulp := ulp_pos f x
  have hlast : ulp f x ≤ x / 2 ^ f := by
    rw [le_div_iff₀ (pow_pos (by norm_num) f), mul_comm]
    calc (2 : ℚ) ^ f * ulp f x = ((2 ^ f : ℤ) : ℚ) * ulp f x := by push_cast; rfl
      _ = 2 ^ Int.log 2 x := pow_mul_ulp f x
      _ ≤ x := Int.zpow_log_le_self (by norm_num) hx
  -- in units of the last place, both are within the same unit
  obtain ⟨y, hy⟩ : ∃ y, x / ulp f x = y := ⟨_, rfl⟩
  have hxy : x = y * ulp f x := by rw [← hy, div_mul_cancel₀ x hulp.ne']
  have hround : roundTo f x = roundEven y * ulp f x := by rw [roundTo, hy]
  have hlow : ((⌊y⌋ : ℤ) : ℚ) ≤ roundEven y := by exact_mod_cast floor_le_roundEven y
  have hhigh : (roundEven y : ℚ) ≤ ⌊y⌋ + 1 := by exact_mod_cast roundEven_le_floor_add_one y
  have hfloor := Int.floor_le y
  have hceil := Int.lt_floor_add_one y
  have hbelow : (y - 1) * ulp f x ≤ roundEven y * ulp f x :=
    mul_le_mul_of_nonneg_right (by linarith) hulp.le
  have habove : roundEven y * ulp f x ≤ (y + 1) * ulp f x :=
    mul_le_mul_of_nonneg_right (by linarith) hulp.le
  rw [sub_mul, one_mul, ← hxy] at hbelow
  rw [add_mul, one_mul, ← hxy] at habove
  rw [hround]
  exact ⟨by linarith, by linarith⟩

/-- An integer of at most `f + 1` bits is its own rounding. -/
lemma roundTo_natCast {n : ℕ} (h : n < 2 ^ (f + 1)) : roundTo f n = n := by
  rcases Nat.eq_zero_or_pos n with rfl | hpos
  · rw [Nat.cast_zero, roundTo_zero]
  have hlog : Int.log 2 (n : ℚ) ≤ f := by
    have hlt : Int.log 2 (n : ℚ) < (f + 1 : ℕ) := by
      rw [← Int.lt_zpow_iff_log_lt (by norm_num) (by exact_mod_cast hpos)]
      exact_mod_cast h
    omega
  obtain ⟨k, hk⟩ : ∃ k : ℕ, (f : ℤ) - Int.log 2 (n : ℚ) = k := Int.eq_ofNat_of_zero_le (by omega)
  have hulp : ulp f (n : ℚ) = (2 ^ k : ℚ)⁻¹ := by
    unfold ulp
    rw [← zpow_natCast, ← zpow_neg, ← hk, neg_sub]
  have hquot : (n : ℚ) / ulp f n = ((n * 2 ^ k : ℕ) : ℤ) := by
    rw [hulp, div_inv_eq_mul]
    push_cast
    rfl
  unfold roundTo
  rw [hquot, roundEven_intCast, ← hquot, div_mul_cancel₀ _ (ulp_pos f _).ne']

/-- **The quotient of two integers** is rounded down to the same integer before and after it is
rounded to a number with `f` fraction bits. -/
theorem floor_roundTo_div {n d : ℕ} (hd : 0 < d) (hn : n < 2 ^ f) :
    ⌊roundTo f ((n : ℚ) / d)⌋₊ = n / d := by
  have hd' : (0 : ℚ) < d := by exact_mod_cast hd
  have hquot : 0 ≤ (n : ℚ) / d := div_nonneg (Nat.cast_nonneg n) hd'.le
  have hle : n / d ≤ n := Nat.div_le_self n d
  rw [Nat.floor_eq_iff (roundTo_nonneg hquot)]
  constructor
  · -- the integer is a number of the format, and no rounding crosses it
    rw [← roundTo_natCast (f := f) (n := n / d) (by rw [pow_succ]; omega)]
    exact roundTo_mono (Nat.cast_nonneg _) Nat.cast_div_le
  · have hnext : (n : ℚ) + 1 ≤ d * ((n / d : ℕ) + 1) := by
      exact_mod_cast Nat.lt_mul_div_succ n hd
    have herror : (n : ℚ) / 2 ^ f < 1 := by
      rw [div_lt_one (pow_pos (by norm_num) f)]
      exact_mod_cast hn
    calc roundTo f ((n : ℚ) / d) ≤ n / d + n / d / 2 ^ f := (roundTo_error hquot).2
      _ = (n + n / 2 ^ f) / d := by ring
      _ < (n / d : ℕ) + 1 := by
        rw [div_lt_iff₀ hd']
        linarith

end NetLabs.Lib
