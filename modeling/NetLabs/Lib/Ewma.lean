import Mathlib.Data.Nat.Cast.Order.Field
import Mathlib.Data.Rat.Cast.Order
import Mathlib.Tactic.FieldSimp
import Mathlib.Tactic.Positivity
import Mathlib.Tactic.Ring
import NetLabs.Lib.MovingAverage

/-!
# Moving averages and their fixed-point versions

The exponentially weighted moving average of a sequence of samples, as a rational number, and the
fixed-point average `MovingAverage.next` that stands for it. Each step of the latter rounds a
quotient down, and the weight makes up for the errors before it: however many samples there are, the
fixed-point average is never below the exact one, and above it by less than one unit of the samples
(`Near.next`).
-/

namespace NetLabs.Lib
namespace MovingAverage

/-- The moving average after the sample `x`, which counts with the weight `wq`. -/
def ewma (wq avg x : ℚ) : ℚ := (1 - wq) * avg + wq * x

/-- The fixed-point average `a`, in units of `1 / (w * s)`, is at most `(w - 1)` of these units
above the exact average. -/
structure Near (w s : ℕ) (avg : ℚ) (a : ℕ) : Prop where
  ge : avg * (w * s) ≤ a
  le : a ≤ avg * (w * s) + (w - 1)

variable {w s a x : ℕ} {avg y : ℚ}

/-- **A sample keeps the two averages together.** -/
theorem Near.next (h : Near w s avg a) (hw : 0 < w) (x : ℕ) :
    Near w s (ewma (1 / w) avg x) (next w (x * s) a) := by
  have hw' : (0 : ℚ) < w := by exact_mod_cast hw
  have hle : a / w ≤ a := Nat.div_le_self a w
  -- the quotient that is subtracted, and what rounding it down leaves
  have hlow : ((a / w : ℕ) : ℚ) ≤ a / w := Nat.cast_div_le
  have hhigh : (a : ℚ) / w ≤ (a / w : ℕ) + (w - 1) / w := by
    rw [div_le_iff₀ hw', add_mul, div_mul_cancel₀ _ hw'.ne']
    have hmod := Nat.mod_lt a hw
    have hsplit := Nat.div_add_mod' a w
    have hsplit' : ((a / w : ℕ) : ℚ) * w + (a % w : ℕ) = a := by exact_mod_cast hsplit
    have hmod' : ((a % w : ℕ) : ℚ) + 1 ≤ w := by exact_mod_cast hmod
    linarith
  have hnext : ((MovingAverage.next w (x * s) a : ℕ) : ℚ) = a - (a / w : ℕ) + x * s := by
    unfold MovingAverage.next
    rw [Nat.cast_add, Nat.cast_sub hle, Nat.cast_mul]
  have hexact : ewma (1 / w) avg x * (w * s) =
      avg * (w * s) - avg * (w * s) / w + x * s := by
    unfold ewma
    field_simp
  -- an error `e` becomes `e * (1 - 1 / w)`, and a fraction below 1 comes in addition
  have hshrink : 0 ≤ ((a : ℚ) - avg * (w * s)) * (1 - 1 / w) := by
    apply mul_nonneg (sub_nonneg.mpr h.ge)
    rw [sub_nonneg, div_le_one hw']
    exact_mod_cast hw
  have hshrink' : ((a : ℚ) - avg * (w * s)) * (1 - 1 / w) ≤ (w - 1) * (1 - 1 / w) := by
    apply mul_le_mul_of_nonneg_right (by linarith [h.le])
    rw [sub_nonneg, div_le_one hw']
    exact_mod_cast hw
  have hexpand : ((a : ℚ) - avg * (w * s)) * (1 - 1 / w) =
      a - a / w - (avg * (w * s) - avg * (w * s) / w) := by ring
  have hlast : ((w : ℚ) - 1) * (1 - 1 / w) + (w - 1) / w = w - 1 := by
    field_simp
    ring
  refine ⟨?_, ?_⟩
  · rw [hnext, hexact]
    linarith
  · rw [hnext, hexact]
    linarith

/-- The two averages on the same side of a bound. -/
lemma Near.lt_of_add_le (h : Near w s avg a) (hw : 0 < w) (hs : 0 < s) {b : ℕ}
    (hb : avg + 1 / s ≤ b) : a < b * (w * s) := by
  have hpos : (0 : ℚ) < w * s := by positivity
  have hs' : (0 : ℚ) < s := by exact_mod_cast hs
  have hscaled : (avg + 1 / s) * (w * s) ≤ b * (w * s) := mul_le_mul_of_nonneg_right hb hpos.le
  have hunit : (avg + 1 / s) * (w * s) = avg * (w * s) + w := by field_simp
  have hlt : (a : ℚ) < b * (w * s) := by linarith [h.le]
  exact_mod_cast hlt

lemma Near.le_of_le (h : Near w s avg a) {b : ℕ} (hb : b ≤ avg) : b * (w * s) ≤ a := by
  have hscaled : (b : ℚ) * (w * s) ≤ avg * (w * s) :=
    mul_le_mul_of_nonneg_right hb (by positivity)
  have hle : (b : ℚ) * (w * s) ≤ a := le_trans hscaled h.ge
  exact_mod_cast hle

end MovingAverage
end NetLabs.Lib
