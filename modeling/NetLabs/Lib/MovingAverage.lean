import Mathlib.Data.Nat.Basic
import Mathlib.Tactic.Common
import Mathlib.Tactic.Linarith

/-!
# Fixed-point moving averages

An exponentially weighted moving average, kept as a natural number scaled so that the weight of
a new sample is `1 / w`: the scaled average `a` loses `a / w` and gains the sample `x`. It
settles where `a / w = x`, so a bound `b` on the samples is a bound `b * w` on the average
(`next_lt`), and a sample above `b` pushes every average below `b * w` upwards
(`min_le_next`, `add_le_next`).
-/

namespace NetLabs.Lib
namespace MovingAverage

/-- The average after the sample `x`. -/
def next (w x a : ℕ) : ℕ := a - a / w + x

variable {w x a b d : ℕ}

lemma next_mono : Monotone (next w x) := by
  apply monotone_nat_of_le_succ
  intro a
  unfold next
  have hle : a / w ≤ a := Nat.div_le_self a w
  have hstep : (a + 1) / w ≤ a / w + 1 := by
    rw [Nat.succ_div]
    split
    · omega
    · omega
  omega

lemma next_mul (hw : 0 < w) : next w x (b * w) = b * w - b + x := by
  unfold next
  rw [Nat.mul_div_cancel b hw]

/-- Samples below `b` keep the average below `b * w`. -/
theorem next_lt (hw : 0 < w) (ha : a < b * w) (hx : x < b) : next w x a < b * w := by
  have hle : next w x a ≤ next w x (b * w - 1) := next_mono (by omega)
  have hdiv : (b * w - 1) / w = b - 1 := by
    obtain ⟨c, rfl⟩ : ∃ c, b = c + 1 := ⟨b - 1, by omega⟩
    rw [Nat.add_mul, Nat.one_mul, Nat.add_sub_assoc hw, Nat.add_comm (c * w),
      Nat.add_mul_div_right _ _ hw, Nat.div_eq_of_lt (by omega), Nat.zero_add]
    omega
  have hbw : b ≤ b * w := Nat.le_mul_of_pos_right b hw
  unfold next at hle ⊢
  rw [hdiv] at hle
  omega

/-- A sample of at least `b` lowers no average that is at most `b * w`, and leaves one that is
more than that above it. -/
theorem min_le_next (hw : 0 < w) (hx : b ≤ x) : min a (b * w) ≤ next w x a := by
  have hmono : next w x (min a (b * w)) ≤ next w x a := next_mono (Nat.min_le_left _ _)
  have hdiv : min a (b * w) / w ≤ b := by
    have := Nat.div_le_div_right (c := w) (Nat.min_le_right a (b * w))
    rwa [Nat.mul_div_cancel b hw] at this
  have hself : min a (b * w) / w ≤ min a (b * w) := Nat.div_le_self _ _
  refine le_trans ?_ hmono
  unfold next
  omega

/-- A sample that is `d` above `b` raises the average by `d` at least, unless it ends up above
`b * w`. -/
theorem add_le_next (hw : 0 < w) (hx : b + d ≤ x) (h : next w x a < b * w) :
    a + d ≤ next w x a := by
  have hbw : b ≤ b * w := Nat.le_mul_of_pos_right b hw
  have hlt : a < b * w := by
    by_contra hge
    have hmono : next w x (b * w) ≤ next w x a := next_mono (not_lt.mp hge)
    rw [next_mul hw] at hmono
    omega
  have hdiv : a / w < b := (Nat.div_lt_iff_lt_mul hw).mpr hlt
  have hself : a / w ≤ a := Nat.div_le_self a w
  unfold next
  omega

end MovingAverage
end NetLabs.Lib
