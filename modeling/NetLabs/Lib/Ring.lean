import Mathlib.Data.Int.ModEq
import Mathlib.Logic.Function.Basic
import Mathlib.Tactic.Common
import Mathlib.Tactic.Linarith

/-!
# Rings: fixed arrays addressed modulo their length

`Ring n α` is an array of `n` cells in which the entry numbered `i` lives in cell `i % n`.
Entries whose numbers are less than `n` apart never share a cell (`slot_injOn`), which is
all that a sliding window over a ring needs (`get_set_of_near`).
-/

namespace NetLabs.Lib

/-- An array of `n` cells. -/
@[ext] structure Ring (n : ℕ) (α : Type*) where
  cell : Fin n → α

namespace Ring

variable {n : ℕ} [NeZero n] {α : Type*}

/-- The cell of the entry numbered `i`. -/
def slot (n : ℕ) [NeZero n] (i : ℤ) : Fin n :=
  ⟨(i % n).toNat, by
    have hn : (0 : ℤ) < n := by exact_mod_cast NeZero.pos n
    have h0 := Int.emod_nonneg i hn.ne'
    have h1 := Int.emod_lt_of_pos i hn
    omega⟩

/-- The entry numbered `i`. -/
def get (r : Ring n α) (i : ℤ) : α := r.cell (slot n i)

/-- Stores `x` as the entry numbered `i`. -/
def set (r : Ring n α) (i : ℤ) (x : α) : Ring n α :=
  ⟨Function.update r.cell (slot n i) x⟩

/-- The ring whose cells all hold `x`. -/
def fill (n : ℕ) (x : α) : Ring n α := ⟨fun _ => x⟩

lemma slot_eq_slot_iff {i j : ℤ} : slot n i = slot n j ↔ i % n = j % n := by
  have hn : (0 : ℤ) < n := by exact_mod_cast NeZero.pos n
  have hi := Int.emod_nonneg i hn.ne'
  have hj := Int.emod_nonneg j hn.ne'
  rw [Fin.ext_iff]
  show (i % n).toNat = (j % n).toNat ↔ _
  omega

/-- Numbers less than `n` apart have different cells. -/
lemma slot_injOn {i j : ℤ} (hij : i < j + n) (hji : j < i + n)
    (h : slot n i = slot n j) : i = j := by
  have hmod := slot_eq_slot_iff.mp h
  -- equal remainders, and a difference smaller than the modulus
  have hdvd : (n : ℤ) ∣ i - j := Int.ModEq.dvd (Int.ModEq.symm hmod)
  have habs : |i - j| < n := by rw [abs_lt]; constructor <;> linarith
  have := Int.eq_zero_of_abs_lt_dvd hdvd habs
  linarith

/-- Numbers `n` apart share a cell. -/
lemma slot_add_self (i : ℤ) : slot n (i + n) = slot n i := by
  rw [slot_eq_slot_iff, Int.add_emod_right]

/-- Every cell belongs to one of any `n` consecutive numbers. -/
lemma exists_slot_eq (a : ℤ) (i : Fin n) : ∃ s, a ≤ s ∧ s < a + n ∧ slot n s = i := by
  have hn : (0 : ℤ) < n := by exact_mod_cast NeZero.pos n
  have h0 := Int.emod_nonneg (i - a) hn.ne'
  have h1 := Int.emod_lt_of_pos (i - a) hn
  -- the first number from `a` on with the remainder `i`
  refine ⟨a + (i - a) % n, by omega, by omega, ?_⟩
  have hmod : (a + (i - a) % n) % n = i := by
    rw [Int.add_emod, Int.emod_emod, ← Int.add_emod, show a + (i - a) = (i : ℤ) by omega]
    exact Int.emod_eq_of_lt (by omega) (by have := i.isLt; omega)
  apply Fin.ext
  show ((a + (i - a) % n) % n).toNat = i
  rw [hmod]
  rfl

@[simp] lemma get_set_self (r : Ring n α) (i : ℤ) (x : α) : (r.set i x).get i = x := by
  simp only [get, set, Function.update_self]

lemma get_set (r : Ring n α) (i j : ℤ) (x : α) :
    (r.set i x).get j = if slot n j = slot n i then x else r.get j :=
  Function.update_apply r.cell (slot n i) x (slot n j)

/-- Storing an entry leaves the other entries of a window of length `n` alone. -/
lemma get_set_of_near (r : Ring n α) {i j : ℤ} (x : α) (hij : i < j + n) (hji : j < i + n)
    (hne : i ≠ j) : (r.set i x).get j = r.get j := by
  rw [get_set, if_neg]
  intro h
  exact hne (slot_injOn hij hji h.symm)

lemma get_congr (r : Ring n α) {i j : ℤ} (h : slot n i = slot n j) : r.get i = r.get j := by
  simp only [get, h]

@[simp] lemma get_fill (x : α) (i : ℤ) : (fill n x).get i = x := rfl

end Ring
end NetLabs.Lib
