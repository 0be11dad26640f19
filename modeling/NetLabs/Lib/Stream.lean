import Mathlib.Tactic.Common

/-!
# Lists read off a stream

A stream is a function `f : ℕ → α`. `FollowsFrom f k l` says that `l` is what the stream has from
place `k` on, as a loop finds out that compares one element after the other and counts its place.
A list that was cut anywhere is checked piece by piece (`followsFrom_append`), and of two such
lists one is the other if they are equally long (`FollowsFrom.eq_of_length`).
-/

namespace NetLabs.Lib
namespace Stream

variable {α : Type*} {f : ℕ → α}

/-- The elements of the list are those of the stream from place `k` on. -/
def FollowsFrom (f : ℕ → α) : ℕ → List α → Prop
  | _, [] => True
  | k, a :: l => a = f k ∧ FollowsFrom f (k + 1) l

instance decidableFollowsFrom [DecidableEq α] :
    ∀ (k : ℕ) (l : List α), Decidable (FollowsFrom f k l)
  | _, [] => .isTrue trivial
  | k, a :: l =>
    have := decidableFollowsFrom (k + 1) l
    inferInstanceAs (Decidable (a = f k ∧ FollowsFrom f (k + 1) l))

@[simp] lemma decide_followsFrom_nil [DecidableEq α] (k : ℕ) :
    decide (FollowsFrom f k []) = true := rfl

@[simp] lemma decide_followsFrom_cons [DecidableEq α] (k : ℕ) (a : α) (l : List α) :
    decide (FollowsFrom f k (a :: l)) = (decide (a = f k) && decide (FollowsFrom f (k + 1) l)) :=
  Bool.decide_and _ _

lemma followsFrom_append : ∀ {l m : List α} {k : ℕ},
    FollowsFrom f k (l ++ m) ↔ FollowsFrom f k l ∧ FollowsFrom f (k + l.length) m := by
  intro l
  induction l with
  | nil =>
    intro m k
    simp [FollowsFrom]
  | cons a l ih =>
    intro m k
    rw [List.cons_append, FollowsFrom, FollowsFrom, ih, List.length_cons, and_assoc,
      show k + (l.length + 1) = k + 1 + l.length by omega]

/-- The length says which stretch of the stream it is. -/
lemma FollowsFrom.eq_of_length : ∀ {l m : List α} {k : ℕ}, FollowsFrom f k l →
    FollowsFrom f k m → l.length = m.length → l = m := by
  intro l
  induction l with
  | nil =>
    intro m k _ _ hlen
    exact (List.length_eq_zero_iff.mp hlen.symm).symm
  | cons a l ih =>
    intro m k hl hm hlen
    cases m with
    | nil => cases hlen
    | cons b m =>
      rw [hl.1, hm.1, ih hl.2 hm.2 (Nat.succ.inj hlen)]

end Stream
end NetLabs.Lib
