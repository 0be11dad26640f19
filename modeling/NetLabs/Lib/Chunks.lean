import NetLabs.Lib.Bytes

/-!
# Cutting a list into chunks

`chunks n l` cuts `l` into consecutive pieces of `n` elements, the last one holding what is
left. The pieces are indexed, not peeled off, because the code that cuts keeps a cursor:
`take_chunks_succ` says what a cut at cursor `n * i` adds, and `count_eq_of_le` that it was the
last one. A stretch of a concatenation of such lists ends in some member (`isPrefix_flatMap`), and
its length says in which one and where (`stretch_unique`).
-/

namespace NetLabs.Lib
namespace Chunks

open Bytes

variable {α β : Type*}

/-- Piece `i` of `l` cut into pieces of `n`. -/
def chunk (n : ℕ) (l : List α) (i : ℕ) : List α := slice l (n * i) n

/-- The number of pieces. -/
def count (n : ℕ) (l : List α) : ℕ := (l.length + n - 1) / n

/-- All the pieces, in order. -/
def chunks (n : ℕ) (l : List α) : List (List α) := (List.range (count n l)).map (chunk n l)

@[simp] lemma length_chunks (n : ℕ) (l : List α) : (chunks n l).length = count n l := by
  simp [chunks]

lemma take_chunks {n i : ℕ} {l : List α} (h : i ≤ count n l) :
    (chunks n l).take i = (List.range i).map (chunk n l) := by
  rw [chunks, ← List.map_take, List.take_range, Nat.min_eq_left h]

/-- Piece `i` exists as long as its start lies inside the list. -/
lemma lt_count_iff {n i : ℕ} {l : List α} (hn : 0 < n) : i < count n l ↔ n * i < l.length := by
  rw [count, Nat.lt_iff_add_one_le, Nat.le_div_iff_mul_le hn, Nat.add_mul, Nat.mul_comm i n]
  omega

lemma take_chunks_succ {n i : ℕ} {l : List α} (hn : 0 < n) (h : n * i < l.length) :
    (chunks n l).take (i + 1) = (chunks n l).take i ++ [chunk n l i] := by
  have hi := (lt_count_iff hn).mpr h
  rw [take_chunks hi, take_chunks (le_of_lt hi), List.range_succ, List.map_append,
    List.map_singleton]

/-- The piece that starts in the last `n` elements is the last one. -/
lemma count_eq_of_le {n i : ℕ} {l : List α} (hn : 0 < n) (h : n * i < l.length)
    (hle : l.length ≤ n * i + n) : count n l = i + 1 := by
  have h1 := (lt_count_iff (i := i) hn).mpr h
  have h2 : ¬ i + 1 < count n l := by
    rw [lt_count_iff hn, Nat.mul_add, Nat.mul_one]; omega
  omega

/-- A list that is not empty has a first piece. -/
lemma count_pos {n : ℕ} {l : List α} (hn : 0 < n) (hl : 0 < l.length) : 0 < count n l := by
  rw [lt_count_iff hn]; omega

/-! ## Stretches of a concatenation -/

/-- The lists of the first `j` members and a beginning of the list of member `j`. -/
lemma isPrefix_flatMap (f : α → List β) (l : List α) (j i : ℕ) :
    (l.take j).flatMap f ++ ((l[j]?).elim [] f).take i <+: l.flatMap f := by
  conv_rhs => rw [← List.take_append_drop j l, List.flatMap_append]
  rw [List.prefix_append_right_inj]
  rcases Nat.lt_or_ge j l.length with hlt | hge
  · rw [List.getElem?_eq_getElem hlt, List.drop_eq_getElem_cons hlt, List.flatMap_cons]
    exact (List.take_prefix _ _).trans (List.prefix_append _ _)
  · rw [List.getElem?_eq_none hge]
    simp

/-- A stretch that ends inside member `j` is shorter than one that reaches a later member. -/
lemma length_flatMap_take_lt (f : α → List β) (l : List α) {j j' i : ℕ} (hlt : j < j')
    (hle : j' ≤ l.length) (hi : (l[j]?).elim (i = 0) fun x => i < (f x).length) :
    ((l.take j).flatMap f).length + i < ((l.take j').flatMap f).length := by
  have hget : l[j]? = some l[j] := List.getElem?_eq_getElem (by omega)
  rw [hget, Option.elim_some] at hi
  have hpre := isPrefix_flatMap f (l.take j') j (f l[j]).length
  rw [List.take_take, min_eq_left (le_of_lt hlt), List.getElem?_take, if_pos hlt, hget,
    Option.elim_some, List.take_length] at hpre
  have hlen := hpre.length_le
  rw [List.length_append] at hlen
  omega

/-- The place where a stretch ends is determined by its length. -/
theorem stretch_unique (f : α → List β) (l : List α) {j j' i i' : ℕ} (hj : j ≤ l.length)
    (hj' : j' ≤ l.length) (hi : (l[j]?).elim (i = 0) fun x => i < (f x).length)
    (hi' : (l[j']?).elim (i' = 0) fun x => i' < (f x).length)
    (h : ((l.take j).flatMap f).length + i = ((l.take j').flatMap f).length + i') :
    j = j' ∧ i = i' := by
  rcases lt_trichotomy j j' with hlt | rfl | hgt
  · have := length_flatMap_take_lt f l hlt hj' hi
    omega
  · exact ⟨rfl, by omega⟩
  · have := length_flatMap_take_lt f l hgt hj hi'
    omega

end Chunks
end NetLabs.Lib
