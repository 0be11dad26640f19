import Mathlib.Logic.Function.Basic
import Mathlib.Tactic.Common
import NetLabs.Lib.Bytes

/-!
# A heap of blocks

`malloc` and `free`, and copies out of and into a block. An address names a block for ever: a
freed block is never live again, so that every use of a stale pointer is a fault. The address 0,
`null`, is never live.

`Owns own h` says who is responsible for the blocks of `h`: every live block has exactly one
owner, and every owner's block is live. `Owns.malloc`, `Owns.free` and `Owns.freeAll` are the
rules for programs that keep one pointer for each block.
-/

namespace NetLabs.Lib

open Bytes

/-- The blocks allocated so far, by address; a block that was freed is `none`. -/
structure Heap (α : Type*) where
  blocks : List (Option (List α))

namespace Heap

/-- What no program may do. -/
inductive Fault
  | free
  | read
  | write
deriving DecidableEq

/-- The null pointer. -/
def null : ℕ := 0

variable {α : Type*}

/-- Nothing is allocated, and `null` never will be. -/
def empty : Heap α := ⟨[none]⟩

/-- The block at an address, if it is live. -/
def block (h : Heap α) (a : ℕ) : Option (List α) := (h.blocks[a]?).join

/-- Its contents; nothing, if it is not live. -/
def contents (h : Heap α) (a : ℕ) : List α := (h.block a).getD []

/-- The number of live blocks. -/
def live (h : Heap α) : ℕ := h.blocks.countP Option.isSome

/-- `malloc`: the new heap and the address of the new block, which holds `bs`. -/
def malloc (h : Heap α) (bs : List α) : Heap α × ℕ := (⟨h.blocks ++ [some bs]⟩, h.blocks.length)

/-- `free`, of a live block. -/
def free (h : Heap α) (a : ℕ) : Except Fault (Heap α) :=
  if (h.block a).isSome then .ok ⟨h.blocks.set a none⟩ else .error .free

/-- `free`, of the block of an owner that may have none. -/
def freeOf (h : Heap α) : Option ℕ → Except Fault (Heap α)
  | some a => h.free a
  | none => .ok h

/-- `memcpy` of `n` elements out of a live block, from the offset `off` on. -/
def read (h : Heap α) (a : ℕ) (off n : ℤ) : Except Fault (List α) :=
  match h.block a with
  | some bs =>
    if 0 ≤ off ∧ 0 ≤ n ∧ off + n ≤ bs.length then .ok (slice bs off.toNat n.toNat)
    else .error .read
  | none => .error .read

/-- `memcpy` into a live block, from the offset `off` on. -/
def write (h : Heap α) (a : ℕ) (off : ℤ) (xs : List α) : Except Fault (Heap α) :=
  match h.block a with
  | some bs =>
    if 0 ≤ off ∧ off + xs.length ≤ bs.length then
      .ok ⟨h.blocks.set a (some (overwrite bs off.toNat xs))⟩
    else .error .write
  | none => .error .write

/-! ## One operation -/

variable {h h' : Heap α} {a b : ℕ} {bs xs : List α}

lemma contents_of_block (hb : h.block a = some bs) : h.contents a = bs := by
  rw [contents, hb, Option.getD_some]

lemma lt_length_of_block (hb : h.block a = some bs) : a < h.blocks.length := by
  unfold block at hb
  by_contra hge
  rw [List.getElem?_eq_none (by omega)] at hb
  cases hb

lemma block_malloc (h : Heap α) (bs : List α) (b : ℕ) :
    (h.malloc bs).1.block b = if b = (h.malloc bs).2 then some bs else h.block b := by
  unfold malloc block
  rcases lt_trichotomy b h.blocks.length with hlt | rfl | hgt
  · rw [if_neg (by dsimp only; omega), List.getElem?_append_left hlt]
  · simp
  · rw [if_neg (by dsimp only; omega), List.getElem?_eq_none (by simp; omega),
      List.getElem?_eq_none (by omega)]

lemma block_malloc_self (h : Heap α) (bs : List α) :
    (h.malloc bs).1.block (h.malloc bs).2 = some bs := by
  rw [block_malloc, if_pos rfl]

/-- A new block is at a new address. -/
lemma ne_malloc (hb : h.block b = some xs) : b ≠ (h.malloc bs).2 := by
  have hlt := lt_length_of_block hb
  unfold malloc
  dsimp only
  omega

lemma live_malloc (h : Heap α) (bs : List α) : (h.malloc bs).1.live = h.live + 1 := by
  simp [malloc, live, List.countP_append]

lemma free_eq (hb : h.block a = some bs) : h.free a = .ok ⟨h.blocks.set a none⟩ := by
  rw [free, if_pos (by rw [hb]; rfl)]

lemma block_set (x : Option (List α)) (hb : h.block a = some bs) (b : ℕ) :
    (⟨h.blocks.set a x⟩ : Heap α).block b = if b = a then x else h.block b := by
  have hlt := lt_length_of_block hb
  unfold block
  dsimp only
  rw [List.getElem?_set]
  split_ifs with h₁ h₂ h₃
  · rfl
  · exact absurd h₁.symm h₂
  · exact absurd h₃.symm h₁
  · rfl

lemma live_set (x : Option (List α)) (hb : h.block a = some bs) :
    (⟨h.blocks.set a x⟩ : Heap α).live + 1 = h.live + if x.isSome then 1 else 0 := by
  have hlt := lt_length_of_block hb
  have hget : h.blocks[a] = some bs := by
    unfold block at hb
    rw [List.getElem?_eq_getElem hlt] at hb
    exact hb
  have hpos : 0 < h.blocks.countP Option.isSome :=
    List.countP_pos_iff.mpr ⟨_, List.getElem_mem hlt, by rw [hget]; rfl⟩
  unfold live
  dsimp only
  rw [List.countP_set hlt, hget, Option.isSome_some, if_pos rfl]
  omega

lemma read_eq {off n : ℤ} (hb : h.block a = some bs) (hoff : 0 ≤ off) (hn : 0 ≤ n)
    (hle : off + n ≤ bs.length) : h.read a off n = .ok (slice bs off.toNat n.toNat) := by
  unfold read
  rw [hb]
  exact if_pos ⟨hoff, hn, hle⟩

lemma write_eq {off : ℤ} (hb : h.block a = some bs) (hoff : 0 ≤ off)
    (hle : off + xs.length ≤ bs.length) :
    h.write a off xs = .ok ⟨h.blocks.set a (some (overwrite bs off.toNat xs))⟩ := by
  unfold write
  rw [hb]
  exact if_pos ⟨hoff, hle⟩

/-- A copy that leaves the block. -/
lemma write_eq_error {off : ℤ} (hb : h.block a = some bs)
    (hbad : ¬ (0 ≤ off ∧ off + xs.length ≤ bs.length)) : h.write a off xs = .error .write := by
  unfold write
  rw [hb]
  exact if_neg hbad

/-- A copy into a block changes that block only. -/
lemma exists_write {off : ℤ} (hb : h.block a = some bs) (hoff : 0 ≤ off)
    (hle : off + xs.length ≤ bs.length) :
    ∃ h', h.write a off xs = .ok h' ∧ h'.block a = some (overwrite bs off.toNat xs) ∧
      h'.live = h.live := by
  refine ⟨_, write_eq hb hoff hle, ?_, ?_⟩
  · rw [block_set _ hb, if_pos rfl]
  · have hlive := live_set (some (overwrite bs off.toNat xs)) hb
    rw [Option.isSome_some, if_pos rfl] at hlive
    omega

/-- Two copies that together are as long as the block replace it. -/
lemma overwrite_overwrite {ys : List α} (hlen : bs.length = xs.length + ys.length) :
    overwrite (overwrite bs 0 xs) xs.length ys = xs ++ ys := by
  have hfirst : overwrite bs 0 xs = xs ++ bs.drop xs.length := by
    unfold overwrite
    rw [List.take_zero, List.nil_append, Nat.zero_add, List.take_of_length_le]
    rw [List.length_append, List.length_drop]
    omega
  have hrest : (xs ++ bs.drop xs.length).drop (xs.length + ys.length) = [] := by
    apply List.drop_eq_nil_of_le
    rw [List.length_append, List.length_drop]
    omega
  rw [hfirst, overwrite, List.take_left, hrest, List.append_nil, List.take_of_length_le]
  rw [List.length_append, List.length_append, List.length_drop]
  omega

/-! ## Ownership -/

variable {ι : Type*} {own own' : ι → Option ℕ} {i : ι}

/-- Every live block has exactly one owner, and every owner's block is live. -/
structure Owns (own : ι → Option ℕ) (h : Heap α) : Prop where
  live : ∀ {i a}, own i = some a → ∃ bs, h.block a = some bs
  inj : ∀ {i j a}, own i = some a → own j = some a → i = j
  owned : ∀ {a bs}, h.block a = some bs → ∃ i, own i = some a

namespace Owns

lemma empty : Owns (fun _ : ι => none) (Heap.empty : Heap α) := by
  refine ⟨nofun, nofun, ?_⟩
  intro a bs h
  unfold block Heap.empty at h
  rcases Nat.eq_zero_or_pos a with rfl | hpos
  · cases h
  · rw [List.getElem?_eq_none (show 1 ≤ a from hpos)] at h
    cases h

/-- Someone who owns nothing takes a new block. -/
lemma malloc [DecidableEq ι] (ho : Owns own h) (hi : own i = none) (bs : List α) :
    Owns (Function.update own i (some (h.malloc bs).2)) (h.malloc bs).1 := by
  refine ⟨?_, ?_, ?_⟩
  · intro j a hj
    rw [block_malloc]
    rcases eq_or_ne j i with rfl | hne
    · rw [Function.update_self, Option.some.injEq] at hj
      exact ⟨bs, if_pos hj.symm⟩
    · rw [Function.update_of_ne hne] at hj
      obtain ⟨xs, hxs⟩ := ho.live hj
      exact ⟨xs, by rw [if_neg (ne_malloc hxs), hxs]⟩
  · intro j k a hj hk
    rw [Function.update_apply] at hj hk
    split_ifs at hj hk with h₁ h₂ h₂
    · rw [h₁, h₂]
    · -- an old block is not at the new address
      obtain ⟨xs, hxs⟩ := ho.live hk
      exact absurd (Option.some.inj hj).symm (ne_malloc hxs)
    · obtain ⟨xs, hxs⟩ := ho.live hj
      exact absurd (Option.some.inj hk).symm (ne_malloc hxs)
    · exact ho.inj hj hk
  · intro a xs ha
    rw [block_malloc] at ha
    split_ifs at ha with hnew
    · exact ⟨i, by rw [Function.update_self, hnew]⟩
    · obtain ⟨j, hj⟩ := ho.owned ha
      have hne : j ≠ i := by
        rintro rfl
        rw [hi] at hj
        cases hj
      exact ⟨j, by rw [Function.update_of_ne hne, hj]⟩

/-- An owner gives its block up. -/
lemma free [DecidableEq ι] (ho : Owns own h) (hi : own i = some a) :
    Owns (Function.update own i none) ⟨h.blocks.set a none⟩ := by
  obtain ⟨bs, hbs⟩ := ho.live hi
  refine ⟨?_, ?_, ?_⟩
  · intro j b hj
    rw [Function.update_apply] at hj
    split_ifs at hj with hji
    obtain ⟨xs, hxs⟩ := ho.live hj
    have hne : b ≠ a := by
      rintro rfl
      exact hji (ho.inj hj hi)
    exact ⟨xs, by rw [block_set none hbs, if_neg hne, hxs]⟩
  · intro j k b hj hk
    rw [Function.update_apply] at hj hk
    split_ifs at hj hk
    exact ho.inj hj hk
  · intro b xs hb
    rw [block_set none hbs] at hb
    split_ifs at hb with hne
    obtain ⟨j, hj⟩ := ho.owned hb
    have hji : j ≠ i := by
      rintro rfl
      exact hne (Option.some.inj (hj.symm.trans hi))
    exact ⟨j, by rw [Function.update_of_ne hji, hj]⟩

/-- Writing into a block changes no ownership. -/
lemma write (ho : Owns own h) (hb : h.block a = some bs) (xs : List α) :
    Owns own ⟨h.blocks.set a (some xs)⟩ := by
  refine ⟨?_, ho.inj, ?_⟩
  · intro i b hi
    obtain ⟨ys, hys⟩ := ho.live hi
    rw [block_set (some xs) hb]
    rcases eq_or_ne b a with rfl | hne
    · exact ⟨xs, if_pos rfl⟩
    · exact ⟨ys, by rw [if_neg hne, hys]⟩
  · intro b ys hy
    rw [block_set (some xs) hb] at hy
    split_ifs at hy with hne
    · exact ho.owned (hne ▸ hb)
    · exact ho.owned hy

/-- A new block for someone who owns nothing, filled by two copies. -/
lemma fill [DecidableEq ι] {xs ys : List α} (ho : Owns own h) (hi : own i = none)
    (hlen : bs.length = xs.length + ys.length) :
    ∃ h₁ h₂, (h.malloc bs).1.write (h.malloc bs).2 0 xs = .ok h₁ ∧
      h₁.write (h.malloc bs).2 xs.length ys = .ok h₂ ∧
      Owns (Function.update own i (some (h.malloc bs).2)) h₂ ∧
      ∀ b, h₂.block b = if b = (h.malloc bs).2 then some (xs ++ ys) else h.block b := by
  have hnew := ho.malloc hi bs
  have hb : (h.malloc bs).1.block (h.malloc bs).2 = some bs := by
    rw [block_malloc, if_pos rfl]
  have hw₁ : (h.malloc bs).1.write (h.malloc bs).2 0 xs = .ok _ :=
    write_eq hb (le_refl 0) (by omega)
  have hb₁ := block_set (some (overwrite bs 0 xs)) hb (h.malloc bs).2
  rw [if_pos rfl] at hb₁
  have hw₂ : Heap.write _ (h.malloc bs).2 xs.length ys = .ok _ :=
    write_eq hb₁ (by omega) (by rw [length_overwrite]; omega)
  refine ⟨_, _, hw₁, hw₂, (hnew.write hb _).write hb₁ _, ?_⟩
  intro b
  rw [block_set _ hb₁, Int.toNat_natCast, overwrite_overwrite hlen, block_set _ hb, block_malloc]
  split_ifs with hba
  · rfl
  · rfl

/-- **Every owner in a list gives up its block, once**: nothing goes wrong, and at most as many
blocks are freed as there are owners. -/
theorem freeAll [DecidableEq ι] {f : Heap α → ι → Except Fault (Heap α)}
    (hf : ∀ h i, f h i = h.freeOf (own i)) :
    ∀ {l : List ι} {h : Heap α} {rest : ι → Option ℕ}, Owns rest h → l.Nodup →
      (∀ i ∈ l, rest i = own i) →
      ∃ h' rest', l.foldlM f h = .ok h' ∧ Owns rest' h' ∧ (∀ i ∈ l, rest' i = none) ∧
        (∀ i, rest' i = none ∨ rest' i = rest i) ∧ h.live ≤ h'.live + l.length := by
  intro l
  induction l with
  | nil => exact fun {h rest} ho _ _ => ⟨h, rest, rfl, ho, by simp, fun _ => Or.inr rfl, le_refl _⟩
  | cons i l ih =>
    intro h rest ho hnodup hrest
    obtain ⟨hi, hl⟩ := List.nodup_cons.mp hnodup
    have hkeep : ∀ j ∈ l, Function.update rest i none j = own j := by
      intro j hj
      rw [Function.update_of_ne (by rintro rfl; exact hi hj)]
      exact hrest j (List.mem_cons_of_mem i hj)
    -- the first owner's block is freed, if it has one
    obtain ⟨h₁, hfirst, ho₁, hlive⟩ : ∃ h₁, f h i = .ok h₁ ∧
        Owns (Function.update rest i none) h₁ ∧ h.live ≤ h₁.live + 1 := by
      have hown := hrest i List.mem_cons_self
      cases hcase : own i with
      | none =>
        rw [hcase] at hown
        refine ⟨h, by rw [hf, hcase]; rfl, ?_, Nat.le_succ _⟩
        rw [← hown, Function.update_eq_self]
        exact ho
      | some a =>
        rw [hcase] at hown
        obtain ⟨bs, hbs⟩ := ho.live hown
        exact ⟨_, by rw [hf, hcase]; exact free_eq hbs, ho.free hown, (live_set none hbs).ge⟩
    obtain ⟨h', rest', hfold, ho', hnone, hsub, hlive'⟩ := ih ho₁ hl hkeep
    refine ⟨h', rest', ?_, ho', ?_, ?_, by rw [List.length_cons]; omega⟩
    · rw [List.foldlM_cons, hfirst]
      exact hfold
    · intro j hj
      rcases List.mem_cons.mp hj with rfl | hj
      · rcases hsub j with hj | hj
        · exact hj
        · rw [hj, Function.update_self]
      · exact hnone j hj
    · intro j
      rcases hsub j with hj | hj
      · exact Or.inl hj
      · rw [hj, Function.update_apply]
        split
        · exact Or.inl rfl
        · exact Or.inr rfl

/-- When nobody owns anything, nothing is live. -/
lemma live_eq_zero (ho : Owns own h) (hnone : ∀ i, own i = none) : h.live = 0 := by
  unfold Heap.live
  rw [List.countP_eq_zero]
  intro x hx hsome
  obtain ⟨a, hget⟩ := List.mem_iff_getElem?.mp hx
  obtain ⟨bs, rfl⟩ := Option.isSome_iff_exists.mp hsome
  obtain ⟨i, hi⟩ := ho.owned (show h.block a = some bs by rw [block, hget]; rfl)
  rw [hnone i] at hi
  cases hi

end Owns
end Heap
end NetLabs.Lib
