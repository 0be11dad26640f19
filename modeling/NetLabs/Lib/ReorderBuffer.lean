import Mathlib.Data.Finmap
import Mathlib.Tactic.Common
import Mathlib.Tactic.Linarith

/-!
# Reorder buffers

The receiving end of a sliding-window transfer, without its ring: `next` is the number that
is consumed next and `held` is a finite map from sequence numbers to the entries that arrived
early. An arrival inside the window is held unless its number is held already; the arrival of
`next` is consumed together with every consecutive number that is held; all other arrivals
are ignored. Each arrival is answered with the number before `next`.

`arrive_stream` is what such a buffer is for: fed from one stream of entries, in any order and
with any repetition, it consumes that stream from its start. Which number it waits for depends
only on the set of the numbers that have come (`known_arrive`, `next_eq_of_known`).
-/

namespace NetLabs.Lib

/-- A reorder buffer over entries of type `α`. -/
structure ReorderBuffer (α : Type*) where
  next : ℤ
  held : Finmap fun _ : ℤ => α

namespace ReorderBuffer

variable {α : Type*}

/-- Nothing consumed, nothing held. -/
def empty : ReorderBuffer α := ⟨0, ∅⟩

/-- Consumes the consecutive numbers from `next` on that are held, removing each. -/
def drain (b : ReorderBuffer α) : List α × ReorderBuffer α :=
  match _h : b.held.lookup b.next with
  | none => ([], b)
  | some x =>
    let r := drain ⟨b.next + 1, b.held.erase b.next⟩
    (x :: r.1, r.2)
termination_by b.held.keys.card
decreasing_by
  rw [Finmap.keys_erase]
  exact Finset.card_erase_lt_of_mem (Finmap.mem_keys.mpr (Finmap.mem_of_lookup_eq_some _h))

/-- One arrival: the entries consumed because of it, and the buffer afterwards. -/
def arrive (W : ℤ) (b : ReorderBuffer α) (s : ℤ) (x : α) : List α × ReorderBuffer α :=
  if b.next < s ∧ s < b.next + W then
    if s ∈ b.held then ([], b) else ([], { b with held := b.held.insert s x })
  else if s ≠ b.next then ([], b)
  else
    let r := drain { b with next := b.next + 1 }
    (x :: r.1, r.2)

/-- A buffer with what it has consumed and answered so far. -/
structure Log (α : Type*) where
  buf : ReorderBuffer α
  consumed : List α
  acks : List ℤ

/-- One arrival, logged. -/
def Log.arrive (W : ℤ) (l : Log α) (a : ℤ × α) : Log α :=
  let r := l.buf.arrive W a.1 a.2
  ⟨r.2, l.consumed ++ r.1, l.acks ++ [r.2.next - 1]⟩

/-- A whole sequence of arrivals, from the empty buffer. -/
def Log.run (W : ℤ) (as : List (ℤ × α)) : Log α := as.foldl (Log.arrive W) ⟨empty, [], []⟩

/-! ## Draining -/

lemma drain_of_none {b : ReorderBuffer α} (h : b.held.lookup b.next = none) :
    drain b = ([], b) := by
  rw [drain]; split
  · rfl
  · rename_i x hx; rw [h] at hx; cases hx

lemma drain_of_some {b : ReorderBuffer α} {x : α} (h : b.held.lookup b.next = some x) :
    drain b = (x :: (drain ⟨b.next + 1, b.held.erase b.next⟩).1,
      (drain ⟨b.next + 1, b.held.erase b.next⟩).2) := by
  rw [drain]; split
  · rename_i hx; rw [h] at hx; cases hx
  · rename_i y hy
    rw [h] at hy
    obtain rfl := Option.some.inj hy
    rfl

/-- Draining advances `next` by what it consumes, and what stays held was held. -/
theorem drain_spec (b : ReorderBuffer α) :
    (drain b).2.next = b.next + (drain b).1.length ∧
      (∀ s, s ∈ (drain b).2.held → s ∈ b.held) ∧
      (∀ s, s ∈ b.held → s < (drain b).2.next ∨ s ∈ (drain b).2.held) := by
  -- along the recursion of `drain`, which removes one held number a round
  induction b using drain.induct with
  | case1 b h =>
    rw [drain_of_none h]
    exact ⟨by simp, fun s hs => hs, fun s hs => Or.inr hs⟩
  | case2 b x h ih =>
    rw [drain_of_some h]
    obtain ⟨hnext, hsub, hkept⟩ := ih
    dsimp only at hnext hsub hkept ⊢
    refine ⟨?_, fun s hs => (Finmap.mem_erase.mp (hsub s hs)).2, fun s hs => ?_⟩
    · rw [hnext, List.length_cons]; push_cast; omega
    · by_cases hb : s = b.next
      · left; rw [hnext, hb]; omega
      · exact hkept s (Finmap.mem_erase.mpr ⟨hb, hs⟩)

/-- Draining consumes no more than was held, and stops at a number that is not. -/
lemma drain_bound (b : ReorderBuffer α) :
    (drain b).1.length ≤ b.held.keys.card ∧ (drain b).2.next ∉ (drain b).2.held := by
  induction b using drain.induct with
  | case1 b h =>
    rw [drain_of_none h]
    exact ⟨Nat.zero_le _, Finmap.lookup_eq_none.mp h⟩
  | case2 b x h ih =>
    rw [drain_of_some h]
    have hmem : b.next ∈ b.held.keys := Finmap.mem_keys.mpr (Finmap.mem_of_lookup_eq_some h)
    have hcard := Finset.card_erase_lt_of_mem hmem
    have hle := ih.1
    rw [Finmap.keys_erase] at hle
    exact ⟨by rw [List.length_cons]; omega, ih.2⟩

/-- An arrival advances `next` by what is consumed because of it. -/
lemma arrive_next (W : ℤ) (b : ReorderBuffer α) (s : ℤ) (x : α) :
    (arrive W b s x).2.next = b.next + (arrive W b s x).1.length := by
  unfold arrive
  split
  · split
    · simp
    · simp
  · split
    · simp
    · have h := (drain_spec { b with next := b.next + 1 }).1
      dsimp only at h ⊢
      rw [h, List.length_cons]
      push_cast
      omega

/-- A number below the window is ignored. -/
lemma arrive_of_lt {W : ℤ} {b : ReorderBuffer α} {s : ℤ} (h : s < b.next) (x : α) :
    arrive W b s x = ([], b) := by
  unfold arrive
  rw [if_neg (by omega), if_pos (by omega)]

/-- Arrivals in order are consumed and answered one by one. -/
theorem Log.foldl_arrive_inOrder (W : ℤ) : ∀ (as : List (ℤ × α)) (n : ℤ) (C : List α) (K : List ℤ),
    as.map Prod.fst = (List.range as.length).map (fun i : ℕ => n + i) →
    as.foldl (Log.arrive W) ⟨⟨n, ∅⟩, C, K⟩ =
      ⟨⟨n + as.length, ∅⟩, C ++ as.map Prod.snd, K ++ as.map Prod.fst⟩ := by
  intro as
  induction as with
  | nil => intro n C K _; simp
  | cons a as ih =>
    intro n C K h
    rw [List.map_cons, List.length_cons, List.range_succ_eq_map, List.map_cons, List.map_map,
      List.cons.injEq] at h
    obtain ⟨hfirst, hrest⟩ := h
    -- nothing is held, so the arrival of `next` consumes just itself
    have hdrain : drain (⟨n + 1, ∅⟩ : ReorderBuffer α) = ([], ⟨n + 1, ∅⟩) :=
      drain_of_none (by simp)
    have hone : Log.arrive W ⟨⟨n, ∅⟩, C, K⟩ a = ⟨⟨n + 1, ∅⟩, C ++ [a.2], K ++ [a.1]⟩ := by
      have heq : a.1 = n := by simpa using hfirst
      simp [Log.arrive, ReorderBuffer.arrive, heq, hdrain]
    rw [List.foldl_cons, hone, ih (n + 1)]
    · simp only [List.length_cons, List.map_cons, List.append_assoc, List.singleton_append]
      congr 2
      push_cast
      omega
    · rw [hrest]
      apply List.map_congr_left
      intro i _
      simp only [Function.comp, Nat.cast_succ]
      omega

/-! ## The numbers that have come -/

/-- The number has been consumed or is held. -/
def Known (b : ReorderBuffer α) (t : ℤ) : Prop := t < b.next ∨ t ∈ b.held

/-- Draining forgets no number and learns none. -/
lemma known_drain (b : ReorderBuffer α) (t : ℤ) : (drain b).2.Known t ↔ b.Known t := by
  induction b using drain.induct with
  | case1 b h => rw [drain_of_none h]
  | case2 b x h ih =>
    have hmem : b.next ∈ b.held := Finmap.mem_of_lookup_eq_some h
    rw [drain_of_some h, ih]
    unfold Known
    dsimp only
    rw [Finmap.mem_erase]
    by_cases ht : t = b.next
    · subst ht
      simp [hmem]
    · constructor
      · rintro (hlt | hheld)
        · exact Or.inl (by omega)
        · exact Or.inr hheld.2
      · rintro (hlt | hheld)
        · exact Or.inl (by omega)
        · exact Or.inr ⟨ht, hheld⟩

/-- An arrival below the end of the window makes its own number known, and no other. -/
lemma known_arrive {W : ℤ} {b : ReorderBuffer α} {s : ℤ} (hs : s < b.next + W) (x : α) (t : ℤ) :
    (arrive W b s x).2.Known t ↔ b.Known t ∨ t = s := by
  unfold arrive
  split
  · split
    · rename_i hmem
      refine ⟨Or.inl, ?_⟩
      rintro (hk | rfl)
      · exact hk
      · exact Or.inr hmem
    · simp only [Known, Finmap.mem_insert]
      tauto
  · split
    · refine ⟨Or.inl, ?_⟩
      rintro (hk | rfl)
      · exact hk
      · left
        show t < b.next
        omega
    · -- the arrival of `next` moves it on, draining then changes nothing
      rw [known_drain]
      unfold Known
      dsimp only
      constructor
      · rintro (hlt | hheld)
        · rcases eq_or_ne t s with heq | hne
          · exact Or.inr heq
          · exact Or.inl (Or.inl (by omega))
        · exact Or.inl (Or.inr hheld)
      · rintro ((hlt | hheld) | rfl)
        · exact Or.inl (by omega)
        · exact Or.inr hheld
        · exact Or.inl (by omega)

/-- Buffers that know the same numbers wait for the same one: the least that they do not
know. -/
lemma next_eq_of_known {b b' : ReorderBuffer α} (hn : b.next ∉ b.held) (hn' : b'.next ∉ b'.held)
    (h : ∀ t, b.Known t ↔ b'.Known t) : b.next = b'.next := by
  rcases lt_trichotomy b.next b'.next with hlt | heq | hgt
  · rcases (h b.next).mpr (Or.inl hlt) with hbad | hbad
    · exact absurd hbad (lt_irrefl _)
    · exact absurd hbad hn
  · exact heq
  · rcases (h b'.next).mp (Or.inl hgt) with hbad | hbad
    · exact absurd hbad (lt_irrefl _)
    · exact absurd hbad hn'

/-! ## A buffer fed from one stream -/

/-- Every held entry is the stream's entry at the number it is held under. -/
def HoldsOf (st : List α) (b : ReorderBuffer α) : Prop :=
  ∀ s x, b.held.lookup s = some x → ∃ k : ℕ, s = k ∧ st[k]? = some x

lemma HoldsOf.empty (st : List α) : HoldsOf st empty := by
  intro s x h
  simp [ReorderBuffer.empty] at h

lemma HoldsOf.erase {st : List α} {b : ReorderBuffer α} (h : HoldsOf st b) (n s : ℤ) :
    HoldsOf st ⟨n, b.held.erase s⟩ := by
  intro t x ht
  by_cases hts : t = s
  · subst hts; simp at ht
  · rw [Finmap.lookup_erase_ne hts] at ht
    exact h t x ht

/-- The stream may grow. -/
lemma HoldsOf.append {st : List α} {b : ReorderBuffer α} (h : HoldsOf st b) (more : List α) :
    HoldsOf (st ++ more) b := by
  intro s x hs
  obtain ⟨k, hk, hx⟩ := h s x hs
  obtain ⟨hlt, -⟩ := List.getElem?_eq_some_iff.mp hx
  exact ⟨k, hk, by rw [List.getElem?_append_left hlt, hx]⟩

lemma take_append_of_getElem? {st : List α} {n : ℕ} {x : α} (h : st[n]? = some x) :
    st.take n ++ [x] = st.take (n + 1) := by
  rw [List.take_add_one, h]; rfl

/-- Draining consumes the stream in order. -/
theorem drain_stream (st : List α) (b : ReorderBuffer α) :
    ∀ {n : ℕ}, b.next = n → n ≤ st.length → HoldsOf st b →
      ∃ m : ℕ, n ≤ m ∧ m ≤ st.length ∧ (drain b).2.next = m ∧
        st.take n ++ (drain b).1 = st.take m ∧ HoldsOf st (drain b).2 := by
  induction b using drain.induct with
  | case1 b h =>
    intro n hn hle hag
    rw [drain_of_none h]
    exact ⟨n, le_refl n, hle, hn, List.append_nil _, hag⟩
  | case2 b x h ih =>
    intro n hn hle hag
    -- the entry held under `next` is the next one of the stream
    obtain ⟨k, hk, hx⟩ := hag b.next x h
    obtain rfl : k = n := by omega
    obtain ⟨hlt, -⟩ := List.getElem?_eq_some_iff.mp hx
    obtain ⟨m, hnm, hm, hnext, htake, hag'⟩ :=
      ih (n := k + 1) (by dsimp only; omega) hlt (hag.erase _ _)
    rw [drain_of_some h]
    refine ⟨m, by omega, hm, hnext, ?_, hag'⟩
    rw [← htake, ← take_append_of_getElem? hx, List.append_assoc]
    rfl

/-- **A reorder buffer consumes the stream it is fed from, in order.** Whatever the number of
the arriving entry, what has been consumed stays a beginning of the stream; an arrival inside
the window is afterwards consumed or held. -/
theorem arrive_stream {st : List α} {b : ReorderBuffer α} {W : ℤ} {n k : ℕ} {x : α}
    (hn : b.next = n) (hle : n ≤ st.length) (hag : HoldsOf st b) (hx : st[k]? = some x) :
    ∃ m : ℕ, n ≤ m ∧ m ≤ st.length ∧ (arrive W b k x).2.next = m ∧
      st.take n ++ (arrive W b k x).1 = st.take m ∧ HoldsOf st (arrive W b k x).2 ∧
      ((k : ℤ) < b.next + W →
        (k : ℤ) < (arrive W b k x).2.next ∨ (arrive W b k x).2.held.lookup (k : ℤ) = some x) := by
  unfold arrive
  split
  · split
    · -- already held: the stream has one entry for each number
      rename_i hmem
      obtain ⟨y, hy⟩ := Finmap.mem_iff.mp hmem
      obtain ⟨j, hj, hjy⟩ := hag _ _ hy
      obtain rfl : k = j := by omega
      have hxy : x = y := by rw [hx] at hjy; exact Option.some.inj hjy
      exact ⟨n, le_refl n, hle, hn, List.append_nil _, hag, fun _ => Or.inr (hxy ▸ hy)⟩
    · refine ⟨n, le_refl n, hle, hn, List.append_nil _, ?_, fun _ => Or.inr ?_⟩
      · intro s y hs
        dsimp only at hs
        by_cases hsk : s = k
        · subst hsk
          rw [Finmap.lookup_insert] at hs
          exact ⟨k, rfl, hx.trans hs⟩
        · rw [Finmap.lookup_insert_of_ne _ hsk] at hs
          exact hag s y hs
      · exact Finmap.lookup_insert _
  · rename_i hwin
    split
    · exact ⟨n, le_refl n, hle, hn, List.append_nil _, hag, fun _ => Or.inl (by
        dsimp only; omega)⟩
    · -- the arrival of `next`
      rename_i heq
      have hkn : k = n := by omega
      subst hkn
      obtain ⟨hlt, -⟩ := List.getElem?_eq_some_iff.mp hx
      obtain ⟨m, hnm, hm, hnext, htake, hag'⟩ :=
        drain_stream st { b with next := b.next + 1 } (n := k + 1)
          (by dsimp only; omega) hlt hag
      refine ⟨m, by omega, hm, hnext, ?_, hag', fun _ => Or.inl (by dsimp only; omega)⟩
      rw [← htake, ← take_append_of_getElem? hx, List.append_assoc]
      rfl

end ReorderBuffer
end NetLabs.Lib
