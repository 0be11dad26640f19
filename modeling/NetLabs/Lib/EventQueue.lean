import Mathlib.Data.List.Nodup
import Mathlib.Data.List.Sort

/-!
# Queues of timed events

The core of a discrete-event simulator: a chain of pending events, ordered by time, and the
time of the last event taken out. Events are any type `E` with a number and a time. A `Log`
replays operations on the queue and keeps what became of each event; `Kept` is what holds at
every moment when events are numbered in the order in which they are scheduled and none is
scheduled for the past.
-/

namespace NetLabs.Lib.EventQueue

open scoped List

variable {E T : Type*} [LinearOrder T]

/-- The time of the queue and the events in it. -/
structure Queue (E T : Type*) where
  now : T
  chain : List E

/-- An operation on a queue. -/
inductive Op (E : Type*)
  | schedule (e : E)
  | cancel (id : ℕ)
  | next

/-- A queue with its history: the events that were scheduled, those of them that were rejected,
those that were taken out to be dispatched and those that were cancelled, each in order. -/
structure Log (E T : Type*) where
  queue : Queue E T
  scheduled : List E
  discarded : List E
  dispatched : List E
  removed : List E

/-- A queue before its first operation. -/
def Log.start (now : T) : Log E T := ⟨⟨now, []⟩, [], [], [], []⟩

section
variable (id : E → ℕ) (time : E → T)

namespace Queue

/-- Put an event behind all those that are not later; reject it if its time has passed. -/
def schedule (e : E) (q : Queue E T) : Queue E T :=
  if time e < q.now then q
  else { q with chain := q.chain.orderedInsert (fun a b => time a < time b) e }

/-- Take the event with a number out of the chain. -/
def cancel (i : ℕ) (q : Queue E T) : Queue E T :=
  { q with chain := q.chain.eraseP fun e => id e == i }

/-- Advance to the next event. -/
def next (q : Queue E T) : Queue E T :=
  match q.chain with
  | [] => q
  | e :: rest => ⟨time e, rest⟩

end Queue

/-- One operation, with what it does to the history. -/
def Log.step (l : Log E T) : Op E → Log E T
  | .schedule e =>
    { l with
      queue := l.queue.schedule time e
      scheduled := l.scheduled ++ [e]
      discarded := if time e < l.queue.now then l.discarded ++ [e] else l.discarded }
  | .cancel i =>
    { l with
      queue := l.queue.cancel id i
      removed := l.removed ++ (l.queue.chain.find? fun e => id e == i).toList }
  | .next =>
    { l with
      queue := l.queue.next time
      dispatched := l.dispatched ++ l.queue.chain.head?.toList }

/-- A sequence of operations. -/
def Log.run (l : Log E T) (ops : List (Op E)) : Log E T := ops.foldl (Log.step id time) l

/-- The order in which events are dispatched: by time, and by number where the times agree. -/
def Before (a b : E) : Prop := time a < time b ∨ time a = time b ∧ id a < id b

/-- What holds of a queue and its history at every moment. -/
structure Kept (cancellable : E → Prop) (l : Log E T) : Prop where
  ids : l.scheduled.map id = List.range l.scheduled.length
  discarded_nil : l.discarded = []
  perm : l.scheduled.Perm (l.dispatched ++ l.queue.chain ++ l.removed)
  ordered : (l.dispatched ++ l.queue.chain).Pairwise (Before id time)
  due : ∀ e ∈ l.queue.chain, l.queue.now ≤ time e
  past : ∀ e ∈ l.dispatched, time e ≤ l.queue.now
  removed : ∀ e ∈ l.removed, cancellable e

/-- The operations that keep it so. -/
def Allowed (cancellable : E → Prop) (l : Log E T) : Op E → Prop
  | .schedule e => id e = l.scheduled.length ∧ l.queue.now ≤ time e
  | .cancel i => ∃ e ∈ l.queue.chain, id e = i ∧ cancellable e
  | .next => True

end

variable {id : E → ℕ} {time : E → T} {cancellable : E → Prop} {l : Log E T}

/-! ## The chain -/

/-- A new event goes behind those of its own time. -/
lemma pairwise_orderedInsert {chain : List E} (h : chain.Pairwise (Before id time)) {e : E}
    (hid : ∀ b ∈ chain, id b < id e) :
    (chain.orderedInsert (fun a b => time a < time b) e).Pairwise (Before id time) := by
  induction chain with
  | nil => simp
  | cons b chain ih =>
    rw [List.pairwise_cons] at h
    rw [List.orderedInsert]
    split
    · rename_i hlt
      refine List.pairwise_cons.mpr ⟨?_, List.pairwise_cons.mpr h⟩
      intro x hx
      left
      rcases List.mem_cons.mp hx with rfl | hx
      · exact hlt
      · rcases h.1 x hx with hbx | ⟨hbx, -⟩
        · exact hlt.trans hbx
        · exact hbx ▸ hlt
    · rename_i hlt
      have hbe : Before id time b e := by
        rcases lt_or_eq_of_le (not_lt.mp hlt) with hbe | hbe
        · exact Or.inl hbe
        · exact Or.inr ⟨hbe, hid b List.mem_cons_self⟩
      refine List.pairwise_cons.mpr ⟨?_, ih h.2 fun x hx => hid x (List.mem_cons_of_mem b hx)⟩
      intro x hx
      rcases (List.mem_orderedInsert _).mp hx with rfl | hx
      · exact hbe
      · exact h.1 x hx

/-- Erasing an element leaves the others and gives that one. -/
lemma perm_find?_eraseP (p : E → Bool) (chain : List E) :
    chain.Perm ((chain.find? p).toList ++ chain.eraseP p) := by
  induction chain with
  | nil => simp
  | cons a chain ih =>
    by_cases hp : p a = true
    · rw [List.find?_cons_of_pos hp, List.eraseP_cons_of_pos hp]
      exact List.Perm.refl _
    · rw [List.find?_cons_of_neg hp, List.eraseP_cons_of_neg hp]
      exact (ih.cons a).trans List.perm_middle.symm

/-- When numbers are unique, cancelling takes out exactly the events with the number. -/
lemma eraseP_eq_filter {chain : List E} (h : (chain.map id).Nodup) (i : ℕ) :
    chain.eraseP (fun e => id e == i) = chain.filter fun e => id e ≠ i := by
  induction chain with
  | nil => rfl
  | cons a chain ih =>
    rw [List.map_cons, List.nodup_cons] at h
    by_cases ha : id a = i
    · have hrest : chain.filter (fun e => decide (id e ≠ i)) = chain := by
        rw [List.filter_eq_self]
        intro e he
        have hne : id e ≠ i := by
          intro heq
          apply h.1
          rw [ha, ← heq]
          exact List.mem_map_of_mem he
        simpa using hne
      rw [List.eraseP_cons_of_pos (by simpa using ha), List.filter_cons_of_neg (by simpa using ha),
        hrest]
    · rw [List.eraseP_cons_of_neg (by simpa using ha), List.filter_cons_of_pos (by simpa using ha),
        ih h.2]

/-! ## One operation -/

namespace Kept

lemma start (now : T) : Kept id time cancellable (Log.start now) where
  ids := rfl
  discarded_nil := rfl
  perm := List.Perm.refl _
  ordered := List.Pairwise.nil
  due := by simp [Log.start]
  past := by simp [Log.start]
  removed := by simp [Log.start]

lemma id_lt (h : Kept id time cancellable l) {e : E} (he : e ∈ l.scheduled) :
    id e < l.scheduled.length := by
  have hmem : id e ∈ l.scheduled.map id := List.mem_map_of_mem he
  rw [h.ids] at hmem
  exact List.mem_range.mp hmem

/-- Every event was scheduled once. -/
lemma nodup_ids (h : Kept id time cancellable l) :
    ((l.dispatched ++ l.queue.chain ++ l.removed).map id).Nodup := by
  rw [← (h.perm.map id).nodup_iff, h.ids]
  exact List.nodup_range

lemma nodup_chain (h : Kept id time cancellable l) : (l.queue.chain.map id).Nodup := by
  have hall := h.nodup_ids
  rw [List.map_append, List.map_append] at hall
  exact (List.nodup_append.mp (List.nodup_append.mp hall).1).2.1

lemma chain_subset (h : Kept id time cancellable l) {e : E} (he : e ∈ l.queue.chain) :
    e ∈ l.scheduled := by
  rw [h.perm.mem_iff]
  simp [he]

lemma dispatched_subset (h : Kept id time cancellable l) {e : E} (he : e ∈ l.dispatched) :
    e ∈ l.scheduled := by
  rw [h.perm.mem_iff]
  simp [he]

lemma schedule (h : Kept id time cancellable l) {e : E} (hid : id e = l.scheduled.length)
    (hdue : l.queue.now ≤ time e) :
    Kept id time cancellable (l.step id time (.schedule e)) := by
  have hpast : ¬time e < l.queue.now := not_lt.mpr hdue
  have hchain : (l.queue.schedule time e).chain =
      l.queue.chain.orderedInsert (fun a b => time a < time b) e := by
    rw [Queue.schedule, if_neg hpast]
  have hnow : (l.queue.schedule time e).now = l.queue.now := by
    rw [Queue.schedule, if_neg hpast]
  have hinsert := List.perm_orderedInsert (fun a b => time a < time b) e l.queue.chain
  refine ⟨?_, ?_, ?_, ?_, ?_, ?_, h.removed⟩
  · change (l.scheduled ++ [e]).map id = List.range (l.scheduled ++ [e]).length
    rw [List.map_append, h.ids, List.length_append, List.length_singleton, List.range_succ,
      List.map_singleton, hid]
  · change (if time e < l.queue.now then l.discarded ++ [e] else l.discarded) = []
    rw [if_neg hpast, h.discarded_nil]
  · change (l.scheduled ++ [e]).Perm
      (l.dispatched ++ (l.queue.schedule time e).chain ++ l.removed)
    rw [hchain]
    calc l.scheduled ++ [e] ~ e :: l.scheduled := List.perm_append_singleton e _
      _ ~ e :: (l.dispatched ++ l.queue.chain ++ l.removed) := h.perm.cons e
      _ ~ l.dispatched ++ e :: l.queue.chain ++ l.removed := by
        rw [List.append_assoc, List.append_assoc]
        exact List.perm_middle.symm
      _ ~ _ := (hinsert.symm.append_left _).append_right _
  · change (l.dispatched ++ (l.queue.schedule time e).chain).Pairwise _
    rw [hchain]
    obtain ⟨hold, hpend, hcross⟩ := List.pairwise_append.mp h.ordered
    have hlast : ∀ b ∈ l.queue.chain, id b < id e := by
      intro b hb
      rw [hid]
      exact h.id_lt (h.chain_subset hb)
    refine List.pairwise_append.mpr ⟨hold, pairwise_orderedInsert hpend hlast, ?_⟩
    intro a ha b hb
    rcases (List.mem_orderedInsert _).mp hb with rfl | hb
    · -- what was dispatched is not later than now
      rcases lt_or_eq_of_le ((h.past a ha).trans hdue) with hlt | heq
      · exact Or.inl hlt
      · exact Or.inr ⟨heq, hid ▸ h.id_lt (h.dispatched_subset ha)⟩
    · exact hcross a ha b hb
  · intro b hb
    change b ∈ (l.queue.schedule time e).chain at hb
    change (l.queue.schedule time e).now ≤ time b
    rw [hchain] at hb
    rw [hnow]
    rcases (List.mem_orderedInsert _).mp hb with rfl | hb
    · exact hdue
    · exact h.due b hb
  · intro a ha
    change time a ≤ (l.queue.schedule time e).now
    rw [hnow]
    exact h.past a ha

lemma cancel (h : Kept id time cancellable l) {i : ℕ}
    (hi : ∃ e ∈ l.queue.chain, id e = i ∧ cancellable e) :
    Kept id time cancellable (l.step id time (.cancel i)) := by
  have hsub : (l.queue.cancel id i).chain.Sublist l.queue.chain := List.eraseP_sublist
  refine ⟨h.ids, h.discarded_nil, ?_, ?_, fun e he => h.due e (hsub.subset he), h.past, ?_⟩
  · have hsplit := perm_find?_eraseP (fun e => id e == i) l.queue.chain
    change l.scheduled.Perm (l.dispatched ++ l.queue.chain.eraseP (fun e => id e == i) ++
      (l.removed ++ (l.queue.chain.find? fun e => id e == i).toList))
    calc l.scheduled ~ l.dispatched ++ l.queue.chain ++ l.removed := h.perm
      _ ~ l.dispatched ++ ((l.queue.chain.find? fun e => id e == i).toList ++
          l.queue.chain.eraseP fun e => id e == i) ++ l.removed :=
        (hsplit.append_left _).append_right _
      _ ~ _ := by
        rw [List.append_assoc, List.append_assoc, List.append_assoc]
        apply List.Perm.append_left
        rw [← List.append_assoc _ l.removed]
        exact List.perm_append_comm
  · exact h.ordered.sublist (hsub.append_left _)
  · intro e he
    change e ∈ l.removed ++ (l.queue.chain.find? fun e => id e == i).toList at he
    rcases List.mem_append.mp he with he | he
    · exact h.removed e he
    · obtain ⟨e', he', hid, hc⟩ := hi
      rw [Option.mem_toList] at he
      have hide : id e = i := by simpa using List.find?_some he
      have heq : e = e' :=
        List.inj_on_of_nodup_map h.nodup_chain (List.mem_of_find?_eq_some he) he'
          (hide.trans hid.symm)
      rwa [heq]

lemma next (h : Kept id time cancellable l) :
    Kept id time cancellable (l.step id time .next) := by
  cases hchain : l.queue.chain with
  | nil =>
    have hsame : l.step id time .next = l := by
      simp [Log.step, Queue.next, hchain]
    rwa [hsame]
  | cons e rest =>
    have hqueue : l.queue.next time = ⟨time e, rest⟩ := by rw [Queue.next, hchain]
    have hmove : l.dispatched ++ [e] ++ rest = l.dispatched ++ e :: rest := by simp
    have hperm := h.perm
    have hordered := h.ordered
    have hdue := h.due
    rw [hchain] at hperm hordered hdue
    obtain ⟨-, hrest, hcross⟩ := List.pairwise_append.mp hordered
    simp only [Log.step, hqueue, hchain, List.head?_cons, Option.toList_some]
    refine ⟨h.ids, h.discarded_nil, ?_, ?_, ?_, ?_, h.removed⟩
    · change l.scheduled.Perm (l.dispatched ++ [e] ++ rest ++ l.removed)
      rwa [hmove]
    · change (l.dispatched ++ [e] ++ rest).Pairwise _
      rwa [hmove]
    · intro b hb
      rcases (List.pairwise_cons.mp hrest).1 b hb with hlt | ⟨heq, -⟩
      · exact le_of_lt hlt
      · exact le_of_eq heq
    · intro a ha
      rcases List.mem_append.mp ha with ha | ha
      · exact (h.past a ha).trans (hdue e List.mem_cons_self)
      · rw [List.mem_singleton.mp ha]

/-- **One operation keeps everything.** -/
theorem step (h : Kept id time cancellable l) {op : Op E}
    (hop : Allowed id time cancellable l op) : Kept id time cancellable (l.step id time op) := by
  cases op with
  | schedule e => exact h.schedule hop.1 hop.2
  | cancel i => exact h.cancel hop
  | next => exact h.next

/-- Time does not go back. -/
lemma now_le_step (h : Kept id time cancellable l) (op : Op E) :
    l.queue.now ≤ (l.step id time op).queue.now := by
  cases op with
  | schedule e =>
    change l.queue.now ≤ (l.queue.schedule time e).now
    unfold Queue.schedule
    split <;> exact le_refl _
  | cancel i => exact le_refl _
  | next =>
    change l.queue.now ≤ (l.queue.next time).now
    unfold Queue.next
    cases hchain : l.queue.chain with
    | nil => exact le_refl _
    | cons e rest => exact h.due e (hchain ▸ List.mem_cons_self)

end Kept

/-! ## Sequences of operations -/

section
variable (id time cancellable)

/-- Every operation of a sequence is allowed when its turn comes. -/
def AllowedFrom : Log E T → List (Op E) → Prop
  | _, [] => True
  | l, op :: ops => Allowed id time cancellable l op ∧ AllowedFrom (l.step id time op) ops

end

lemma run_append (l : Log E T) (ops ops' : List (Op E)) :
    l.run id time (ops ++ ops') = (l.run id time ops).run id time ops' :=
  List.foldl_append

lemma allowedFrom_append {ops ops' : List (Op E)} :
    AllowedFrom id time cancellable l (ops ++ ops') ↔
      AllowedFrom id time cancellable l ops ∧
        AllowedFrom id time cancellable (l.run id time ops) ops' := by
  induction ops generalizing l with
  | nil => simp [AllowedFrom, Log.run]
  | cons op ops ih =>
    rw [List.cons_append, AllowedFrom, AllowedFrom, ih, and_assoc]
    rfl

/-- **A sequence of operations keeps everything.** -/
theorem Kept.run (h : Kept id time cancellable l) {ops : List (Op E)}
    (hops : AllowedFrom id time cancellable l ops) :
    Kept id time cancellable (l.run id time ops) := by
  induction ops generalizing l with
  | nil => exact h
  | cons op ops ih => exact ih (h.step hops.1) hops.2

lemma Kept.now_le_run (h : Kept id time cancellable l) {ops : List (Op E)}
    (hops : AllowedFrom id time cancellable l ops) :
    l.queue.now ≤ (l.run id time ops).queue.now := by
  induction ops generalizing l with
  | nil => exact le_refl _
  | cons op ops ih => exact (h.now_le_step op).trans (ih (h.step hops.1) hops.2)

end NetLabs.Lib.EventQueue
