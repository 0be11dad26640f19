import Mathlib.Data.List.Basic
import Mathlib.Tactic.Common

/-!
# Markers

A marker looks at packets one after the other. Each carries a mark and is given one; what the marker
does depends on its state, which changes with time and with every packet.

* `remark_map` relates two markers: the marks of the one are those of the other.
* `remark_kept` is about two equal markers in series, where the packets with one of the marks are
  dropped between them: the second one changes nothing.
-/

namespace NetLabs.Lib

/-- A packet, with the instant at which it arrives and the mark that it carries. -/
structure Stamped (T P K : Type*) where
  time : T
  body : P
  mark : K
deriving DecidableEq

/-- The same packet in other units. -/
def Stamped.map {T T' P P' K K' : Type*} (t : T → T') (p : P → P') (k : K → K')
    (x : Stamped T P K) : Stamped T' P' K' :=
  ⟨t x.time, p x.body, k x.mark⟩

/-- How the state changes with time, and how it changes with a packet, which is marked. -/
structure Marker (S T P K : Type*) where
  advance : T → S → S
  take : P → K → S → K × S

namespace Marker

variable {S S' T T' P P' K K' : Type*} {M : Marker S T P K} {M' : Marker S' T' P' K'}

/-- A packet arrives. -/
def step (M : Marker S T P K) (s : S) (x : Stamped T P K) : K × S :=
  M.take x.body x.mark (M.advance x.time s)

/-- The packets with the marks they are given. -/
def remark (M : Marker S T P K) : S → List (Stamped T P K) → List (Stamped T P K)
  | _, [] => []
  | s, x :: xs => { x with mark := (M.step s x).1 } :: M.remark (M.step s x).2 xs

/-- The packets that do not carry the mark `red`. -/
def kept [DecidableEq K] (red : K) (xs : List (Stamped T P K)) : List (Stamped T P K) :=
  xs.filter fun x => x.mark ≠ red

lemma remark_times (M : Marker S T P K) : ∀ (xs : List (Stamped T P K)) (s : S),
    (M.remark s xs).map Stamped.time = xs.map Stamped.time := by
  intro xs
  induction xs with
  | nil => intro s; rfl
  | cons x xs ih =>
    intro s
    rw [remark, List.map_cons, List.map_cons, ih]

/-! ## Two markers -/

section
variable {R : S → S' → List (Stamped T P K) → Prop} {t : T → T'} {p : P → P'} {k : K → K'}

/-- **Simulation**: two markers whose states are related give related marks. The relation may say
something about the packets to come as well. -/
lemma remark_map (hstep : ∀ s s' x xs, R s s' (x :: xs) →
      (M'.step s' (x.map t p k)).1 = k (M.step s x).1 ∧
        R (M.step s x).2 (M'.step s' (x.map t p k)).2 xs) :
    ∀ (xs : List (Stamped T P K)) {s : S} {s' : S'}, R s s' xs →
      M'.remark s' (xs.map (Stamped.map t p k)) = (M.remark s xs).map (Stamped.map t p k) := by
  intro xs
  induction xs with
  | nil => intro s s' _; rfl
  | cons x xs ih =>
    intro s s' h
    obtain ⟨hmark, hnext⟩ := hstep s s' x xs h
    rw [List.map_cons, remark, remark, List.map_cons, ih hnext, hmark]
    rfl

end

/-! ## Two markers in series -/

/-- What makes a marker a policer: it adds up time, it changes by a packet that it marks `red` with
time alone, and it gives a packet that it has marked that mark again. `Ready s t` says that the
state `s` can be brought to the instant `t`. -/
structure Polices [LE T] (M : Marker S T P K) (red : K) (Ready : S → T → Prop) : Prop where
  advance_advance : ∀ {s t u}, Ready s t → Ready s u → t ≤ u →
    M.advance u (M.advance t s) = M.advance u s
  ready_advance : ∀ {s t u}, Ready s t → Ready s u → t ≤ u → Ready (M.advance t s) u
  ready_take : ∀ {s t} p j, Ready s t → Ready (M.take p j s).2 t
  take_red : ∀ {s p j}, (M.take p j s).1 = red → (M.take p j s).2 = s
  take_again : ∀ s p j, M.take p (M.take p j s).1 s = M.take p j s

section
variable [LE T] {red : K} {Ready : S → T → Prop} {s : S} {t : T}

/-- Time that passes before the next packet makes no difference. -/
lemma Polices.remark_advance (h : M.Polices red Ready) (xs : List (Stamped T P K)) (ht : Ready s t)
    (hready : ∀ x ∈ xs, Ready s x.time) (hlater : ∀ x ∈ xs, t ≤ x.time) :
    M.remark (M.advance t s) xs = M.remark s xs := by
  cases xs with
  | nil => rfl
  | cons x xs =>
    have hadvance : M.advance x.time (M.advance t s) = M.advance x.time s :=
      h.advance_advance ht (hready x List.mem_cons_self) (hlater x List.mem_cons_self)
    unfold remark step
    rw [hadvance]

/-- **Policing twice is policing once**: of the packets that a marker keeps, an equal one changes no
mark. -/
theorem Polices.remark_kept [DecidableEq K] (h : M.Polices red Ready) :
    ∀ (xs : List (Stamped T P K)) {s : S}, (∀ x ∈ xs, Ready s x.time) →
      xs.Pairwise (fun x y => x.time ≤ y.time) →
      M.remark s (kept red (M.remark s xs)) = kept red (M.remark s xs) := by
  intro xs
  induction xs with
  | nil => intro s _ _; rfl
  | cons x xs ih =>
    intro s hready hsorted
    obtain ⟨hhead, htail⟩ := List.pairwise_cons.mp hsorted
    have hfirst := hready x List.mem_cons_self
    have hlater : ∀ y ∈ xs, Ready (M.advance x.time s) y.time := by
      intro y hy
      exact h.ready_advance hfirst (hready y (List.mem_cons_of_mem _ hy)) (hhead y hy)
    have hnext := ih (fun y hy => h.ready_take x.body x.mark (hlater y hy)) htail
    rw [remark]
    by_cases hred : (M.step s x).1 = red
    · -- the packet is dropped, and the second marker does not see the time it arrives
      have hstate : (M.step s x).2 = M.advance x.time s := h.take_red hred
      have hdrop : kept red ({ x with mark := (M.step s x).1 } :: M.remark (M.step s x).2 xs) =
          kept red (M.remark (M.step s x).2 xs) :=
        List.filter_cons_of_neg (by simpa using hred)
      have htimes : ∀ y ∈ kept red (M.remark (M.step s x).2 xs), ∃ z ∈ xs, z.time = y.time := by
        intro y hy
        have hmem := List.mem_map_of_mem (f := Stamped.time) (List.mem_of_mem_filter hy)
        rw [remark_times] at hmem
        exact List.mem_map.mp hmem
      have hskip := h.remark_advance (kept red (M.remark (M.step s x).2 xs)) hfirst
        (fun y hy => by
          obtain ⟨z, hz, htime⟩ := htimes y hy
          exact htime ▸ hready z (List.mem_cons_of_mem _ hz))
        (fun y hy => by
          obtain ⟨z, hz, htime⟩ := htimes y hy
          exact htime ▸ hhead z hz)
      rw [hdrop, ← hskip, ← hstate]
      exact hnext
    · have hkeep : kept red ({ x with mark := (M.step s x).1 } :: M.remark (M.step s x).2 xs) =
          { x with mark := (M.step s x).1 } :: kept red (M.remark (M.step s x).2 xs) :=
        List.filter_cons_of_pos (by simpa using hred)
      have hagain : M.step s { x with mark := (M.step s x).1 } = M.step s x := h.take_again _ _ _
      rw [hkeep, remark, hagain]
      exact congrArg₂ _ rfl hnext

end
end Marker
end NetLabs.Lib
