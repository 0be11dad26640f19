import Mathlib.Algebra.BigOperators.Group.List.Basic
import Mathlib.Data.Nat.Basic
import Mathlib.Tactic.Common
import Mathlib.Tactic.Linarith

/-!
# Single-rate three-colour metering

Two buckets of tokens, in bytes. Time is divided into periods from an instant `start` on; every
period adds `bytes` tokens to the committed bucket, and what does not fit there goes to the excess
bucket. A packet that finds its length in the committed bucket takes it from there and is green;
one that finds it in the excess bucket takes it from that one and is yellow; any other packet is
red and takes nothing.

The tokens are the account of the bytes: no packet takes a token that was not there at the start
and was not added since (`greenBytes_le`, `markedBytes_le`).
-/

namespace NetLabs.Lib
namespace TokenBucket

/-- The colours of packets. -/
inductive Mark
  | green
  | yellow
  | red
deriving DecidableEq

/-- The sizes of the two buckets, what a period adds and how long it lasts, and when the first one
begins. -/
structure Bucket where
  cbs : ℕ
  ebs : ℕ
  bytes : ℕ
  period : ℕ
  start : ℕ

/-- The tokens in the buckets, and the number of periods they account for. -/
structure Level where
  tc : ℕ
  te : ℕ
  periods : ℕ

/-- A packet: when it arrives, and its length. -/
structure Arrival where
  time : ℕ
  len : ℕ
deriving DecidableEq

/-- Both buckets are full. -/
def Bucket.full (p : Bucket) : Level := ⟨p.cbs, p.ebs, 0⟩

/-- The periods that have ended by the instant `t`. -/
def Bucket.periods (p : Bucket) (t : ℕ) : ℕ := (t - p.start) / p.period

/-- `n` periods pass. -/
def Level.add (p : Bucket) (n : ℕ) (l : Level) : Level where
  tc := min (l.tc + n * p.bytes) p.cbs
  te := min (l.te + (l.tc + n * p.bytes - p.cbs)) p.ebs
  periods := l.periods + n

/-- A packet of `len` bytes takes its tokens. -/
def Level.take (len : ℕ) (l : Level) : Mark × Level :=
  if len ≤ l.tc then (.green, { l with tc := l.tc - len })
  else if len ≤ l.te then (.yellow, { l with te := l.te - len })
  else (.red, l)

/-- A packet arrives. -/
def Bucket.step (p : Bucket) (l : Level) (a : Arrival) : Mark × Level :=
  (l.add p (p.periods a.time - l.periods)).take a.len

/-- The packets with their marks. -/
def Bucket.marked (p : Bucket) : Level → List Arrival → List (Arrival × Mark)
  | _, [] => []
  | l, a :: as => (a, (p.step l a).1) :: p.marked (p.step l a).2 as

/-- The bytes of the packets with a mark. -/
def bytesOf (k : Mark) (log : List (Arrival × Mark)) : ℕ :=
  (log.map fun e => if e.2 = k then e.1.len else 0).sum

variable {p : Bucket} {l : Level} {a : Arrival} {as : List Arrival}

lemma bytesOf_nil (k : Mark) : bytesOf k [] = 0 := rfl

lemma bytesOf_cons (k : Mark) (e : Arrival × Mark) (log : List (Arrival × Mark)) :
    bytesOf k (e :: log) = (if e.2 = k then e.1.len else 0) + bytesOf k log := rfl

/-! ## Periods -/

lemma Bucket.periods_mono : Monotone p.periods := by
  intro s t h
  exact Nat.div_le_div_right (Nat.sub_le_sub_right h _)

lemma Bucket.le_periods (hpos : 0 < p.period) {n t : ℕ} (h : p.start + n * p.period ≤ t) :
    n ≤ p.periods t := by
  unfold Bucket.periods
  rw [Nat.le_div_iff_mul_le hpos]
  omega

lemma Bucket.start_add_periods_le {t : ℕ} (h : p.start ≤ t) :
    p.start + p.periods t * p.period ≤ t := by
  have hle : p.periods t * p.period ≤ t - p.start := Nat.div_mul_le_self _ _
  omega

/-! ## One packet -/

lemma Level.add_tc_le (n : ℕ) : (l.add p n).tc ≤ l.tc + n * p.bytes := Nat.min_le_left _ _

/-- What overflows the committed bucket is not counted twice. -/
lemma Level.add_total_le (n : ℕ) :
    (l.add p n).tc + (l.add p n).te ≤ l.tc + l.te + n * p.bytes := by
  unfold Level.add
  dsimp only
  omega

/-- Full buckets stay full. -/
lemma Bucket.full_add (p : Bucket) (n : ℕ) : p.full.add p n = { p.full with periods := n } := by
  unfold Level.add Bucket.full
  dsimp only
  rw [Nat.min_eq_right (Nat.le_add_right _ _), Nat.min_eq_right (Nat.le_add_right _ _),
    Nat.zero_add]

/-- Periods add up, also for what overflows. -/
lemma Level.add_add (p : Bucket) (l : Level) (n k : ℕ) :
    (l.add p n).add p k = l.add p (n + k) := by
  unfold Level.add
  dsimp only
  rw [Nat.add_mul, Nat.add_assoc]
  congr 1
  · omega
  · omega

/-- A packet takes its bytes from the bucket of its colour. -/
lemma Level.take_account (len : ℕ) :
    (if (l.take len).1 = .green then len else 0) + (l.take len).2.tc = l.tc ∧
      (if (l.take len).1 = .yellow then len else 0) + (l.take len).2.te = l.te := by
  unfold Level.take
  split
  · simp only [if_true, reduceCtorEq, if_false]
    omega
  · split
    · simp only [if_true, reduceCtorEq, if_false]
      omega
    · simp

lemma Level.take_periods (len : ℕ) : (l.take len).2.periods = l.periods := by
  unfold Level.take
  split
  · rfl
  · split
    · rfl
    · rfl

lemma Bucket.step_periods (h : l.periods ≤ p.periods a.time) :
    (p.step l a).2.periods = p.periods a.time := by
  unfold Bucket.step
  rw [Level.take_periods]
  unfold Level.add
  dsimp only
  omega

/-- A packet of the first period finds the buckets full. -/
lemma Bucket.step_full (h : p.periods a.time = 0) : p.step p.full a = p.full.take a.len := by
  unfold Bucket.step
  rw [h, Nat.zero_sub, Bucket.full_add]
  rfl

/-- A packet is green if it fits the committed bucket and the tokens there are enough. -/
lemma Bucket.step_green (hcbs : a.len ≤ p.cbs)
    (htc : a.len ≤ l.tc + (p.periods a.time - l.periods) * p.bytes) :
    (p.step l a).1 = .green := by
  unfold Bucket.step Level.take
  rw [if_pos]
  exact Nat.le_min.mpr ⟨htc, hcbs⟩

/-- **One packet and the tokens**: those of the periods since the packet before it are added, and
its own are taken. -/
lemma Bucket.step_account (h : l.periods ≤ p.periods a.time) :
    (if (p.step l a).1 = .green then a.len else 0) + (p.step l a).2.tc + l.periods * p.bytes ≤
        l.tc + p.periods a.time * p.bytes ∧
      (if (p.step l a).1 = .green then a.len else 0) +
          (if (p.step l a).1 = .yellow then a.len else 0) +
          ((p.step l a).2.tc + (p.step l a).2.te) + l.periods * p.bytes ≤
        l.tc + l.te + p.periods a.time * p.bytes := by
  obtain ⟨n, hn⟩ := Nat.exists_eq_add_of_le h
  have hsub : p.periods a.time - l.periods = n := by omega
  unfold Bucket.step
  rw [hsub, hn, Nat.add_mul]
  obtain ⟨hgreen, hyellow⟩ := Level.take_account (l := l.add p n) a.len
  have htc := Level.add_tc_le (l := l) (p := p) n
  have htotal := Level.add_total_le (l := l) (p := p) n
  omega

/-! ## All packets -/

/-- The account of a stretch of packets that do not go back in time. -/
lemma Bucket.marked_account {last : Arrival × Mark} :
    ∀ (as : List Arrival) {l : Level} {pre : List (Arrival × Mark)},
      (∀ a ∈ as, l.periods ≤ p.periods a.time) → as.Pairwise (fun a b => a.time ≤ b.time) →
      pre ++ [last] <+: p.marked l as →
      bytesOf .green (pre ++ [last]) + l.periods * p.bytes ≤
          l.tc + p.periods last.1.time * p.bytes ∧
        bytesOf .green (pre ++ [last]) + bytesOf .yellow (pre ++ [last]) + l.periods * p.bytes ≤
          l.tc + l.te + p.periods last.1.time * p.bytes := by
  intro as
  induction as with
  | nil =>
    intro l pre _ _ h
    have hnil := List.prefix_nil.mp h
    simp at hnil
  | cons a as ih =>
    intro l pre hle hsorted h
    have hfirst := hle a List.mem_cons_self
    obtain ⟨hgreen, htotal⟩ := Bucket.step_account hfirst
    rw [Bucket.marked] at h
    cases pre with
    | nil =>
      -- the last packet of the stretch is its first
      obtain ⟨hlast, -⟩ := List.cons_prefix_cons.mp h
      subst hlast
      simp only [List.nil_append, bytesOf_cons, bytesOf_nil]
      omega
    | cons e pre =>
      obtain ⟨he, hrest⟩ := List.cons_prefix_cons.mp h
      subst he
      obtain ⟨hhead, htail⟩ := List.pairwise_cons.mp hsorted
      have hle' : ∀ b ∈ as, (p.step l a).2.periods ≤ p.periods b.time := by
        intro b hb
        rw [Bucket.step_periods hfirst]
        exact Bucket.periods_mono (hhead b hb)
      obtain ⟨hgreen', htotal'⟩ := ih hle' htail hrest
      rw [Bucket.step_periods hfirst] at hgreen' htotal'
      simp only [List.cons_append, bytesOf_cons]
      omega

section
variable {pre : List (Arrival × Mark)} {last : Arrival × Mark}

/-- **The committed bytes**: after every packet, the green bytes fit the committed bucket and what
the periods since have added. -/
theorem Bucket.greenBytes_le (hsorted : as.Pairwise (fun a b => a.time ≤ b.time))
    (h : pre ++ [last] <+: p.marked p.full as) :
    bytesOf .green (pre ++ [last]) ≤ p.cbs + p.periods last.1.time * p.bytes := by
  have haccount := (Bucket.marked_account as (fun _ _ => Nat.zero_le _) hsorted h).1
  exact le_trans (Nat.le_add_right _ _) haccount

/-- **The committed and excess bytes**: the same for the green and yellow bytes and both buckets. -/
theorem Bucket.markedBytes_le (hsorted : as.Pairwise (fun a b => a.time ≤ b.time))
    (h : pre ++ [last] <+: p.marked p.full as) :
    bytesOf .green (pre ++ [last]) + bytesOf .yellow (pre ++ [last]) ≤
      p.cbs + p.ebs + p.periods last.1.time * p.bytes := by
  have haccount := (Bucket.marked_account as (fun _ _ => Nat.zero_le _) hsorted h).2
  exact le_trans (Nat.le_add_right _ _) haccount

end
end TokenBucket
end NetLabs.Lib
