import Mathlib.Data.List.Infix
import NetLabs.Lib.TokenBucket

/-!
# Arrival curves

One bucket of tokens with a steady income, and the traffic it can pay for. Packets that each find
their tokens in the bucket are those whose every stretch, from one packet to another, has no more
bytes than fit the bucket and come in between the two (`pays_iff`, `pays_full_iff`): the bucket,
which looks at one packet after the other, and the curve, which looks at all stretches, are two
descriptions of the same traffic.

A packet that takes nothing from the bucket can be left out (`pays_top_iff`).
-/

namespace NetLabs.Lib
namespace TokenBucket

/-- How many tokens fit the bucket, what a period adds and how long it lasts, and when the first one
begins. -/
structure Credit where
  size : ℕ
  bytes : ℕ
  period : ℕ
  start : ℕ

/-- The tokens in a bucket, and the number of periods they account for. -/
@[ext] structure Purse where
  tokens : ℕ
  periods : ℕ

namespace Credit

/-- A full bucket. -/
def full (c : Credit) : Purse := ⟨c.size, 0⟩

/-- The periods that have ended by the instant `t`. -/
def periods (c : Credit) (t : ℕ) : ℕ := (t - c.start) / c.period

/-- The tokens that have been added by the instant `t`. -/
def income (c : Credit) (t : ℕ) : ℕ := c.periods t * c.bytes

/-- The tokens of the periods until `t` are added. -/
def top (c : Credit) (t : ℕ) (s : Purse) : Purse where
  tokens := min (s.tokens + (c.periods t - s.periods) * c.bytes) c.size
  periods := s.periods + (c.periods t - s.periods)

/-- Some tokens are taken. -/
def spend (n : ℕ) (s : Purse) : Purse := { s with tokens := s.tokens - n }

/-- Every packet finds its tokens and takes them. -/
def Pays (c : Credit) : Purse → List Arrival → Prop
  | _, [] => True
  | s, a :: as => a.len ≤ (c.top a.time s).tokens ∧ c.Pays (spend a.len (c.top a.time s)) as

/-- The bytes of some packets. -/
def bytesIn (w : List Arrival) : ℕ := (w.map Arrival.len).sum

/-- **The arrival curve**: every stretch of packets has at most as many bytes as fit the bucket and
come in between its first packet and its last. -/
def Conforms (c : Credit) (as : List Arrival) : Prop :=
  ∀ a w, a :: w <:+: as → bytesIn (a :: w) + c.income a.time ≤ c.size + c.income (w.getLastD a).time

/-- The same for the stretches from the first packet on, with the tokens that are there. -/
def Affords (c : Credit) (s : Purse) (as : List Arrival) : Prop :=
  ∀ a w, a :: w <+: as →
    bytesIn (a :: w) + s.periods * c.bytes ≤ s.tokens + c.income (w.getLastD a).time

/-- The packets do not go back in time, nor before the periods that are counted. -/
def Later (c : Credit) (s : Purse) (as : List Arrival) : Prop :=
  (∀ a ∈ as, s.periods ≤ c.periods a.time) ∧ as.Pairwise fun a b => a.time ≤ b.time

variable {c : Credit} {s : Purse} {a : Arrival} {as : List Arrival}

/-! ## Adding tokens -/

lemma periods_mono : Monotone c.periods := by
  intro t u h
  exact Nat.div_le_div_right (Nat.sub_le_sub_right h _)

/-- The income between two instants: that of some periods, which last as long as the time between
them, a period more or less. -/
lemma income_gap (hpos : 0 < c.period) {t u : ℕ} (hstart : c.start ≤ t) (htu : t ≤ u) :
    ∃ n, c.income u = c.income t + n * c.bytes ∧ u - t < (n + 1) * c.period ∧
      n * c.period < u - t + c.period := by
  obtain ⟨n, hn⟩ := Nat.exists_eq_add_of_le (periods_mono (c := c) htu)
  have hlow : ∀ v, c.periods v * c.period ≤ v - c.start := fun v => Nat.div_mul_le_self _ _
  have hhigh : ∀ v, v - c.start < (c.periods v + 1) * c.period := by
    intro v
    rw [Nat.mul_comm]
    exact Nat.lt_mul_div_succ _ hpos
  have ht := hlow t
  have ht' := hhigh t
  have hu := hlow u
  have hu' := hhigh u
  rw [hn, Nat.add_mul] at hu
  rw [Nat.add_mul, Nat.one_mul] at ht'
  rw [hn, Nat.add_assoc, Nat.add_mul] at hu'
  refine ⟨n, ?_, by omega, by omega⟩
  unfold income
  rw [hn, Nat.add_mul]

lemma top_periods {t : ℕ} (h : s.periods ≤ c.periods t) : (c.top t s).periods = c.periods t :=
  Nat.add_sub_of_le h

/-- Tokens that are added in two steps are those added in one. -/
lemma top_top {t u : ℕ} (ht : s.periods ≤ c.periods t) (htu : t ≤ u) :
    c.top u (c.top t s) = c.top u s := by
  obtain ⟨n, hn⟩ := Nat.exists_eq_add_of_le ht
  obtain ⟨k, hk⟩ := Nat.exists_eq_add_of_le (periods_mono (c := c) htu)
  apply Purse.ext
  · unfold top
    dsimp only
    rw [show c.periods t - s.periods = n by omega, show c.periods u - (s.periods + n) = k by omega,
      show c.periods u - s.periods = n + k by omega, Nat.add_mul]
    omega
  · rw [top_periods (by rw [top_periods ht]; exact periods_mono htu),
      top_periods (le_trans ht (periods_mono htu))]

/-! ## Packets -/

lemma Later.head (h : c.Later s (a :: as)) : s.periods ≤ c.periods a.time :=
  h.1 a List.mem_cons_self

/-- After a packet, whatever it takes. -/
lemma Later.tail (h : c.Later s (a :: as)) {s' : Purse} (hs : s'.periods = c.periods a.time) :
    c.Later s' as := by
  obtain ⟨hhead, htail⟩ := List.pairwise_cons.mp h.2
  refine ⟨fun b hb => ?_, htail⟩
  rw [hs]
  exact periods_mono (hhead b hb)

lemma Later.sublist {as' : List Arrival} (h : c.Later s as) (hsub : as'.Sublist as) :
    c.Later s as' :=
  ⟨fun b hb => h.1 b (hsub.subset hb), h.2.sublist hsub⟩

/-- **A packet that takes nothing** can be left out. -/
lemma pays_top_iff {t : ℕ} (ht : s.periods ≤ c.periods t) (has : ∀ a ∈ as, t ≤ a.time) :
    c.Pays (c.top t s) as ↔ c.Pays s as := by
  cases as with
  | nil => exact Iff.rfl
  | cons a as =>
    unfold Pays
    rw [top_top ht (has a List.mem_cons_self)]

/-! ## The bucket and the curve -/

lemma bytesIn_cons (a : Arrival) (w : List Arrival) : bytesIn (a :: w) = a.len + bytesIn w :=
  List.sum_cons

lemma affords_nil (c : Credit) (s : Purse) : c.Affords s [] := by
  intro a w h
  cases List.prefix_nil.mp h

/-- The stretches from the first of the packets on: that packet alone, and those that go on. -/
lemma affords_cons :
    c.Affords s (a :: as) ↔ a.len + s.periods * c.bytes ≤ s.tokens + c.income a.time ∧
      ∀ b w, b :: w <+: as → a.len + bytesIn (b :: w) + s.periods * c.bytes ≤
        s.tokens + c.income (w.getLastD b).time := by
  constructor
  · intro hall
    refine ⟨hall a [] (List.cons_prefix_cons.mpr ⟨rfl, List.nil_prefix⟩), fun b w hw => ?_⟩
    have hlong := hall a (b :: w) (List.cons_prefix_cons.mpr ⟨rfl, hw⟩)
    rwa [bytesIn_cons a, List.getLastD_cons] at hlong
  · rintro ⟨hone, hmore⟩ a' w hw
    obtain ⟨rfl, htail⟩ := List.cons_prefix_cons.mp hw
    cases w with
    | nil => exact hone
    | cons b w =>
      rw [bytesIn_cons a', List.getLastD_cons]
      exact hmore b w htail

/-- Stretches that begin with the first packet, and stretches of the others. -/
lemma conforms_cons : c.Conforms (a :: as) ↔
    c.Affords ⟨c.size, c.periods a.time⟩ (a :: as) ∧ c.Conforms as := by
  constructor
  · intro hall
    refine ⟨fun b w hw => ?_, fun b w hw => hall b w (List.infix_cons hw)⟩
    obtain ⟨rfl, -⟩ := List.cons_prefix_cons.mp hw
    exact hall b w hw.isInfix
  · rintro ⟨hfirst, hrest⟩ b w hw
    rcases List.infix_cons_iff.mp hw with hw | hw
    · have hbound := hfirst b w hw
      obtain ⟨rfl, -⟩ := List.cons_prefix_cons.mp hw
      exact hbound
    · exact hrest b w hw

/-- **The bucket and the curve**: packets can be paid for if the tokens that are there are enough
for the stretches from the first packet on, and the size of the bucket for all others. -/
theorem pays_iff : ∀ (as : List Arrival) {s : Purse}, c.Later s as →
    (c.Pays s as ↔ c.Affords s as ∧ c.Conforms as) := by
  intro as
  induction as with
  | nil =>
    intro s _
    refine ⟨fun _ => ⟨affords_nil c s, fun a w h => ?_⟩, fun _ => trivial⟩
    cases List.infix_nil.mp h
  | cons a as ih =>
    intro s h
    have hperiods := top_periods h.head
    have hlater : c.Later (spend a.len (c.top a.time s)) as := h.tail hperiods
    obtain ⟨n, hn⟩ := Nat.exists_eq_add_of_le h.head
    have hincome : c.income a.time = s.periods * c.bytes + n * c.bytes := by
      unfold income
      rw [hn, Nat.add_mul]
    have htokens : (c.top a.time s).tokens = min (s.tokens + n * c.bytes) c.size := by
      unfold top
      rw [hn, Nat.add_sub_cancel_left]
    rw [Pays, ih hlater, conforms_cons, affords_cons, affords_cons]
    -- the tokens after the packet are the smaller of two numbers, one for each of the two bounds
    have hspend : (spend a.len (c.top a.time s)).tokens =
        min (s.tokens + n * c.bytes) c.size - a.len := by rw [← htokens]; rfl
    have hcount : (spend a.len (c.top a.time s)).periods * c.bytes = c.income a.time := by
      show (c.top a.time s).periods * c.bytes = _
      rw [hperiods]
      rfl
    have hfull : (⟨c.size, c.periods a.time⟩ : Purse).periods * c.bytes = c.income a.time := rfl
    unfold Affords
    rw [hspend, hcount, hfull, htokens]
    constructor
    · rintro ⟨hlen, hrest, hconf⟩
      refine ⟨⟨by omega, fun b w hw => ?_⟩, ⟨by dsimp only; omega, fun b w hw => ?_⟩, hconf⟩
      · have hbound := hrest b w hw
        omega
      · have hbound := hrest b w hw
        dsimp only
        omega
    · rintro ⟨⟨hlen, hrest⟩, ⟨hsize, hcurve⟩, hconf⟩
      dsimp only at hsize hcurve
      refine ⟨by omega, fun b w hw => ?_, hconf⟩
      have hbound := hrest b w hw
      have hbound' := hcurve b w hw
      omega

/-- **A full bucket pays for the traffic that conforms to its curve, and for no other.** -/
theorem pays_full_iff (hsorted : as.Pairwise fun a b => a.time ≤ b.time) :
    c.Pays c.full as ↔ c.Conforms as := by
  rw [pays_iff as ⟨fun _ _ => Nat.zero_le _, hsorted⟩]
  refine ⟨fun h => h.2, fun h => ⟨fun a w hw => ?_, h⟩⟩
  have hbound := h a w hw.isInfix
  show bytesIn (a :: w) + 0 * c.bytes ≤ c.size + _
  omega

end Credit
end TokenBucket
end NetLabs.Lib
