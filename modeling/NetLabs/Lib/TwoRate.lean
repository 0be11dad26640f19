import NetLabs.Lib.ArrivalCurve
import NetLabs.Lib.Marker

/-!
# Two-rate three-colour metering

Two buckets with an income each. A packet that comes as red stays red. Another one is red as well if
the peak bucket has not the tokens for it; otherwise it takes them there and is yellow, or, if it
came as green and the committed bucket has the tokens too, takes them there as well and is green.

What comes out conforms to the two arrival curves, and a marker changes nothing exactly where what
comes in conforms already (`passed_remark_iff`, `remark_eq_iff`).
-/

namespace NetLabs.Lib
namespace TokenBucket

/-- The two buckets. -/
structure TwoRate where
  committed : Credit
  peak : Credit

/-- What is in them. -/
structure Purses where
  committed : Purse
  peak : Purse

/-- A packet, whose body is its length. -/
abbrev Packet := Stamped ℕ ℕ Mark

def Packet.arrival (x : Packet) : Arrival := ⟨x.time, x.body⟩

/-- The packets with one of the marks in `q`. -/
def having (q : Mark → Bool) (xs : List Packet) : List Arrival :=
  (xs.filter fun x => q x.mark).map Packet.arrival

/-- The packets that are not red. -/
def passed (xs : List Packet) : List Arrival := having (fun k => k != .red) xs

/-- The packets that are green. -/
def greens (xs : List Packet) : List Arrival := having (fun k => k == .green) xs

namespace TwoRate

/-- Both buckets are full. -/
def full (p : TwoRate) : Purses := ⟨p.committed.full, p.peak.full⟩

/-- The marker with the two buckets. -/
def marker (p : TwoRate) : Marker Purses ℕ ℕ Mark where
  advance t s := ⟨p.committed.top t s.committed, p.peak.top t s.peak⟩
  take n k s :=
    if k = .red ∨ s.peak.tokens < n then (.red, s)
    else if k = .yellow ∨ s.committed.tokens < n then
      (.yellow, { s with peak := Credit.spend n s.peak })
    else (.green, ⟨Credit.spend n s.committed, Credit.spend n s.peak⟩)

variable {p : TwoRate} {s : Purses} {xs : List Packet}

/-! ## One packet -/

/-- A packet that is red afterwards takes nothing, and was red before or had no tokens. -/
lemma take_cases (p : TwoRate) (n : ℕ) (k : Mark) (s : Purses) :
    (p.marker.take n k s = (.red, s) ∧ (k = .red ∨ s.peak.tokens < n)) ∨
    (p.marker.take n k s = (.yellow, { s with peak := Credit.spend n s.peak }) ∧ k ≠ .red ∧
      n ≤ s.peak.tokens ∧ (k = .yellow ∨ s.committed.tokens < n)) ∨
    (p.marker.take n k s = (.green, ⟨Credit.spend n s.committed, Credit.spend n s.peak⟩) ∧
      k = .green ∧ n ≤ s.peak.tokens ∧ n ≤ s.committed.tokens) := by
  unfold marker
  dsimp only
  by_cases hred : k = .red ∨ s.peak.tokens < n
  · rw [if_pos hred]
    exact Or.inl ⟨rfl, hred⟩
  · obtain ⟨hk, hpeak⟩ := not_or.mp hred
    rw [if_neg hred]
    by_cases hyellow : k = .yellow ∨ s.committed.tokens < n
    · rw [if_pos hyellow]
      exact Or.inr (Or.inl ⟨rfl, hk, Nat.not_lt.mp hpeak, hyellow⟩)
    · obtain ⟨hk', hcommitted⟩ := not_or.mp hyellow
      rw [if_neg hyellow]
      refine Or.inr (Or.inr ⟨rfl, ?_, Nat.not_lt.mp hpeak, Nat.not_lt.mp hcommitted⟩)
      cases k with
      | green => rfl
      | yellow => exact absurd rfl hk'
      | red => exact absurd rfl hk

lemma take_red {n : ℕ} {k : Mark} (h : k = .red ∨ s.peak.tokens < n) :
    p.marker.take n k s = (.red, s) := if_pos h

lemma take_yellow {n : ℕ} {k : Mark} (hk : k ≠ .red) (h : n ≤ s.peak.tokens)
    (h' : k = .yellow ∨ s.committed.tokens < n) :
    p.marker.take n k s = (.yellow, { s with peak := Credit.spend n s.peak }) :=
  (if_neg (not_or.mpr ⟨hk, Nat.not_lt.mpr h⟩)).trans (if_pos h')

lemma take_green {n : ℕ} (h : n ≤ s.peak.tokens) (h' : n ≤ s.committed.tokens) :
    p.marker.take n .green s =
      (.green, ⟨Credit.spend n s.committed, Credit.spend n s.peak⟩) :=
  (if_neg (not_or.mpr ⟨by decide, Nat.not_lt.mpr h⟩)).trans
    (if_neg (not_or.mpr ⟨by decide, Nat.not_lt.mpr h'⟩))

/-! ## What comes out -/

section
variable {q : Mark → Bool} {c : Credit} {b : Purses → Purse}

lemma having_cons_of_pos {x : Packet} (h : q x.mark = true) :
    having q (x :: xs) = x.arrival :: having q xs := by
  unfold having
  rw [List.filter_cons_of_pos (p := fun x : Packet => q x.mark) h, List.map_cons]

lemma having_cons_of_neg {x : Packet} (h : ¬q x.mark = true) :
    having q (x :: xs) = having q xs := by
  unfold having
  rw [List.filter_cons_of_neg (p := fun x : Packet => q x.mark) h]

lemma having_sublist (q : Mark → Bool) (xs : List Packet) :
    (having q xs).Sublist (xs.map Packet.arrival) :=
  List.filter_sublist.map _

/-- The packets are those that came. -/
lemma map_arrival_remark (M : Marker Purses ℕ ℕ Mark) : ∀ (xs : List Packet) (s : Purses),
    (M.remark s xs).map Packet.arrival = xs.map Packet.arrival := by
  intro xs
  induction xs with
  | nil => intro s; rfl
  | cons x xs ih =>
    intro s
    rw [Marker.remark, List.map_cons, List.map_cons, ih]
    rfl

/-- The packets that come after one with `a`, whatever is marked. -/
lemma having_later {a : Arrival} {as : List Arrival} (h : c.Later (b s) (a :: as))
    {ys : List Packet} (hys : ys.map Packet.arrival = as) : ∀ y ∈ having q ys, a.time ≤ y.time := by
  intro y hy
  have hmem := (having_sublist q ys).subset hy
  rw [hys] at hmem
  exact (List.pairwise_cons.mp h.2).1 y hmem

/-- A bucket from which the packets with marks in `q` take their tokens pays for these. -/
lemma pays_having (hadvance : ∀ t s, b (p.marker.advance t s) = c.top t (b s))
    (htake : ∀ n k s, q (p.marker.take n k s).1 = true →
      n ≤ (b s).tokens ∧ b (p.marker.take n k s).2 = Credit.spend n (b s))
    (hleave : ∀ n k s, ¬q (p.marker.take n k s).1 = true → b (p.marker.take n k s).2 = b s) :
    ∀ (xs : List Packet) {s : Purses}, c.Later (b s) (xs.map Packet.arrival) →
      c.Pays (b s) (having q (p.marker.remark s xs)) := by
  intro xs
  induction xs with
  | nil => intro s _; trivial
  | cons x xs ih =>
    intro s h
    rw [List.map_cons] at h
    rw [Marker.remark]
    have hperiods := Credit.top_periods h.head
    by_cases hq : q (p.marker.step s x).1 = true
    · obtain ⟨hlen, hspend⟩ := htake _ _ _ hq
      rw [hadvance] at hlen hspend
      have hnext := ih (s := (p.marker.step s x).2) (h.tail (by
        unfold Marker.step
        rw [hspend]
        exact hperiods))
      rw [having_cons_of_pos hq, Credit.Pays]
      refine ⟨hlen, ?_⟩
      unfold Marker.step at hnext
      rw [hspend] at hnext
      exact hnext
    · -- the bucket is topped up for this packet, or later
      have hleave := hleave _ _ _ hq
      rw [hadvance] at hleave
      have hnext := ih (s := (p.marker.step s x).2) (h.tail (by
        unfold Marker.step
        rw [hleave]
        exact hperiods))
      rw [having_cons_of_neg hq, ← Credit.pays_top_iff h.head
        (having_later h (map_arrival_remark p.marker xs _))]
      unfold Marker.step at hnext ⊢
      rw [hleave] at hnext
      rw [show x.arrival.time = x.time from rfl]
      exact hnext

end

/-- **What is not red conforms to the peak curve.** -/
lemma pays_passed (h : p.peak.Later s.peak (xs.map Packet.arrival)) :
    p.peak.Pays s.peak (passed (p.marker.remark s xs)) := by
  apply pays_having (b := Purses.peak) _ _ _ xs h
  · intro t s
    rfl
  · intro n k s hq
    rcases take_cases p n k s with ⟨heq, -⟩ | ⟨heq, -, hlen, -⟩ | ⟨heq, -, hlen, -⟩
    · rw [heq] at hq
      cases hq
    · rw [heq]
      exact ⟨hlen, rfl⟩
    · rw [heq]
      exact ⟨hlen, rfl⟩
  · intro n k s hq
    rcases take_cases p n k s with ⟨heq, -⟩ | ⟨heq, -⟩ | ⟨heq, -⟩
    · rw [heq]
    · rw [heq] at hq
      exact absurd rfl hq
    · rw [heq] at hq
      exact absurd rfl hq

/-- **What is green conforms to the committed curve.** -/
lemma pays_greens (h : p.committed.Later s.committed (xs.map Packet.arrival)) :
    p.committed.Pays s.committed (greens (p.marker.remark s xs)) := by
  apply pays_having (b := Purses.committed) _ _ _ xs h
  · intro t s
    rfl
  · intro n k s hq
    rcases take_cases p n k s with ⟨heq, -⟩ | ⟨heq, -⟩ | ⟨heq, -, -, hlen⟩
    · rw [heq] at hq
      cases hq
    · rw [heq] at hq
      cases hq
    · rw [heq]
      exact ⟨hlen, rfl⟩
  · intro n k s hq
    rcases take_cases p n k s with ⟨heq, -⟩ | ⟨heq, -⟩ | ⟨heq, -⟩
    · rw [heq]
    · rw [heq]
    · rw [heq] at hq
      exact absurd rfl hq

/-! ## What stays as it is -/

lemma passed_cons_red {x : Packet} (h : x.mark = .red) : passed (x :: xs) = passed xs :=
  having_cons_of_neg (by simpa using h)

lemma passed_cons {x : Packet} (h : x.mark ≠ .red) : passed (x :: xs) = x.arrival :: passed xs :=
  having_cons_of_pos (by simpa using h)

lemma greens_cons_green {x : Packet} (h : x.mark = .green) :
    greens (x :: xs) = x.arrival :: greens xs :=
  having_cons_of_pos (by simpa using h)

lemma greens_cons {x : Packet} (h : x.mark ≠ .green) : greens (x :: xs) = greens xs :=
  having_cons_of_neg (by simpa using h)

/-- If the peak bucket pays for all that is not red, none of that becomes red. -/
lemma passed_remark : ∀ (xs : List Packet) {s : Purses},
    p.peak.Later s.peak (xs.map Packet.arrival) → p.peak.Pays s.peak (passed xs) →
      passed (p.marker.remark s xs) = passed xs := by
  intro xs
  induction xs with
  | nil => intro s _ _; rfl
  | cons x xs ih =>
    intro s h hpays
    rw [List.map_cons] at h
    have hperiods := Credit.top_periods h.head
    have hlater : ∀ y ∈ passed xs, x.time ≤ y.time := having_later h rfl
    rw [Marker.remark]
    rcases take_cases p x.body x.mark (p.marker.advance x.time s) with
      ⟨heq, hwhy⟩ | ⟨heq, hmark, -, -⟩ | ⟨heq, hmark, -, -⟩
    · have hstep : p.marker.step s x = (.red, p.marker.advance x.time s) := heq
      -- a packet that is red now was red, as its tokens are there
      have hred : x.mark = .red := by
        by_contra hne
        rw [passed_cons hne, Credit.Pays] at hpays
        rcases hwhy with hred | hlt
        · exact hne hred
        · exact absurd hpays.1 (Nat.not_le.mpr hlt)
      rw [passed_cons_red hred] at hpays
      rw [hstep, passed_cons_red hred]
      have hrest := ih (s := p.marker.advance x.time s) (h.tail hperiods)
        ((Credit.pays_top_iff h.head hlater).mpr hpays)
      exact (passed_cons_red rfl).trans hrest
    · have hstep : p.marker.step s x =
          (.yellow, ⟨_, Credit.spend x.body (p.peak.top x.time s.peak)⟩) := heq
      rw [passed_cons hmark] at hpays
      rw [hstep, passed_cons hmark]
      exact (passed_cons (show Mark.yellow ≠ .red by decide)).trans
        (congrArg₂ _ rfl (ih (h.tail hperiods) hpays.2))
    · have hstep : p.marker.step s x =
          (.green, ⟨_, Credit.spend x.body (p.peak.top x.time s.peak)⟩) := heq
      have hne : x.mark ≠ .red := by rw [hmark]; decide
      rw [passed_cons hne] at hpays
      rw [hstep, passed_cons hne]
      exact (passed_cons (show Mark.green ≠ .red by decide)).trans
        (congrArg₂ _ rfl (ih (h.tail hperiods) hpays.2))

/-- If moreover the committed bucket pays for all that is green, no mark changes. -/
lemma remark_eq : ∀ (xs : List Packet) {s : Purses},
    p.peak.Later s.peak (xs.map Packet.arrival) →
    p.committed.Later s.committed (xs.map Packet.arrival) →
    p.peak.Pays s.peak (passed xs) → p.committed.Pays s.committed (greens xs) →
      p.marker.remark s xs = xs := by
  intro xs
  induction xs with
  | nil => intro s _ _ _ _; rfl
  | cons x xs ih =>
    intro s hp hc hpeak hcommitted
    rw [List.map_cons] at hp hc
    have hperiods := Credit.top_periods hp.head
    have hperiods' := Credit.top_periods hc.head
    have hlater : ∀ y ∈ passed xs, x.time ≤ y.time := having_later hp rfl
    have hlater' : ∀ y ∈ greens xs, x.time ≤ y.time := having_later hc rfl
    rw [Marker.remark]
    -- which bucket a packet takes from is what its mark says, as the tokens are there
    cases hmark : x.mark with
    | red =>
      have hstep : p.marker.step s x = (.red, p.marker.advance x.time s) :=
        take_red (Or.inl hmark)
      rw [passed_cons_red hmark] at hpeak
      rw [greens_cons (by rw [hmark]; decide)] at hcommitted
      have hrest := ih (s := p.marker.advance x.time s) (hp.tail hperiods) (hc.tail hperiods')
        ((Credit.pays_top_iff hp.head hlater).mpr hpeak)
        ((Credit.pays_top_iff hc.head hlater').mpr hcommitted)
      rw [hstep]
      exact congrArg₂ _ (by rw [← hmark]) hrest
    | yellow =>
      rw [passed_cons (by rw [hmark]; decide), Credit.Pays] at hpeak
      rw [greens_cons (by rw [hmark]; decide)] at hcommitted
      have hstep : p.marker.step s x = (.yellow, ⟨p.committed.top x.time s.committed,
          Credit.spend x.body (p.peak.top x.time s.peak)⟩) := by
        unfold Marker.step
        rw [hmark]
        exact take_yellow (by decide) hpeak.1 (Or.inl rfl)
      have hrest := ih (s := (p.marker.step s x).2) (hp.tail (by rw [hstep]; exact hperiods))
        (hc.tail (by rw [hstep]; exact hperiods')) (by rw [hstep]; exact hpeak.2)
        (by rw [hstep]; exact (Credit.pays_top_iff hc.head hlater').mpr hcommitted)
      rw [hrest, hstep]
      exact congrArg₂ _ (by rw [← hmark]) rfl
    | green =>
      rw [passed_cons (by rw [hmark]; decide), Credit.Pays] at hpeak
      rw [greens_cons_green hmark, Credit.Pays] at hcommitted
      have hstep : p.marker.step s x = (.green,
          ⟨Credit.spend x.body (p.committed.top x.time s.committed),
            Credit.spend x.body (p.peak.top x.time s.peak)⟩) := by
        unfold Marker.step
        rw [hmark]
        exact take_green hpeak.1 hcommitted.1
      have hrest := ih (s := (p.marker.step s x).2) (hp.tail (by rw [hstep]; exact hperiods))
        (hc.tail (by rw [hstep]; exact hperiods')) (by rw [hstep]; exact hpeak.2)
        (by rw [hstep]; exact hcommitted.2)
      rw [hrest, hstep]
      exact congrArg₂ _ (by rw [← hmark]) rfl

/-! ## From full buckets -/

section
variable (hsorted : xs.Pairwise fun x y => x.time ≤ y.time)
include hsorted

lemma sorted_arrivals : (xs.map Packet.arrival).Pairwise fun a b => a.time ≤ b.time := by
  rw [List.pairwise_map]
  exact hsorted

lemma later_full (c : Credit) : c.Later c.full (xs.map Packet.arrival) :=
  ⟨fun _ _ => Nat.zero_le _, sorted_arrivals hsorted⟩

lemma sorted_having (q : Mark → Bool) : (having q xs).Pairwise fun a b => a.time ≤ b.time :=
  (sorted_arrivals hsorted).sublist (having_sublist q xs)

lemma sorted_having_remark (q : Mark → Bool) (p : TwoRate) (s : Purses) :
    (having q (p.marker.remark s xs)).Pairwise fun a b => a.time ≤ b.time := by
  apply List.Pairwise.sublist (having_sublist q _)
  rw [map_arrival_remark]
  exact sorted_arrivals hsorted

/-- **The marks conform to the two curves**, whatever marks come in. -/
theorem remark_conforms (p : TwoRate) :
    p.peak.Conforms (passed (p.marker.remark p.full xs)) ∧
      p.committed.Conforms (greens (p.marker.remark p.full xs)) := by
  constructor
  · apply (Credit.pays_full_iff (sorted_having_remark hsorted _ p p.full)).mp
    exact pays_passed (s := p.full) (later_full hsorted p.peak)
  · apply (Credit.pays_full_iff (sorted_having_remark hsorted _ p p.full)).mp
    exact pays_greens (s := p.full) (later_full hsorted p.committed)

/-- **No packet becomes red** if and only if what is not red conforms to the peak curve. -/
theorem passed_remark_iff (p : TwoRate) :
    passed (p.marker.remark p.full xs) = passed xs ↔ p.peak.Conforms (passed xs) := by
  constructor
  · intro h
    rw [← h]
    exact (remark_conforms hsorted p).1
  · intro h
    apply passed_remark xs (later_full hsorted p.peak)
    exact (Credit.pays_full_iff (sorted_having hsorted _)).mpr h

/-- **No mark changes** if and only if moreover what is green conforms to the committed curve. -/
theorem remark_eq_iff (p : TwoRate) :
    p.marker.remark p.full xs = xs ↔
      p.peak.Conforms (passed xs) ∧ p.committed.Conforms (greens xs) := by
  constructor
  · intro h
    have hconf := remark_conforms hsorted p
    rwa [h] at hconf
  · rintro ⟨hpeak, hcommitted⟩
    exact remark_eq xs (later_full hsorted p.peak) (later_full hsorted p.committed)
      ((Credit.pays_full_iff (sorted_having hsorted _)).mpr hpeak)
      ((Credit.pays_full_iff (sorted_having hsorted _)).mpr hcommitted)

end
end TwoRate
end TokenBucket
end NetLabs.Lib
