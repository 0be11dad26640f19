import NetLabs.Qos.MeterTheorems
import NetLabs.Qos.TbParams

/-!
# Meters in series

A meter whose red packets are dropped polices its traffic. An equal colour-aware meter behind it,
for packets whose times do not go back, is then of no use: it changes no colour. The two see
different packets and bring their buckets up to date at different times, so this rests on updates
that add up: for the single-rate meter, whose excess bucket depends on what overflows the committed
one (`Srtcm.bucketUpdate_bucketUpdate`), and for each bucket of the two-rate meter
(`Trtcm.Part.update_update`).
-/

namespace NetLabs.Qos

open NetLabs.Lib NetLabs.Lib.TokenBucket

/-! ## One bucket in 64 bits -/

section
variable {time last period bytes : BitVec 64}

lemma toNat_nPeriods (h : last ≤ time) :
    ((time - last) / period).toNat = (time.toNat - last.toNat) / period.toNat := by
  rw [BitVec.toNat_udiv, BitVec.toNat_sub_of_le h]

/-- The time of a bucket after an update. -/
lemma toNat_add_periods (h : last ≤ time) :
    (last + (time - last) / period * period).toNat =
      last.toNat + (time.toNat - last.toNat) / period.toNat * period.toNat := by
  have hle := BitVec.le_def.mp h
  have hmul := Nat.div_mul_le_self (time.toNat - last.toNat) period.toNat
  have hlt := time.isLt
  rw [BitVec.toNat_add, BitVec.toNat_mul, toNat_nPeriods h,
    Nat.mod_eq_of_lt (a := _ * _) (by omega), Nat.mod_eq_of_lt (by omega)]

/-- The tokens of the periods, if a period has no more bytes than cycles. -/
lemma toNat_add_tokens (tokens : BitVec 64) (h : last ≤ time) (hbytes : bytes ≤ period)
    (hroom : tokens.toNat + (time.toNat - last.toNat) < 2 ^ 64) :
    (tokens + (time - last) / period * bytes).toNat =
        tokens.toNat + (time.toNat - last.toNat) / period.toNat * bytes.toNat ∧
      (time.toNat - last.toNat) / period.toNat * bytes.toNat ≤ time.toNat - last.toNat := by
  have hmul : (time.toNat - last.toNat) / period.toNat * bytes.toNat ≤
      time.toNat - last.toNat :=
    le_trans (Nat.mul_le_mul_left _ (BitVec.le_def.mp hbytes)) (Nat.div_mul_le_self _ _)
  refine ⟨?_, hmul⟩
  rw [BitVec.toNat_add, BitVec.toNat_mul, toNat_nPeriods h,
    Nat.mod_eq_of_lt (a := _ * _) (by omega), Nat.mod_eq_of_lt (by omega)]

end

/-- The periods until `t`, and from what is left of a period then until `u`. -/
lemma periods_add {s t u p : ℕ} (hst : s ≤ t) (htu : t ≤ u) :
    (t - s) / p + (u - (s + (t - s) / p * p)) / p = (u - s) / p := by
  have hmono : (t - s) / p ≤ (u - s) / p := Nat.div_le_div_right (by omega)
  rw [← Nat.sub_sub, Nat.mul_comm _ p, Nat.sub_mul_div]
  omega

/-! ## The single-rate meter -/

attribute [ext] Srtcm

namespace Srtcm

/-- The meter can be brought to the instant `t`, and 64 bits are enough for it. -/
structure Ready (m : Srtcm) (t : BitVec 64) : Prop where
  time_le : m.time ≤ t
  tc_le : m.tc ≤ m.cbs
  te_le : m.te ≤ m.ebs
  bytes_le : m.cirBytesPerPeriod ≤ m.cirPeriod
  room : m.cbs.toNat + m.ebs.toNat + t.toNat < 2 ^ 64

variable {m : Srtcm} {t u : BitVec 64}

/-- The periods that a bucket update counts. -/
def nPeriods (m : Srtcm) (t : BitVec 64) : ℕ := (t.toNat - m.time.toNat) / m.cirPeriod.toNat

/-- The tokens of a meter, which counts periods from where it is. -/
def level (m : Srtcm) : Level := ⟨m.tc.toNat, m.te.toNat, 0⟩

/-- The numbers in a meter after an update. -/
lemma Ready.update (h : Ready m t) :
    (m.bucketUpdate t).time.toNat = m.time.toNat + m.nPeriods t * m.cirPeriod.toNat ∧
    (m.bucketUpdate t).tc.toNat = (m.level.add (m.bucket 0) (m.nPeriods t)).tc ∧
    (m.bucketUpdate t).te.toNat = (m.level.add (m.bucket 0) (m.nPeriods t)).te := by
  have hroom := h.room
  have htc_le := BitVec.le_def.mp h.tc_le
  have hte_le := BitVec.le_def.mp h.te_le
  have htime_le := BitVec.le_def.mp h.time_le
  obtain ⟨hsum, hmul⟩ := toNat_add_tokens m.tc h.time_le h.bytes_le (by omega)
  have hexcess : m.cbs < m.tc + (t - m.time) / m.cirPeriod * m.cirBytesPerPeriod →
      (m.te + (m.tc + (t - m.time) / m.cirPeriod * m.cirBytesPerPeriod - m.cbs)).toNat =
        m.te.toNat + (m.tc.toNat + m.nPeriods t * m.cirBytesPerPeriod.toNat - m.cbs.toNat) := by
    intro hover
    unfold nPeriods
    rw [BitVec.toNat_add, BitVec.toNat_sub_of_le (BitVec.le_of_lt hover), hsum,
      Nat.mod_eq_of_lt (by omega)]
  refine ⟨toNat_add_periods h.time_le, ?_, ?_⟩
  · unfold bucketUpdate
    dsimp only
    rw [toNat_cap, hsum]
    rfl
  · unfold bucketUpdate Level.add level bucket
    dsimp only
    split
    case isTrue hover => rw [toNat_cap, hexcess hover]
    case isFalse hover =>
      have hle := BitVec.le_def.mp (BitVec.not_lt.mp hover)
      rw [hsum] at hle
      rw [show m.nPeriods t = (t.toNat - m.time.toNat) / m.cirPeriod.toNat from rfl]
      omega

/-- The periods of two updates are those of the second one alone. -/
lemma Ready.nPeriods_add (h : Ready m t) (htu : t ≤ u) :
    m.nPeriods t + (m.bucketUpdate t).nPeriods u = m.nPeriods u := by
  have hsecond : (m.bucketUpdate t).nPeriods u =
      (u.toNat - (m.time.toNat + m.nPeriods t * m.cirPeriod.toNat)) / m.cirPeriod.toNat := by
    rw [← h.update.1]
    rfl
  rw [hsecond]
  exact periods_add (BitVec.le_def.mp h.time_le) (BitVec.le_def.mp htu)

/-- **Two updates are one**, also for what overflows. -/
lemma bucketUpdate_bucketUpdate (h : Ready m t) (h' : Ready (m.bucketUpdate t) u)
    (hu : Ready m u) (htu : t ≤ u) : (m.bucketUpdate t).bucketUpdate u = m.bucketUpdate u := by
  obtain ⟨htime, htc, hte⟩ := h.update
  obtain ⟨htime', htc', hte'⟩ := h'.update
  obtain ⟨htime_u, htc_u, hte_u⟩ := hu.update
  have hbucket : (m.bucketUpdate t).bucket 0 = m.bucket 0 := rfl
  have hperiod : (m.bucketUpdate t).cirPeriod = m.cirPeriod := rfl
  have hlevel : (m.bucketUpdate t).level =
      { m.level.add (m.bucket 0) (m.nPeriods t) with periods := 0 } := by
    unfold level
    rw [htc, hte]
    rfl
  have hadd := Level.add_add (m.bucket 0) m.level (m.nPeriods t) ((m.bucketUpdate t).nPeriods u)
  rw [hbucket, hlevel] at htc' hte'
  rw [hperiod, htime] at htime'
  rw [← h.nPeriods_add htu] at htime_u htc_u hte_u
  rw [← hadd] at htc_u hte_u
  apply Srtcm.ext
  · apply BitVec.eq_of_toNat_eq
    rw [htime', htime_u, Nat.add_mul, Nat.add_assoc]
  · exact BitVec.eq_of_toNat_eq (htc'.trans htc_u.symm)
  · exact BitVec.eq_of_toNat_eq (hte'.trans hte_u.symm)
  · rfl
  · rfl
  · rfl
  · rfl

/-- A meter brought to an instant can be brought further. -/
lemma Ready.advance (h : Ready m t) (hu : Ready m u) (htu : t ≤ u) :
    Ready (m.bucketUpdate t) u := by
  obtain ⟨htime, htc, hte⟩ := h.update
  have hle := BitVec.le_def.mp h.time_le
  have hle' := BitVec.le_def.mp htu
  have hmul : m.nPeriods t * m.cirPeriod.toNat ≤ t.toNat - m.time.toNat := Nat.div_mul_le_self _ _
  refine ⟨?_, ?_, ?_, h.bytes_le, hu.room⟩
  · rw [BitVec.le_def, htime]
    omega
  · rw [BitVec.le_def, htc]
    exact Nat.min_le_right _ _
  · rw [BitVec.le_def, hte]
    exact Nat.min_le_right _ _

/-- The colour of a packet, and what it takes. -/
lemma colorLogicAware_cases (pktLen : BitVec 32) (pktColor : RteMeterColor) (m : Srtcm) :
    (m.colorLogicAware pktLen pktColor = (.green, { m with tc := m.tc - pktLen.setWidth 64 }) ∧
      pktLen.setWidth 64 ≤ m.tc) ∨
    (m.colorLogicAware pktLen pktColor = (.yellow, { m with te := m.te - pktLen.setWidth 64 }) ∧
      pktLen.setWidth 64 ≤ m.te) ∨
    m.colorLogicAware pktLen pktColor = (.red, m) := by
  unfold colorLogicAware
  split
  case isTrue hgreen => exact Or.inl ⟨rfl, hgreen.2⟩
  case isFalse =>
    split
    case isTrue hyellow => exact Or.inr (Or.inl ⟨rfl, hyellow.2⟩)
    case isFalse => exact Or.inr (Or.inr rfl)

/-- A packet takes tokens, and nothing else changes. -/
lemma Ready.take (h : Ready m t) (pktLen : BitVec 32) (pktColor : RteMeterColor) :
    Ready (m.colorLogicAware pktLen pktColor).2 t := by
  have htc_le := BitVec.le_def.mp h.tc_le
  have hte_le := BitVec.le_def.mp h.te_le
  rcases colorLogicAware_cases pktLen pktColor m with ⟨heq, hle⟩ | ⟨heq, hle⟩ | heq
  · rw [heq]
    refine { h with tc_le := ?_ }
    rw [BitVec.le_def, BitVec.toNat_sub_of_le hle]
    dsimp only
    omega
  · rw [heq]
    refine { h with te_le := ?_ }
    rw [BitVec.le_def, BitVec.toNat_sub_of_le hle]
    dsimp only
    omega
  · rw [heq]
    exact h

/-- **The single-rate meter polices.** -/
lemma polices : marker.Polices .red Ready where
  advance_advance ht hu htu := bucketUpdate_bucketUpdate ht (ht.advance hu htu) hu htu
  ready_advance ht hu htu := ht.advance hu htu
  ready_take pktLen pktColor h := h.take pktLen pktColor
  take_red := by
    intro m pktLen pktColor h
    change (m.colorLogicAware pktLen pktColor).1 = _ at h
    change (m.colorLogicAware pktLen pktColor).2 = _
    rcases colorLogicAware_cases pktLen pktColor m with ⟨heq, -⟩ | ⟨heq, -⟩ | heq
    · rw [heq] at h
      cases h
    · rw [heq] at h
      cases h
    · rw [heq]
  take_again := by
    intro m pktLen pktColor
    change m.colorLogicAware pktLen (m.colorLogicAware pktLen pktColor).1 =
      m.colorLogicAware pktLen pktColor
    rcases colorLogicAware_cases pktLen pktColor m with ⟨heq, hle⟩ | ⟨heq, hle⟩ | heq
    · rw [heq]
      exact if_pos ⟨rfl, hle⟩
    · rw [heq]
      unfold colorLogicAware
      rw [if_neg (by simp), if_pos ⟨show RteMeterColor.yellow ≠ .red by decide, hle⟩]
    · rw [heq]
      unfold colorLogicAware
      rw [if_neg (by simp), if_neg (by simp)]

end Srtcm

/-! ## The two buckets of the two-rate meter -/

namespace Trtcm

/-- One of the buckets: what it holds and since when, and its parameters. -/
structure Part where
  time : BitVec 64
  tokens : BitVec 64
  size : BitVec 64
  period : BitVec 64
  bytes : BitVec 64

/-- Its share of the bucket update. -/
def Part.update (t : BitVec 64) (b : Part) : Part :=
  { b with
    time := b.time + (t - b.time) / b.period * b.period
    tokens := if b.size < b.tokens + (t - b.time) / b.period * b.bytes then b.size
      else b.tokens + (t - b.time) / b.period * b.bytes }

/-- A packet of `n` bytes takes its tokens. -/
def Part.spend (n : BitVec 64) (b : Part) : Part := { b with tokens := b.tokens - n }

def committed (m : Trtcm) : Part := ⟨m.timeTc, m.tc, m.cbs, m.cirPeriod, m.cirBytesPerPeriod⟩

def peak (m : Trtcm) : Part := ⟨m.timeTp, m.tp, m.pbs, m.pirPeriod, m.pirBytesPerPeriod⟩

lemma eq_of_parts {m m' : Trtcm} (hc : m.committed = m'.committed) (hp : m.peak = m'.peak) :
    m = m' := by
  cases m
  cases m'
  cases hc
  cases hp
  rfl

lemma committed_bucketUpdate (m : Trtcm) (t : BitVec 64) :
    (m.bucketUpdate t).committed = m.committed.update t := rfl

lemma peak_bucketUpdate (m : Trtcm) (t : BitVec 64) :
    (m.bucketUpdate t).peak = m.peak.update t := rfl

/-- The bucket can be brought to the instant `t`, and 64 bits are enough for it. -/
structure Part.Ready (b : Part) (t : BitVec 64) : Prop where
  time_le : b.time ≤ t
  tokens_le : b.tokens ≤ b.size
  bytes_le : b.bytes ≤ b.period
  room : b.size.toNat + t.toNat < 2 ^ 64

namespace Part

variable {b : Part} {t u : BitVec 64} {c : Credit} {s : Purse}

/-- The periods that an update counts. -/
def nPeriods (b : Part) (t : BitVec 64) : ℕ := (t.toNat - b.time.toNat) / b.period.toNat

lemma Ready.toNat_update (h : Ready b t) :
    (b.update t).time.toNat = b.time.toNat + b.nPeriods t * b.period.toNat ∧
    (b.update t).tokens.toNat =
      min (b.tokens.toNat + b.nPeriods t * b.bytes.toNat) b.size.toNat := by
  have hroom := h.room
  have htokens_le := BitVec.le_def.mp h.tokens_le
  have htime_le := BitVec.le_def.mp h.time_le
  obtain ⟨hsum, -⟩ := toNat_add_tokens b.tokens h.time_le h.bytes_le (by omega)
  refine ⟨toNat_add_periods h.time_le, ?_⟩
  unfold update
  dsimp only
  rw [toNat_cap, hsum]
  rfl

lemma Ready.advance (h : Ready b t) (hu : Ready b u) (htu : t ≤ u) : Ready (b.update t) u := by
  obtain ⟨htime, htokens⟩ := h.toNat_update
  have hle := BitVec.le_def.mp h.time_le
  have hle' := BitVec.le_def.mp htu
  have hmul : b.nPeriods t * b.period.toNat ≤ t.toNat - b.time.toNat := Nat.div_mul_le_self _ _
  refine ⟨?_, ?_, h.bytes_le, hu.room⟩
  · rw [BitVec.le_def, htime]
    omega
  · rw [BitVec.le_def, htokens]
    exact Nat.min_le_right _ _

lemma Ready.spend (h : Ready b t) {n : BitVec 64} (hn : n ≤ b.tokens) : Ready (b.spend n) t := by
  have htokens_le := BitVec.le_def.mp h.tokens_le
  refine { h with tokens_le := ?_ }
  rw [BitVec.le_def]
  show (b.tokens - n).toNat ≤ b.size.toNat
  rw [BitVec.toNat_sub_of_le hn]
  omega

/-- The bucket has the parameters of `c`, and holds what `s` says. -/
structure Tracks (c : Credit) (s : Purse) (b : Part) : Prop where
  size : b.size.toNat = c.size
  period : b.period.toNat = c.period
  bytes : b.bytes.toNat = c.bytes
  tokens : b.tokens.toNat = s.tokens
  time : b.time.toNat = c.start + s.periods * c.period

/-- **An update** adds the tokens of the periods since. -/
lemma Tracks.update (h : Tracks c s b) (hr : Ready b t) :
    Tracks c (c.top t.toNat s) (b.update t) := by
  obtain ⟨htime, htokens⟩ := hr.toNat_update
  have hcount : b.nPeriods t = c.periods t.toNat - s.periods := by
    unfold nPeriods Credit.periods
    rw [h.time, h.period, ← Nat.sub_sub, Nat.mul_comm, Nat.sub_mul_div]
  refine ⟨h.size, h.period, h.bytes, ?_, ?_⟩
  · rw [htokens, hcount, h.tokens, h.bytes, h.size]
    rfl
  · rw [htime, hcount, h.time, h.period]
    unfold Credit.top
    dsimp only
    rw [Nat.add_mul, Nat.add_assoc]

lemma Tracks.spend (h : Tracks c s b) {n : BitVec 64} (hn : n ≤ b.tokens) :
    Tracks c (Credit.spend n.toNat s) (b.spend n) := by
  refine { h with tokens := ?_ }
  show (b.tokens - n).toNat = s.tokens - n.toNat
  rw [BitVec.toNat_sub_of_le hn, h.tokens]

/-- A bucket is an account of its own tokens. -/
lemma tracks_self (b : Part) :
    Tracks ⟨b.size.toNat, b.bytes.toNat, b.period.toNat, b.time.toNat⟩ ⟨b.tokens.toNat, 0⟩ b :=
  ⟨rfl, rfl, rfl, rfl, by rw [Nat.zero_mul, Nat.add_zero]⟩

/-- **Two updates are one.** -/
lemma update_update (h : Ready b t) (hu : Ready b u) (htu : t ≤ u) :
    (b.update t).update u = b.update u := by
  have htwo := ((tracks_self b).update h).update (h.advance hu htu)
  have hone := (tracks_self b).update hu
  have hstart : (0 : ℕ) ≤ _ := Nat.zero_le
    (Credit.periods ⟨b.size.toNat, b.bytes.toNat, b.period.toNat, b.time.toNat⟩ t.toNat)
  rw [Credit.top_top hstart (BitVec.le_def.mp htu)] at htwo
  have htime : ((b.update t).update u).time = (b.update u).time :=
    BitVec.eq_of_toNat_eq (htwo.time.trans hone.time.symm)
  have htokens : ((b.update t).update u).tokens = (b.update u).tokens :=
    BitVec.eq_of_toNat_eq (htwo.tokens.trans hone.tokens.symm)
  unfold update at htime htokens ⊢
  dsimp only at htime htokens ⊢
  rw [htime, htokens]

end Part

/-! ## The two-rate meter -/

/-- Both buckets can be brought to the instant `t`. -/
structure Ready (m : Trtcm) (t : BitVec 64) : Prop where
  committed : m.committed.Ready t
  peak : m.peak.Ready t

variable {m : Trtcm} {t u : BitVec 64}

/-- The colour of a packet, why it has it, and what it takes. -/
lemma colorLogicAware_cases (pktLen : BitVec 32) (pktColor : RteMeterColor) (m : Trtcm) :
    (m.colorLogicAware pktLen pktColor = (.red, m) ∧
      (pktColor = .red ∨ m.peak.tokens < pktLen.setWidth 64)) ∨
    (∃ m', m.colorLogicAware pktLen pktColor = (.yellow, m') ∧ m'.committed = m.committed ∧
      m'.peak = m.peak.spend (pktLen.setWidth 64) ∧ pktColor ≠ .red ∧
      pktLen.setWidth 64 ≤ m.peak.tokens ∧
      (pktColor = .yellow ∨ m.committed.tokens < pktLen.setWidth 64)) ∨
    (∃ m', m.colorLogicAware pktLen pktColor = (.green, m') ∧
      m'.committed = m.committed.spend (pktLen.setWidth 64) ∧
      m'.peak = m.peak.spend (pktLen.setWidth 64) ∧ pktColor = .green ∧
      pktLen.setWidth 64 ≤ m.peak.tokens ∧ pktLen.setWidth 64 ≤ m.committed.tokens) := by
  unfold colorLogicAware
  split
  case isTrue hred => exact Or.inl ⟨rfl, hred⟩
  case isFalse hred =>
    obtain ⟨hne, hpeak⟩ := not_or.mp hred
    split
    case isTrue hyellow =>
      exact Or.inr (Or.inl ⟨_, rfl, rfl, rfl, hne, BitVec.not_lt.mp hpeak, hyellow⟩)
    case isFalse hyellow =>
      obtain ⟨hne', hcommitted⟩ := not_or.mp hyellow
      refine Or.inr (Or.inr ⟨_, rfl, rfl, rfl, ?_, BitVec.not_lt.mp hpeak,
        BitVec.not_lt.mp hcommitted⟩)
      cases pktColor with
      | green => rfl
      | yellow => exact absurd rfl hne'
      | red => exact absurd rfl hne

lemma Ready.advance (h : Ready m t) (hu : Ready m u) (htu : t ≤ u) :
    Ready (m.bucketUpdate t) u :=
  ⟨h.committed.advance hu.committed htu, h.peak.advance hu.peak htu⟩

lemma Ready.take (h : Ready m t) (pktLen : BitVec 32) (pktColor : RteMeterColor) :
    Ready (m.colorLogicAware pktLen pktColor).2 t := by
  rcases colorLogicAware_cases pktLen pktColor m with
    ⟨heq, -⟩ | ⟨m', heq, hc, hp, -, hle, -⟩ | ⟨m', heq, hc, hp, -, hle, hle'⟩
  · rw [heq]
    exact h
  · rw [heq]
    refine ⟨?_, ?_⟩
    · rw [hc]
      exact h.committed
    · rw [hp]
      exact h.peak.spend hle
  · rw [heq]
    refine ⟨?_, ?_⟩
    · rw [hc]
      exact h.committed.spend hle'
    · rw [hp]
      exact h.peak.spend hle

/-- **The two-rate meter polices.** -/
lemma polices : marker.Polices .red Ready where
  advance_advance ht hu htu :=
    eq_of_parts (Part.update_update ht.committed hu.committed htu)
      (Part.update_update ht.peak hu.peak htu)
  ready_advance ht hu htu := ht.advance hu htu
  ready_take pktLen pktColor h := h.take pktLen pktColor
  take_red := by
    intro m pktLen pktColor h
    change (m.colorLogicAware pktLen pktColor).1 = _ at h
    change (m.colorLogicAware pktLen pktColor).2 = _
    rcases colorLogicAware_cases pktLen pktColor m with ⟨heq, -⟩ | ⟨_, heq, -⟩ | ⟨_, heq, -⟩
    · rw [heq]
    · rw [heq] at h
      cases h
    · rw [heq] at h
      cases h
  take_again := by
    intro m pktLen pktColor
    change m.colorLogicAware pktLen (m.colorLogicAware pktLen pktColor).1 =
      m.colorLogicAware pktLen pktColor
    unfold colorLogicAware
    by_cases hred : pktColor = .red ∨ m.tp < pktLen.setWidth 64
    · rw [if_pos hred, if_pos (Or.inl rfl)]
    · have hpeak := (not_or.mp hred).2
      rw [if_neg hred]
      by_cases hyellow : pktColor = .yellow ∨ m.tc < pktLen.setWidth 64
      · rw [if_pos hyellow, if_neg (by simpa using hpeak), if_pos (Or.inl rfl)]
      · have hcommitted := (not_or.mp hyellow).2
        rw [if_neg hyellow, if_neg (by simpa using hpeak), if_neg (by simpa using hcommitted)]

end Trtcm

/-! ## Meters that were just configured -/

/-- The calls do not go back in time, nor before the meter, and stay `size` cycles away from the end
of 64 bits. -/
structure Steady (now : BitVec 64) (size : ℕ) (calls : List CheckCall) : Prop where
  now_le : ∀ c ∈ calls, now ≤ c.time
  sorted : calls.Pairwise fun c d => c.time ≤ d.time
  room : ∀ c ∈ calls, size + c.time.toNat < 2 ^ 64

variable {hz now : BitVec 64} {calls : List CheckCall}

/-- A configured bucket has no more bytes in a period than cycles. -/
lemma tbParams_le {rate : BitVec 64} (h : Moderate hz rate) (hrate : rate ≤ hz) :
    (rteMeterGetTbParams hz rate).2 ≤ (rteMeterGetTbParams hz rate).1 :=
  BitVec.le_def.mpr ((tbParams_paced h).bytes_le (BitVec.le_def.mp hrate))

section
variable {p : SrtcmParams} {m : Srtcm}

lemma Srtcm.ready_configured (hconfig : rteMeterSrtcmConfig hz now p = .ok m)
    (h : Moderate hz p.cir) (hrate : p.cir ≤ hz) (hsteady : Steady now (p.cbs.toNat + p.ebs.toNat)
      calls) : ∀ c ∈ calls, Srtcm.Ready m c.time := by
  intro c hc
  unfold rteMeterSrtcmConfig at hconfig
  split at hconfig
  case isTrue => cases hconfig
  case isFalse =>
    obtain rfl := Except.ok.inj hconfig
    exact ⟨hsteady.now_le c hc, BitVec.le_refl _, BitVec.le_refl _, tbParams_le h hrate,
      hsteady.room c hc⟩

end

section
variable {p : TrtcmParams} {m : Trtcm}

/-- The committed rate is not the higher one. -/
lemma Moderate.cir (h : Moderate hz p.pir) (hconfig : rteMeterTrtcmConfig hz now p = .ok m) :
    Moderate hz p.cir ∧ p.cir ≤ p.pir := by
  unfold rteMeterTrtcmConfig at hconfig
  split at hconfig
  case isTrue => cases hconfig
  case isFalse hcheck =>
    obtain ⟨hcir, -, hlt, -⟩ : p.cir ≠ 0 ∧ p.pir ≠ 0 ∧ ¬p.pir < p.cir ∧ _ := by
      simpa only [not_or] using hcheck
    have hle := BitVec.le_def.mp (BitVec.not_lt.mp hlt)
    have hrate_lt := h.rate_lt
    exact ⟨⟨h.hz_pos, h.hz_lt, Nat.pos_of_ne_zero fun hzero => hcir (BitVec.eq_of_toNat_eq hzero),
      by omega⟩, BitVec.not_lt.mp hlt⟩

lemma Trtcm.ready_configured (hconfig : rteMeterTrtcmConfig hz now p = .ok m)
    (h : Moderate hz p.pir) (hrate : p.pir ≤ hz)
    (hsteady : Steady now (max p.cbs.toNat p.pbs.toNat) calls) :
    ∀ c ∈ calls, Trtcm.Ready m c.time := by
  intro c hc
  have hroom := hsteady.room c hc
  obtain ⟨hcir, hle⟩ := h.cir hconfig
  unfold rteMeterTrtcmConfig at hconfig
  split at hconfig
  case isTrue => cases hconfig
  case isFalse =>
    obtain rfl := Except.ok.inj hconfig
    refine ⟨⟨hsteady.now_le c hc, BitVec.le_refl _, ?_, ?_⟩,
      ⟨hsteady.now_le c hc, BitVec.le_refl _, tbParams_le h hrate, ?_⟩⟩
    · exact tbParams_le hcir (BitVec.le_trans hle hrate)
    · show p.cbs.toNat + _ < _
      omega
    · show p.pbs.toNat + _ < _
      omega

end

/-! ## Colour-blind meters -/

/-- A call for a packet that comes as green. -/
def asGreen (c : CheckCall) : CheckCall := { c with mark := .green }

lemma Steady.asGreen {size : ℕ} (h : Steady now size calls) :
    Steady now size (calls.map asGreen) := by
  refine ⟨?_, ?_, ?_⟩
  · intro c hc
    obtain ⟨d, hd, rfl⟩ := List.mem_map.mp hc
    exact h.now_le d hd
  · rw [List.pairwise_map]
    exact h.sorted
  · intro c hc
    obtain ⟨d, hd, rfl⟩ := List.mem_map.mp hc
    exact h.room d hd

/-- A meter that does not look at the colour a packet comes with is one to which every packet comes
as green. -/
lemma remark_asGreen {S : Type*} {M B : Marker S (BitVec 64) (BitVec 32) RteMeterColor}
    (hadvance : B.advance = M.advance) (htake : ∀ n k s, B.take n k s = M.take n .green s) :
    ∀ (calls : List CheckCall) (s : S), B.remark s calls = M.remark s (calls.map asGreen) := by
  intro calls
  induction calls with
  | nil => intro s; rfl
  | cons c calls ih =>
    intro s
    have hstep : B.step s c = M.step s (asGreen c) := by
      unfold Marker.step
      rw [hadvance, htake]
      rfl
    rw [List.map_cons, Marker.remark, Marker.remark, hstep, ih]
    rfl

lemma Srtcm.remark_blind (m : Srtcm) (calls : List CheckCall) :
    Srtcm.blind.remark m calls = Srtcm.marker.remark m (calls.map asGreen) := by
  apply remark_asGreen (M := Srtcm.marker) (B := Srtcm.blind) rfl
  intro pktLen k m
  show m.colorLogic pktLen = m.colorLogicAware pktLen .green
  unfold Srtcm.colorLogic Srtcm.colorLogicAware
  simp

lemma Trtcm.remark_blind (m : Trtcm) (calls : List CheckCall) :
    Trtcm.blind.remark m calls = Trtcm.marker.remark m (calls.map asGreen) := by
  apply remark_asGreen (M := Trtcm.marker) (B := Trtcm.blind) rfl
  intro pktLen k m
  show m.colorLogic pktLen = m.colorLogicAware pktLen .green
  unfold Trtcm.colorLogic Trtcm.colorLogicAware
  simp

/-! ## Policing twice -/

/-- **Two single-rate meters in series**: of the packets that the first one, colour-aware or blind,
does not mark red, an equal colour-aware one changes no colour. -/
theorem srtcm_polices_once {p : SrtcmParams} {m : Srtcm}
    (hconfig : rteMeterSrtcmConfig hz now p = .ok m) (h : Moderate hz p.cir) (hrate : p.cir ≤ hz)
    (hsteady : Steady now (p.cbs.toNat + p.ebs.toNat) calls) :
    Srtcm.marker.remark m (Marker.kept .red (Srtcm.marker.remark m calls)) =
        Marker.kept .red (Srtcm.marker.remark m calls) ∧
      Srtcm.marker.remark m (Marker.kept .red (Srtcm.blind.remark m calls)) =
        Marker.kept .red (Srtcm.blind.remark m calls) := by
  constructor
  · exact Srtcm.polices.remark_kept calls (Srtcm.ready_configured hconfig h hrate hsteady)
      hsteady.sorted
  · rw [Srtcm.remark_blind]
    exact Srtcm.polices.remark_kept _ (Srtcm.ready_configured hconfig h hrate hsteady.asGreen)
      hsteady.asGreen.sorted

/-- The meter of flow 0 at 2.4 GHz, with a packet of each colour and one after the red packet. -/
theorem flow_zero_polices_once : ∃ m out,
    rteMeterSrtcmConfig 2400000000 1000 (appSrtcmParams 0) = .ok m ∧
    out = Srtcm.blind.remark m [⟨1000, 400000, .red⟩, ⟨2000, 480000, .red⟩, ⟨100000, 90000, .red⟩,
      ⟨150000, 9000, .red⟩] ∧
    out.map Stamped.mark = [.green, .yellow, .red, .green] ∧
    Srtcm.marker.remark m (Marker.kept .red out) = Marker.kept .red out := by
  refine ⟨_, _, if_neg (by decide), rfl, by decide +kernel, ?_⟩
  exact (srtcm_polices_once (if_neg (by decide)) ⟨by decide, by decide, by decide, by decide⟩
    (by decide) ⟨by decide, by decide, by decide⟩).2

/-- **Two two-rate meters in series**, the same. -/
theorem trtcm_polices_once {p : TrtcmParams} {m : Trtcm}
    (hconfig : rteMeterTrtcmConfig hz now p = .ok m) (h : Moderate hz p.pir) (hrate : p.pir ≤ hz)
    (hsteady : Steady now (max p.cbs.toNat p.pbs.toNat) calls) :
    Trtcm.marker.remark m (Marker.kept .red (Trtcm.marker.remark m calls)) =
        Marker.kept .red (Trtcm.marker.remark m calls) ∧
      Trtcm.marker.remark m (Marker.kept .red (Trtcm.blind.remark m calls)) =
        Marker.kept .red (Trtcm.blind.remark m calls) := by
  constructor
  · exact Trtcm.polices.remark_kept calls (Trtcm.ready_configured hconfig h hrate hsteady)
      hsteady.sorted
  · rw [Trtcm.remark_blind]
    exact Trtcm.polices.remark_kept _ (Trtcm.ready_configured hconfig h hrate hsteady.asGreen)
      hsteady.asGreen.sorted

/-- A meter of 10 and 20 MB/s at 2.4 GHz, with a packet of each colour. -/
theorem ten_megabytes_polices_once : ∃ m out,
    rteMeterTrtcmConfig 2400000000 1000 ⟨10000000, 20000000, 2000, 3000⟩ = .ok m ∧
    out = Trtcm.blind.remark m [⟨1000, 1500, .red⟩, ⟨1200, 1500, .red⟩, ⟨1300, 1500, .red⟩,
      ⟨500000, 1500, .red⟩] ∧
    out.map Stamped.mark = [.green, .yellow, .red, .green] ∧
    Trtcm.marker.remark m (Marker.kept .red out) = Marker.kept .red out := by
  refine ⟨_, _, if_neg (by decide), rfl, by decide +kernel, ?_⟩
  exact (trtcm_polices_once (if_neg (by decide)) ⟨by decide, by decide, by decide, by decide⟩
    (by decide) ⟨by decide, by decide, by decide⟩).2

end NetLabs.Qos
