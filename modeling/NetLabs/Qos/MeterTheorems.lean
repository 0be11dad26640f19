import NetLabs.Lib.TokenBucket
import NetLabs.Qos.Meter

/-!
# The meter is a token bucket

`qos_meter_init` reads the start of a flow before `rte_meter_srtcm_config` reads the time of its
meter, so the time of the first packet may be the earlier one, and the difference of the two wraps.
The meter then counts almost `2 ^ 64` cycles of periods. As its buckets are full, the tokens of
these periods change nothing, if only 64 bits can hold them; and the meter's time, which wraps too,
ends up at most a period before the packet. `Holds.first` says this for every difference.

From then on the meter follows a token bucket over the natural numbers (`Follows`), through any
calls for this flow and for the others.
-/

namespace NetLabs.Qos

open NetLabs.Lib NetLabs.Lib.TokenBucket

/-- The colours in the words of `TokenBucket`. -/
def QosColor.mark : QosColor → Mark
  | .green => .green
  | .yellow => .yellow
  | .red => .red

/-- The buckets of a meter, with periods counted from `start` on. -/
def Srtcm.bucket (m : Srtcm) (start : ℕ) : Bucket where
  cbs := m.cbs.toNat
  ebs := m.ebs.toNat
  bytes := m.cirBytesPerPeriod.toNat
  period := m.cirPeriod.toNat
  start := start

/-- Sizes for which 64 bits hold every number of tokens. -/
structure Fits (p : Bucket) : Prop where
  bytes_lt : p.bytes < p.period
  bytes_le : p.bytes ≤ 2 ^ 35
  size_le : p.cbs + p.ebs ≤ 2 ^ 20

/-- A meter with the buckets of `p` has the tokens of `l`. -/
structure Holds (p : Bucket) (l : Level) (m : Srtcm) : Prop where
  cbs : m.cbs.toNat = p.cbs
  ebs : m.ebs.toNat = p.ebs
  bytes : m.cirBytesPerPeriod.toNat = p.bytes
  period : m.cirPeriod.toNat = p.period
  tc : m.tc.toNat = l.tc
  te : m.te.toNat = l.te
  tc_le : l.tc ≤ p.cbs
  te_le : l.te ≤ p.ebs

/-- It has counted the periods too. -/
structure Follows (p : Bucket) (l : Level) (m : Srtcm) : Prop extends Holds p l m where
  time : m.time = BitVec.ofNat 64 (p.start + l.periods * p.period)

variable {p : Bucket} {l : Level} {m : Srtcm}

/-! ## One packet -/

/-- Fewer bytes than cycles: 64 bits hold the tokens of every number of periods that is counted in
64 bits. -/
lemma Fits.tokens_lt (h : Fits p) {n : ℕ} (hn : n * p.period < 2 ^ 64) :
    n * p.bytes + (p.cbs + p.ebs) < 2 ^ 64 := by
  have hsize := h.size_le
  by_cases hsmall : n < 2 ^ 21
  · have hmul : n * p.bytes ≤ 2 ^ 21 * 2 ^ 35 := Nat.mul_le_mul hsmall.le h.bytes_le
    omega
  · -- each of the many periods has a cycle to spare
    have hmul : n * p.bytes + n ≤ n * p.period := by
      calc n * p.bytes + n = n * (p.bytes + 1) := by rw [Nat.mul_add, Nat.mul_one]
        _ ≤ n * p.period := Nat.mul_le_mul_left n h.bytes_lt
    omega

/-- A subtraction in 64 bits, of instants that may be beyond 64 bits. -/
lemma toNat_ofNat_sub {t u : ℕ} (hle : u ≤ t) (hlt : t < u + 2 ^ 64) :
    (BitVec.ofNat 64 t - BitVec.ofNat 64 u).toNat = t - u := by
  rw [BitVec.toNat_sub, BitVec.toNat_ofNat, BitVec.toNat_ofNat]
  omega

/-- A number of tokens limited by the size of the bucket. -/
lemma toNat_cap (size x : BitVec 64) :
    (if size < x then size else x).toNat = min x.toNat size.toNat := by
  split
  · rename_i hlt
    exact (Nat.min_eq_right (BitVec.lt_def.mp hlt).le).symm
  · rename_i hle
    exact (Nat.min_eq_left (BitVec.le_def.mp (BitVec.not_lt.mp hle))).symm

lemma Fits.period_pos (h : Fits p) : 0 < p.period := Nat.zero_lt_of_lt h.bytes_lt

section
variable {time : BitVec 64} {n : ℕ}

/-- **The bucket update** adds the tokens of the periods that it counts, however many. -/
lemma Holds.update (h : Holds p l m) (hp : Fits p)
    (hn : (time - m.time).toNat / m.cirPeriod.toNat = n) :
    Holds p (l.add p n) (m.bucketUpdate time) := by
  have hperiods : n * p.period < 2 ^ 64 := by
    rw [← hn, ← h.period]
    exact lt_of_le_of_lt (Nat.div_mul_le_self _ _) (time - m.time).isLt
  have hfit := hp.tokens_lt hperiods
  have htc_le := h.tc_le
  have hte_le := h.te_le
  have hsum : (m.tc + (time - m.time) / m.cirPeriod * m.cirBytesPerPeriod).toNat =
      l.tc + n * p.bytes := by
    rw [BitVec.toNat_add, BitVec.toNat_mul, BitVec.toNat_udiv, hn, h.bytes, h.tc,
      Nat.mod_eq_of_lt (a := n * p.bytes) (by omega), Nat.mod_eq_of_lt (by omega)]
  -- the tokens that overflow are added to `te` in 64 bits as well
  have hexcess : m.cbs < m.tc + (time - m.time) / m.cirPeriod * m.cirBytesPerPeriod →
      (m.te + (m.tc + (time - m.time) / m.cirPeriod * m.cirBytesPerPeriod - m.cbs)).toNat =
        l.te + (l.tc + n * p.bytes - p.cbs) := by
    intro hover
    rw [BitVec.toNat_add, BitVec.toNat_sub_of_le (BitVec.le_of_lt hover), hsum, h.te, h.cbs,
      Nat.mod_eq_of_lt (by omega)]
  refine ⟨h.cbs, h.ebs, h.bytes, h.period, ?_, ?_, Nat.min_le_right _ _, Nat.min_le_right _ _⟩
  · unfold Srtcm.bucketUpdate Level.add
    dsimp only
    rw [toNat_cap, hsum, h.cbs]
  · unfold Srtcm.bucketUpdate Level.add
    dsimp only
    split
    · rename_i hover
      rw [toNat_cap, hexcess hover, h.ebs]
    · rename_i hover
      have hle := BitVec.le_def.mp (BitVec.not_lt.mp hover)
      rw [hsum, h.cbs] at hle
      rw [h.te]
      omega

/-- The cycles of the periods that a bucket update counts are added to the time. -/
lemma bucketUpdate_time (hn : (time - m.time).toNat / m.cirPeriod.toNat = n) :
    (m.bucketUpdate time).time = m.time + BitVec.ofNat 64 (n * m.cirPeriod.toNat) := by
  have hcount : (time - m.time) / m.cirPeriod = BitVec.ofNat 64 n := by
    apply BitVec.eq_of_toNat_eq
    rw [BitVec.toNat_udiv, hn, BitVec.toNat_ofNat, Nat.mod_eq_of_lt]
    rw [← hn]
    exact lt_of_le_of_lt (Nat.div_le_self _ _) (time - m.time).isLt
  unfold Srtcm.bucketUpdate
  dsimp only
  rw [hcount, BitVec.ofNat_mul, BitVec.ofNat_toNat, BitVec.setWidth_eq]

/-- A packet that is not earlier than the last period, nor `2 ^ 64` cycles later than the first
one, brings the periods since. -/
lemma Follows.update (h : Follows p l m) (hp : Fits p) {t : ℕ} (ht : time = BitVec.ofNat 64 t)
    (hlow : p.start + l.periods * p.period ≤ t) (hhigh : t < p.start + 2 ^ 64) :
    Follows p (l.add p (p.periods t - l.periods)) (m.bucketUpdate time) := by
  have hdiff : (time - m.time).toNat = t - (p.start + l.periods * p.period) := by
    rw [ht, h.time]
    exact toNat_ofNat_sub hlow (by omega)
  have hn : (time - m.time).toNat / m.cirPeriod.toNat = p.periods t - l.periods := by
    unfold Bucket.periods
    rw [hdiff, h.period, ← Nat.sub_sub, Nat.mul_comm, Nat.sub_mul_div]
  refine ⟨h.toHolds.update hp hn, ?_⟩
  rw [bucketUpdate_time hn, h.time, h.period, ← BitVec.ofNat_add]
  unfold Level.add
  dsimp only
  rw [Nat.add_mul, Nat.add_assoc]

/-- **The first packet.** However its time compares with the meter's, a full meter stays full, and
from now on counts periods from an instant at most a period before the packet. -/
lemma Holds.first (h : Holds p p.full m) (hp : Fits p) {t : ℕ} (ht : time = BitVec.ofNat 64 t)
    (hstart : p.start + (time - m.time).toNat % p.period = t) :
    Follows p p.full (m.bucketUpdate time) := by
  have hupdate : Holds p (p.full.add p _) (m.bucketUpdate time) := h.update hp rfl
  rw [Bucket.full_add] at hupdate
  refine ⟨{ hupdate with }, ?_⟩
  -- the whole periods are what separates the meter's time from the new start
  have hsplit : m.time + BitVec.ofNat 64 ((time - m.time).toNat / p.period * p.period) +
      BitVec.ofNat 64 ((time - m.time).toNat % p.period) =
      BitVec.ofNat 64 p.start + BitVec.ofNat 64 ((time - m.time).toNat % p.period) := by
    rw [BitVec.add_assoc, ← BitVec.ofNat_add, ← BitVec.ofNat_add, hstart, Nat.div_add_mod',
      BitVec.ofNat_toNat, BitVec.setWidth_eq, ← ht, BitVec.add_comm, BitVec.sub_add_cancel]
  rw [bucketUpdate_time rfl, h.period]
  unfold Bucket.full
  rw [Nat.zero_mul, Nat.add_zero]
  exact (BitVec.add_left_inj _).mp hsplit

/-- **The colour logic** takes the tokens of the packet. -/
lemma Follows.color (h : Follows p l m) (pktLen : BitVec 32) :
    (m.colorLogic pktLen).1.toQosColor.mark = (l.take pktLen.toNat).1 ∧
      Follows p (l.take pktLen.toNat).2 (m.colorLogic pktLen).2 := by
  have hlen : (pktLen.setWidth 64).toNat = pktLen.toNat :=
    BitVec.toNat_setWidth_of_le (by norm_num)
  have htc : pktLen.setWidth 64 ≤ m.tc ↔ pktLen.toNat ≤ l.tc := by
    rw [BitVec.le_def, hlen, h.tc]
  have hte : pktLen.setWidth 64 ≤ m.te ↔ pktLen.toNat ≤ l.te := by
    rw [BitVec.le_def, hlen, h.te]
  have htc_le := h.tc_le
  have hte_le := h.te_le
  unfold Srtcm.colorLogic Level.take
  by_cases hgreen : pktLen.toNat ≤ l.tc
  · rw [if_pos (htc.mpr hgreen), if_pos hgreen]
    refine ⟨rfl, { h with tc := ?_, tc_le := by dsimp only; omega }⟩
    rw [BitVec.toNat_sub_of_le (htc.mpr hgreen), hlen, h.tc]
  · rw [if_neg (mt htc.mp hgreen), if_neg hgreen]
    by_cases hyellow : pktLen.toNat ≤ l.te
    · rw [if_pos (hte.mpr hyellow), if_pos hyellow]
      refine ⟨rfl, { h with te := ?_, te_le := by dsimp only; omega }⟩
      rw [BitVec.toNat_sub_of_le (hte.mpr hyellow), hlen, h.te]
    · rw [if_neg (mt hte.mp hyellow), if_neg hyellow]
      exact ⟨rfl, h⟩

end

/-! ## `qos_meter_init` -/

lemma one_le_double {n : ℕ} (h : 0 < n) : (1 : ℚ) ≤ double n := by
  rw [← zpow_zero (2 : ℚ)]
  apply zpow_le_roundTo
  rw [zpow_zero]
  exact_mod_cast h

/-- The period of a counter that moves at all. -/
lemma le_double_div {hz rate : ℕ} (hhz : 0 < hz) (hpos : 0 < rate) (hrate : rate ≤ 2 ^ 28) :
    (2 : ℚ) ^ (-28 : ℤ) ≤ double (double hz / double rate) := by
  have hle : double rate ≤ 2 ^ (28 : ℤ) :=
    roundTo_le_zpow (Nat.cast_nonneg _) (by exact_mod_cast hrate)
  apply zpow_le_roundTo
  rw [le_div_iff₀ (lt_of_lt_of_le one_pos (one_le_double hpos))]
  calc (2 : ℚ) ^ (-28 : ℤ) * double rate ≤ 2 ^ (-28 : ℤ) * 2 ^ (28 : ℤ) :=
        mul_le_mul_of_nonneg_left hle (zpow_pos (by norm_num) _).le
    _ = 1 := by norm_num
    _ ≤ double hz := one_le_double hhz

/-- Whatever the frequency, a period has few bytes. -/
lemma rteMeterGetTbParams_bytes_le {hz rate : BitVec 64} (hpos : 0 < rate.toNat)
    (hrate : rate.toNat ≤ 2 ^ 28) : (rteMeterGetTbParams hz rate).2.toNat ≤ 2 ^ 35 := by
  unfold rteMeterGetTbParams toUint64
  dsimp only
  split
  · exact Nat.one_le_two_pow
  · rw [BitVec.toNat_ofNat, Nat.floor_natCast]
    refine le_trans (Nat.mod_le _ _) (Nat.ceil_le.mpr ?_)
    by_cases hhz : hz.toNat = 0
    · -- a counter that stands still
      unfold double
      rw [hhz, Nat.cast_zero, roundTo_zero, zero_div, roundTo_zero, div_zero, roundTo_zero]
      exact Nat.cast_nonneg _
    · have hperiod := le_double_div (Nat.pos_of_ne_zero hhz) hpos hrate
      have hperiod_pos := lt_of_lt_of_le (zpow_pos (by norm_num) (-28 : ℤ)) hperiod
      rw [show ((2 ^ 35 : ℕ) : ℚ) = 2 ^ (35 : ℤ) by norm_num]
      apply roundTo_le_zpow (div_nonneg (by norm_num) hperiod_pos.le)
      rw [div_le_iff₀ hperiod_pos]
      calc (100 : ℚ) ≤ 2 ^ (35 : ℤ) * 2 ^ (-28 : ℤ) := by norm_num
        _ ≤ 2 ^ (35 : ℤ) * double (double hz.toNat / double rate.toNat) :=
          mul_le_mul_of_nonneg_left hperiod (zpow_pos (by norm_num) _).le

/-- The meters after the initialisation. -/
def Meter.configured (hz : BitVec 64) (start metered : Fin appFlowsMax → BitVec 64) : Meter where
  appFlows i :=
    { time := metered i
      tc := (appSrtcmParams i).cbs
      te := (appSrtcmParams i).ebs
      cbs := (appSrtcmParams i).cbs
      ebs := (appSrtcmParams i).ebs
      cirPeriod := (rteMeterGetTbParams hz (appSrtcmParams i).cir).1
      cirBytesPerPeriod := (rteMeterGetTbParams hz (appSrtcmParams i).cir).2 }
  startTimes := start
  hz := hz

namespace Meter

section
variable {hz : BitVec 64} {start metered : Fin appFlowsMax → BitVec 64}

/-- The table of `qos.c` passes the check of DPDK. -/
lemma initFlow_eq (m : Meter) (hm : m.hz = hz) (i : Fin appFlowsMax) :
    m.initFlow start metered i = .ok
      { appFlows := Function.update m.appFlows i ((configured hz start metered).appFlows i)
        startTimes := Function.update m.startTimes i (start i)
        hz := hz } := by
  have hcheck : ¬((appSrtcmParams i).cir = 0 ∨
      ((appSrtcmParams i).cbs = 0 ∧ (appSrtcmParams i).ebs = 0)) := by
    revert i
    decide
  unfold initFlow rteMeterSrtcmConfig
  dsimp only
  rw [if_neg hcheck, hm]
  rfl

/-- The loop of the initialisation, over some of the flows: it sets these, and leaves alone what is
set already. -/
lemma foldlM_initFlow : ∀ (l : List (Fin appFlowsMax)) (m : Meter), m.hz = hz →
    ∃ m', l.foldlM (fun m i => m.initFlow start metered i) m = .ok m' ∧ m'.hz = hz ∧
      ∀ i, (i ∈ l ∨ m.appFlows i = (configured hz start metered).appFlows i ∧
          m.startTimes i = start i) →
        m'.appFlows i = (configured hz start metered).appFlows i ∧ m'.startTimes i = start i := by
  intro l
  induction l with
  | nil =>
    intro m hm
    exact ⟨m, rfl, hm, fun i hi => hi.resolve_left List.not_mem_nil⟩
  | cons j l ih =>
    intro m hm
    rw [List.foldlM_cons, initFlow_eq m hm j]
    obtain ⟨m', hloop, hhz, hset⟩ := ih
      { appFlows := Function.update m.appFlows j ((configured hz start metered).appFlows j)
        startTimes := Function.update m.startTimes j (start j)
        hz := hz } rfl
    refine ⟨m', hloop, hhz, fun i hi => hset i ?_⟩
    by_cases hij : i = j
    · subst hij
      exact Or.inr ⟨Function.update_self .., Function.update_self ..⟩
    · dsimp only
      rw [Function.update_of_ne hij, Function.update_of_ne hij]
      rwa [List.mem_cons, or_iff_right hij] at hi

/-- **The initialisation succeeds**, and sets every flow. -/
theorem qosMeterInit_eq (m : Meter) :
    qosMeterInit hz start metered m = .ok (configured hz start metered) := by
  obtain ⟨m', hloop, hhz, hset⟩ :=
    @foldlM_initFlow hz start metered (List.finRange appFlowsMax) { m with hz := hz } rfl
  have hall : m' = configured hz start metered := by
    apply Meter.ext
    · funext i
      exact (hset i (Or.inl (List.mem_finRange i))).1
    · funext i
      exact (hset i (Or.inl (List.mem_finRange i))).2
    · exact hhz
  rw [← hall]
  exact hloop

end

/-! ## Calls -/

/-- The cycles that a time in nanoseconds stands for. -/
def cycles (hz time : BitVec 64) : ℕ := ⌊nanoToCycles hz time⌋₊

lemma cycles_mono {hz time time' : BitVec 64} (h : time ≤ time') :
    cycles hz time ≤ cycles hz time' := by
  have hle : (time.toNat : ℚ) ≤ time'.toNat := by exact_mod_cast BitVec.le_def.mp h
  have hnonneg : 0 ≤ double (double time.toNat / 1000000000) :=
    roundTo_nonneg (div_nonneg (roundTo_nonneg (Nat.cast_nonneg _)) (by norm_num))
  have hhz : 0 ≤ double hz.toNat := roundTo_nonneg (Nat.cast_nonneg _)
  unfold cycles nanoToCycles
  apply Nat.floor_le_floor
  apply roundTo_mono (mul_nonneg hnonneg hhz)
  apply mul_le_mul_of_nonneg_right _ hhz
  apply roundTo_mono (div_nonneg (roundTo_nonneg (Nat.cast_nonneg _)) (by norm_num))
  exact div_le_div_of_nonneg_right (roundTo_mono (Nat.cast_nonneg _) hle) (by norm_num)

/-- A packet of a flow; its time in cycles is not reduced to 64 bits. -/
def arrival (m : Meter) (flow : Fin appFlowsMax) (c : MeterCall) : Arrival where
  time := (m.startTimes flow).toNat + cycles m.hz c.time
  len := c.pktLen.toNat

/-- The packets of a flow. -/
def arrivals (m : Meter) (flow : Fin appFlowsMax) (calls : List MeterCall) : List Arrival :=
  (calls.filter fun c => c.flow = flow).map (m.arrival flow)

/-- The packets of a flow with the colours that `qos_meter_run` returns for them. -/
def log (m : Meter) (flow : Fin appFlowsMax) (calls : List MeterCall) : List (Arrival × Mark) :=
  ((m.record calls).filter fun e => e.1.flow = flow).map fun e => (m.arrival flow e.1, e.2.mark)

variable {flow : Fin appFlowsMax} {calls : List MeterCall} {m : Meter} {c : MeterCall}

lemma arrivals_cons_of_eq (h : c.flow = flow) : m.arrivals flow (c :: calls) =
    m.arrival flow c :: (m.qosMeterRun c).2.arrivals flow calls := by
  unfold arrivals
  rw [List.filter_cons_of_pos (by simpa using h)]
  rfl

lemma arrivals_cons_of_ne (h : c.flow ≠ flow) : m.arrivals flow (c :: calls) =
    (m.qosMeterRun c).2.arrivals flow calls := by
  unfold arrivals
  rw [List.filter_cons_of_neg (by simpa using h)]
  rfl

lemma log_cons_of_eq (h : c.flow = flow) : m.log flow (c :: calls) =
    (m.arrival flow c, (m.qosMeterRun c).1.mark) :: (m.qosMeterRun c).2.log flow calls := by
  unfold log
  rw [record, List.filter_cons_of_pos (by simpa using h)]
  rfl

lemma log_cons_of_ne (h : c.flow ≠ flow) : m.log flow (c :: calls) =
    (m.qosMeterRun c).2.log flow calls := by
  unfold log
  rw [record, List.filter_cons_of_neg (by simpa using h)]
  rfl

/-- A call for another flow leaves the meter of this one alone. -/
lemma qosMeterRun_of_ne (h : c.flow ≠ flow) :
    (m.qosMeterRun c).2.appFlows flow = m.appFlows flow :=
  Function.update_of_ne (Ne.symm h) _ _

/-- The time that a call passes to DPDK. -/
lemma ctime_eq (h : c.flow = flow) :
    m.startTimes c.flow + toUint64 (nanoToCycles m.hz c.time) =
      BitVec.ofNat 64 (m.arrival flow c).time := by
  subst h
  unfold arrival cycles toUint64
  rw [BitVec.ofNat_add, BitVec.ofNat_toNat, BitVec.setWidth_eq]

/-- What a call returns and leaves behind, from what the bucket update leaves behind. -/
lemma qosMeterRun_of_update (h : c.flow = flow)
    (hupdate : Follows p l ((m.appFlows flow).bucketUpdate
      (BitVec.ofNat 64 (m.arrival flow c).time))) :
    (m.qosMeterRun c).1.mark = (l.take (m.arrival flow c).len).1 ∧
      Follows p (l.take (m.arrival flow c).len).2 ((m.qosMeterRun c).2.appFlows flow) := by
  have hcolor := hupdate.color c.pktLen
  unfold qosMeterRun Srtcm.rteMeterSrtcmColorBlindCheck
  rw [ctime_eq h]
  subst h
  dsimp only
  rw [Function.update_self]
  exact hcolor

/-- **From a meter that counts periods**, the colours are those of the token bucket. -/
lemma log_of_follows (hp : Fits p) : ∀ (calls : List MeterCall) {m : Meter} {l : Level},
    Follows p l (m.appFlows flow) →
    (∀ a ∈ m.arrivals flow calls, p.start + l.periods * p.period ≤ a.time) →
    (∀ a ∈ m.arrivals flow calls, a.time < p.start + 2 ^ 64) →
    (m.arrivals flow calls).Pairwise (fun a b => a.time ≤ b.time) →
    m.log flow calls = p.marked l (m.arrivals flow calls) := by
  intro calls
  induction calls with
  | nil =>
    intro m l _ _ _ _
    rfl
  | cons c calls ih =>
    intro m l hfollows hlow hhigh hsorted
    by_cases hc : c.flow = flow
    · rw [arrivals_cons_of_eq hc] at hlow hhigh hsorted ⊢
      rw [log_cons_of_eq hc, Bucket.marked]
      obtain ⟨hhead, htail⟩ := List.pairwise_cons.mp hsorted
      have hfirst := hlow _ List.mem_cons_self
      have hupdate := hfollows.update hp rfl hfirst (hhigh _ List.mem_cons_self)
      obtain ⟨hmark, hnext⟩ := qosMeterRun_of_update hc hupdate
      have hlow' : ∀ a ∈ (m.qosMeterRun c).2.arrivals flow calls,
          p.start + (p.step l (m.arrival flow c)).2.periods * p.period ≤ a.time := by
        intro a ha
        rw [Bucket.step_periods (Bucket.le_periods hp.period_pos hfirst)]
        exact le_trans (Bucket.start_add_periods_le (by omega)) (hhead a ha)
      rw [hmark]
      exact congrArg₂ _ rfl (ih hnext hlow' (fun a ha => hhigh a (List.mem_cons_of_mem _ ha)) htail)
    · rw [arrivals_cons_of_ne hc] at hlow hhigh hsorted ⊢
      rw [log_cons_of_ne hc]
      rw [← qosMeterRun_of_ne hc] at hfollows
      exact ih hfollows hlow hhigh hsorted

/-- The first call for a flow fixes from when on its periods are counted. -/
lemma qosMeterRun_first (hp : Fits p) (hfull : Holds p p.full (m.appFlows flow))
    (hc : c.flow = flow) (hle : p.period ≤ (m.arrival flow c).time) :
    ∃ q : Bucket, q = { p with start := q.start } ∧ q.start ≤ (m.arrival flow c).time ∧
      (m.arrival flow c).time < q.start + p.period ∧
      (m.qosMeterRun c).1.mark = (q.step p.full (m.arrival flow c)).1 ∧
      Follows q (q.step p.full (m.arrival flow c)).2 ((m.qosMeterRun c).2.appFlows flow) := by
  -- what the difference of the two times, wrapped or not, leaves over after whole periods
  obtain ⟨r, hr⟩ : ∃ r, (BitVec.ofNat 64 (m.arrival flow c).time -
    (m.appFlows flow).time).toNat % p.period = r := ⟨_, rfl⟩
  have hr_lt : r < p.period := hr ▸ Nat.mod_lt _ hp.period_pos
  obtain ⟨q, hq⟩ : ∃ q : Bucket, q = { p with start := (m.arrival flow c).time - r } := ⟨_, rfl⟩
  have hq_start : q.start = (m.arrival flow c).time - r := by rw [hq]
  have hq_period : q.period = p.period := by rw [hq]
  have hq_full : q.full = p.full := by rw [hq]; rfl
  have hupdate : Follows q q.full ((m.appFlows flow).bucketUpdate
      (BitVec.ofNat 64 (m.arrival flow c).time)) := by
    subst hq
    refine Holds.first { hfull with } ⟨hp.bytes_lt, hp.bytes_le, hp.size_le⟩ rfl ?_
    rw [hr]
    exact Nat.sub_add_cancel (by omega)
  have hperiods : q.periods (m.arrival flow c).time = 0 := by
    unfold Bucket.periods
    rw [hq_start, hq_period]
    exact Nat.div_eq_of_lt (by omega)
  have hrun := qosMeterRun_of_update hc hupdate
  rw [← Bucket.step_full hperiods, hq_full] at hrun
  refine ⟨q, ?_, by omega, by omega, hrun⟩
  rw [hq]

/-- **From a full meter**: the first packet of the flow fixes from when on periods are counted. -/
lemma log_of_full {s : ℕ} (hs : p.period ≤ s) (hp : Fits p) :
    ∀ (calls : List MeterCall) {m : Meter},
    Holds p p.full (m.appFlows flow) →
    (∀ a ∈ m.arrivals flow calls, s ≤ a.time) →
    (∀ a ∈ m.arrivals flow calls, a.time + p.period ≤ s + 2 ^ 64) →
    (m.arrivals flow calls).Pairwise (fun a b => a.time ≤ b.time) →
    ∃ t₀, (∀ a ∈ (m.arrivals flow calls).head?, t₀ ≤ a.time ∧ a.time < t₀ + p.period) ∧
      m.log flow calls = Bucket.marked { p with start := t₀ } p.full (m.arrivals flow calls) := by
  intro calls
  induction calls with
  | nil =>
    intro m _ _ _ _
    refine ⟨0, ?_, rfl⟩
    intro a ha
    cases ha
  | cons c calls ih =>
    intro m hfull hlow hhigh hsorted
    by_cases hc : c.flow = flow
    · rw [arrivals_cons_of_eq hc] at hlow hhigh hsorted ⊢
      obtain ⟨hhead, htail⟩ := List.pairwise_cons.mp hsorted
      have hfirst := hlow _ List.mem_cons_self
      obtain ⟨q, hq, hle, hlt, hmark, hnext⟩ := qosMeterRun_first hp hfull hc (by omega)
      have hp_q : Fits q := by
        rw [hq]
        exact ⟨hp.bytes_lt, hp.bytes_le, hp.size_le⟩
      have hlow_q : ∀ a ∈ (m.qosMeterRun c).2.arrivals flow calls,
          q.start + (q.step p.full (m.arrival flow c)).2.periods * q.period ≤ a.time := by
        intro a ha
        rw [Bucket.step_periods (Nat.zero_le _)]
        exact le_trans (Bucket.start_add_periods_le hle) (hhead a ha)
      have hhigh_q : ∀ a ∈ (m.qosMeterRun c).2.arrivals flow calls,
          a.time < q.start + 2 ^ 64 := by
        intro a ha
        have hbound := hhigh a (List.mem_cons_of_mem _ ha)
        omega
      refine ⟨q.start, ?_, ?_⟩
      · intro a ha
        obtain rfl := Option.some.inj ha
        exact ⟨hle, hlt⟩
      · rw [← hq, log_cons_of_eq hc, Bucket.marked, hmark]
        exact congrArg₂ _ rfl (log_of_follows hp_q calls hnext hlow_q hhigh_q htail)
    · rw [arrivals_cons_of_ne hc] at hlow hhigh hsorted ⊢
      rw [log_cons_of_ne hc]
      rw [← qosMeterRun_of_ne hc] at hfull
      exact ih hfull hlow hhigh hsorted

/-! ## The token bucket -/

/-- For the packets of a flow, the meter is a token bucket that is full at the first of them and
counts periods from an instant `t₀` at most a period before it; and so, after each of them, the
green bytes, and the green and yellow bytes, are within the buckets and the periods elapsed. -/
def IsTokenBucket (m : Meter) (flow : Fin appFlowsMax) (calls : List MeterCall) : Prop :=
  ∃ t₀, (∀ a ∈ (m.arrivals flow calls).head?,
      t₀ ≤ a.time ∧ a.time < t₀ + (m.appFlows flow).cirPeriod.toNat) ∧
    m.log flow calls = ((m.appFlows flow).bucket t₀).marked ((m.appFlows flow).bucket t₀).full
      (m.arrivals flow calls) ∧
    ∀ pre last, pre ++ [last] <+: m.log flow calls →
      bytesOf .green (pre ++ [last]) ≤ (m.appFlows flow).cbs.toNat +
        (last.1.time - t₀) / (m.appFlows flow).cirPeriod.toNat *
          (m.appFlows flow).cirBytesPerPeriod.toNat ∧
      bytesOf .green (pre ++ [last]) + bytesOf .yellow (pre ++ [last]) ≤
        (m.appFlows flow).cbs.toNat + (m.appFlows flow).ebs.toNat +
          (last.1.time - t₀) / (m.appFlows flow).cirPeriod.toNat *
            (m.appFlows flow).cirBytesPerPeriod.toNat

/-- The calls for a flow do not go back in time. -/
def Nondecreasing (flow : Fin appFlowsMax) (calls : List MeterCall) : Prop :=
  (calls.filter fun c => c.flow = flow).Pairwise fun c d => c.time ≤ d.time

lemma Nondecreasing.arrivals (h : Nondecreasing flow calls) (m : Meter) :
    (m.arrivals flow calls).Pairwise (fun a b => a.time ≤ b.time) := by
  unfold Meter.arrivals
  rw [List.pairwise_map]
  exact List.Pairwise.imp (fun hle => Nat.add_le_add_left (cycles_mono hle) _) h

/-- A meter that was just configured is full. -/
lemma holds_configured (hz : BitVec 64) (start metered : Fin appFlowsMax → BitVec 64)
    (flow : Fin appFlowsMax) (t : ℕ) :
    Holds (((configured hz start metered).appFlows flow).bucket t)
      (((configured hz start metered).appFlows flow).bucket t).full
      ((configured hz start metered).appFlows flow) :=
  ⟨rfl, rfl, rfl, rfl, rfl, rfl, le_refl _, le_refl _⟩

/-- The numbers in the table of `qos.c` are small. -/
lemma appSrtcmParams_le : ∀ i, 0 < (appSrtcmParams i).cir.toNat ∧
    (appSrtcmParams i).cir.toNat ≤ 2 ^ 28 ∧
    (appSrtcmParams i).cbs.toNat + (appSrtcmParams i).ebs.toNat ≤ 2 ^ 20 := by
  decide

lemma fits_configured {hz : BitVec 64} {start metered : Fin appFlowsMax → BitVec 64}
    (hrate : ((configured hz start metered).appFlows flow).cirBytesPerPeriod <
      ((configured hz start metered).appFlows flow).cirPeriod) (t : ℕ) :
    Fits (((configured hz start metered).appFlows flow).bucket t) := by
  obtain ⟨hpos, hcir, hsize⟩ := appSrtcmParams_le flow
  exact ⟨BitVec.lt_def.mp hrate, rteMeterGetTbParams_bytes_le hpos hcir, hsize⟩

/-- **The meter is a token bucket**, whatever the two readings of the counter for the flow are, if
the counter moves faster than the committed rate and no packet comes within a period of `2 ^ 64`
cycles. -/
theorem meter_isTokenBucket {hz : BitVec 64} {start metered : Fin appFlowsMax → BitVec 64}
    {before : Meter} (hinit : qosMeterInit hz start metered before = .ok m)
    (hstart : (m.appFlows flow).cirPeriod ≤ start flow)
    (hrate : (m.appFlows flow).cirBytesPerPeriod < (m.appFlows flow).cirPeriod)
    (hsorted : Nondecreasing flow calls)
    (hcycles : ∀ c ∈ calls, c.flow = flow →
      cycles hz c.time + (m.appFlows flow).cirPeriod.toNat ≤ 2 ^ 64) :
    m.IsTokenBucket flow calls := by
  rw [qosMeterInit_eq] at hinit
  obtain rfl := Except.ok.inj hinit
  have hlow : ∀ a ∈ (configured hz start metered).arrivals flow calls,
      (start flow).toNat ≤ a.time := by
    intro a ha
    obtain ⟨c, -, rfl⟩ := List.mem_map.mp ha
    exact Nat.le_add_right _ _
  have hhigh : ∀ a ∈ (configured hz start metered).arrivals flow calls,
      a.time + ((configured hz start metered).appFlows flow).cirPeriod.toNat ≤
        (start flow).toNat + 2 ^ 64 := by
    intro a ha
    obtain ⟨c, hc, rfl⟩ := List.mem_map.mp ha
    obtain ⟨hmem, hflow⟩ := List.mem_filter.mp hc
    have hbound := hcycles c hmem (by simpa using hflow)
    show (start flow).toNat + cycles hz c.time + _ ≤ _
    omega
  obtain ⟨t₀, hfirst, hlog⟩ := log_of_full (BitVec.le_def.mp hstart) (fits_configured hrate 0) calls
    (holds_configured hz start metered flow 0) hlow hhigh (hsorted.arrivals _)
  refine ⟨t₀, hfirst, hlog, fun pre last hpre => ?_⟩
  rw [hlog] at hpre
  exact ⟨Bucket.greenBytes_le (hsorted.arrivals _) hpre,
    Bucket.markedBytes_le (hsorted.arrivals _) hpre⟩

/-- Static variables before the initialisation. -/
def blank : Meter where
  appFlows _ := ⟨0, 0, 0, 0, 0, 0, 0⟩
  startTimes _ := 0
  hz := 0

/-- At 2.4 GHz, a packet that is a cycle earlier than the meter, and a later one. -/
theorem early_packet_isTokenBucket :
    (configured 2400000000 (fun _ => 1000) (fun _ => 1001)).IsTokenBucket 0
      [⟨0, 400000, 0⟩, ⟨1, 100, 0⟩, ⟨0, 1000, 1000⟩] := by
  have hinit : qosMeterInit 2400000000 (fun _ => 1000) (fun _ => 1001) blank =
      .ok (configured 2400000000 (fun _ => 1000) (fun _ => 1001)) := qosMeterInit_eq blank
  refine meter_isTokenBucket hinit (by decide +kernel) (by decide +kernel) ?_ (by decide +kernel)
  unfold Nondecreasing
  decide

/-- At half the committed rate, a packet that is a cycle earlier than the meter costs the full
bucket some tokens. -/
lemma slow_not_isTokenBucket :
    ¬(configured 80000000 (fun _ => 1000) (fun _ => 1001)).IsTokenBucket 0 [⟨0, 400000, 0⟩] := by
  rintro ⟨t₀, -, hlog, -⟩
  have hmarks : ((configured 80000000 (fun _ => 1000) (fun _ => 1001)).log 0
      [⟨0, 400000, 0⟩]).map Prod.snd = [.yellow] := by decide +kernel
  have harrivals : (configured 80000000 (fun _ => 1000) (fun _ => 1001)).arrivals 0
      [⟨0, 400000, 0⟩] = [⟨1000, 400000⟩] := by decide +kernel
  rw [hlog, harrivals, Bucket.marked, Bucket.step_green (le_refl _) (Nat.le_add_right _ _)]
    at hmarks
  cases hmarks

/-- When a period is longer than 2048 cycles, a packet can be `2 ^ 64` cycles later than the first
period, and the meter takes it for one of that period. -/
lemma late_not_isTokenBucket :
    ¬(configured 56531531648 (fun _ => 5000) (fun _ => 5001)).IsTokenBucket 3
      [⟨3, 16000, 0⟩, ⟨3, 160000, 0⟩, ⟨3, 16000, 326308938320834721⟩] := by
  rintro ⟨t₀, hfirst, hlog, -⟩
  have hmarks : ((configured 56531531648 (fun _ => 5000) (fun _ => 5001)).log 3
      [⟨3, 16000, 0⟩, ⟨3, 160000, 0⟩, ⟨3, 16000, 326308938320834721⟩]).map Prod.snd =
      [.green, .yellow, .red] := by decide +kernel
  have harrivals : (configured 56531531648 (fun _ => 5000) (fun _ => 5001)).arrivals 3
      [⟨3, 16000, 0⟩, ⟨3, 160000, 0⟩, ⟨3, 16000, 326308938320834721⟩] =
      [⟨5000, 16000⟩, ⟨5000, 160000⟩, ⟨5000 + (2 ^ 64 - 2048), 16000⟩] := by decide +kernel
  have hbucket : ((configured 56531531648 (fun _ => 5000) (fun _ => 5001)).appFlows 3).bucket t₀ =
      ⟨16000, 160000, 1, 2826, t₀⟩ := by
    have hperiod : ((configured 56531531648 (fun _ => 5000) (fun _ => 5001)).appFlows
        3).cirPeriod = 2826 := by decide +kernel
    have hbytes : ((configured 56531531648 (fun _ => 5000) (fun _ => 5001)).appFlows
        3).cirBytesPerPeriod = 1 := by decide +kernel
    unfold Srtcm.bucket
    rw [hperiod, hbytes]
    rfl
  have hperiod : ((configured 56531531648 (fun _ => 5000) (fun _ => 5001)).appFlows
      3).cirPeriod.toNat = 2826 := congrArg Bucket.period hbucket
  rw [harrivals, hperiod] at hfirst
  rw [hlog, harrivals, hbucket] at hmarks
  obtain ⟨hle, hlt⟩ := hfirst _ rfl
  generalize hp : (⟨16000, 160000, 1, 2826, t₀⟩ : Bucket) = p at hmarks
  have hnow : p.periods 5000 = 0 := by
    subst hp
    exact Nat.div_eq_of_lt (by dsimp only at hlt ⊢; omega)
  have hlate : 16000 ≤ p.periods (5000 + (2 ^ 64 - 2048)) * p.bytes := by
    subst hp
    unfold Bucket.periods
    dsimp only at hle ⊢
    omega
  have hcbs : p.cbs = 16000 := by rw [← hp]
  simp only [Bucket.marked, List.map_cons, List.map_nil] at hmarks
  generalize hl₁ : (p.step p.full ⟨5000, 16000⟩).2 = l₁ at hmarks
  have hperiods₁ : l₁.periods = 0 := by
    rw [← hl₁, Bucket.step_periods (Nat.zero_le _)]
    exact hnow
  generalize hl₂ : (p.step l₁ ⟨5000, 160000⟩).2 = l₂ at hmarks
  have hperiods₂ : l₂.periods = 0 := by
    rw [← hl₂, Bucket.step_periods (by rw [hperiods₁]; exact Nat.zero_le _)]
    exact hnow
  have hgreen : (p.step l₂ ⟨5000 + (2 ^ 64 - 2048), 16000⟩).1 = .green := by
    apply Bucket.step_green (le_of_eq hcbs.symm)
    rw [hperiods₂]
    exact le_trans hlate (Nat.le_add_left _ _)
  obtain ⟨-, -, hred, -⟩ : _ ∧ _ ∧ _ ∧ _ := by simpa only [List.cons.injEq] using hmarks
  rw [hgreen] at hred
  cases hred

/-- **Neither condition can be left out.** -/
theorem not_isTokenBucket :
    (∃ m, qosMeterInit 80000000 (fun _ => 1000) (fun _ => 1001) blank = .ok m ∧
      (m.appFlows 0).cirPeriod ≤ 1000 ∧ Nondecreasing 0 [⟨0, 400000, 0⟩] ∧
      ¬m.IsTokenBucket 0 [⟨0, 400000, 0⟩]) ∧
    ∃ m, qosMeterInit 56531531648 (fun _ => 5000) (fun _ => 5001) blank = .ok m ∧
      (m.appFlows 3).cirPeriod ≤ 5000 ∧
      Nondecreasing 3 [⟨3, 16000, 0⟩, ⟨3, 160000, 0⟩, ⟨3, 16000, 326308938320834721⟩] ∧
      nanoToCycles 56531531648 326308938320834721 < 2 ^ 64 ∧
      ¬m.IsTokenBucket 3 [⟨3, 16000, 0⟩, ⟨3, 160000, 0⟩, ⟨3, 16000, 326308938320834721⟩] := by
  refine ⟨⟨_, qosMeterInit_eq blank, by decide +kernel, ?_, slow_not_isTokenBucket⟩,
    ⟨_, qosMeterInit_eq blank, by decide +kernel, ?_, by decide +kernel, late_not_isTokenBucket⟩⟩
  · unfold Nondecreasing
    decide
  · unfold Nondecreasing
    decide

end Meter
end NetLabs.Qos
