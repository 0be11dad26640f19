import NetLabs.Qos.MeterTheorems

/-!
# The tokens of a millisecond

The bursts of `main` are a millisecond apart. Between two of them the committed bucket of flow 0 is
given almost all of the 160000 bytes that its rate stands for, whatever the frequency of the time
stamp counter is, from 1 to 10 GHz: what is lost is the rounding of the times, which are `double`
numbers, and of the period, which is a whole number of cycles.
-/

namespace NetLabs.Qos

open NetLabs.Lib NetLabs.Lib.TokenBucket

/-- The time stamp counter runs at 1 to 10 GHz. -/
structure Gigahertz (hz : BitVec 64) : Prop where
  low : 10 ^ 9 ≤ hz.toNat
  high : hz.toNat ≤ 10 ^ 10

/-- The time of a burst, in nanoseconds. -/
def burstTime (k : ℕ) : BitVec 64 := BitVec.ofNat 64 (k * 1000000)

/-! ## Cycles -/

/-- `time / NANO_PERSEC`, for the time of a burst. -/
def burstSeconds (k : ℕ) : ℚ := double (double (burstTime k).toNat / 1000000000)

/-- Rounding hardly moves the ten times of the program. -/
lemma burstSeconds_gap : ∀ k < 9, 0 ≤ burstSeconds k ∧
    burstSeconds k + 99999 / 100000000 ≤ burstSeconds (k + 1) ∧ burstSeconds (k + 1) ≤ 1 / 100 := by
  decide +kernel

/-- The frequency as a `double`. -/
lemma Gigahertz.double_hz {hz : BitVec 64} (h : Gigahertz hz) :
    (hz.toNat : ℚ) - 1 / 100 ≤ double hz.toNat ∧ double hz.toNat ≤ hz.toNat + 1 / 100 := by
  have hhigh : (hz.toNat : ℚ) ≤ 10 ^ 10 := by exact_mod_cast h.high
  obtain ⟨hlow, hup⟩ := roundTo_error (f := 52) (Nat.cast_nonneg (α := ℚ) hz.toNat)
  have hsmall : (hz.toNat : ℚ) / 2 ^ 52 ≤ 1 / 100 := by
    rw [div_le_iff₀ (by norm_num)]
    linarith
  unfold double
  exact ⟨by linarith, by linarith⟩

/-- **A millisecond in cycles**, up to a ten-thousandth. -/
lemma Gigahertz.cycles_gap {hz : BitVec 64} (h : Gigahertz hz) {k : ℕ} (hk : k < 9) :
    hz.toNat * 9999 + 10 ^ 7 * Meter.cycles hz (burstTime k) ≤
      10 ^ 7 * Meter.cycles hz (burstTime (k + 1)) := by
  obtain ⟨hpos, hgap, hmax⟩ := burstSeconds_gap k hk
  obtain ⟨hlow, hup⟩ := h.double_hz
  have h9 : (10 : ℚ) ^ 9 ≤ hz.toNat := by exact_mod_cast h.low
  have h10 : (hz.toNat : ℚ) ≤ 10 ^ 10 := by exact_mod_cast h.high
  have hH : 0 ≤ double hz.toNat := by linarith
  -- the two products before they are rounded
  obtain ⟨z, hz'⟩ : ∃ z, burstSeconds k * double hz.toNat = z := ⟨_, rfl⟩
  obtain ⟨z₁, hz₁⟩ : ∃ z₁, burstSeconds (k + 1) * double hz.toNat = z₁ := ⟨_, rfl⟩
  have hz_nonneg : 0 ≤ z := by rw [← hz']; exact mul_nonneg hpos hH
  have hstep : z + 99999 / 100000000 * double hz.toNat ≤ z₁ := by
    rw [← hz', ← hz₁, ← add_mul]
    exact mul_le_mul_of_nonneg_right hgap hH
  have hbound : z₁ ≤ 1 / 100 * double hz.toNat := by
    rw [← hz₁]
    exact mul_le_mul_of_nonneg_right hmax hH
  obtain ⟨-, hz_up⟩ := roundTo_error (f := 52) hz_nonneg
  obtain ⟨hz₁_low, -⟩ := roundTo_error (f := 52) (show 0 ≤ z₁ by linarith)
  have hsmall : z / 2 ^ 52 ≤ 1 / 100 := by
    rw [div_le_iff₀ (by norm_num)]
    linarith
  have hsmall₁ : z₁ / 2 ^ 52 ≤ 1 / 100 := by
    rw [div_le_iff₀ (by norm_num)]
    linarith
  -- and after the conversion to `uint64_t`
  have hfloor : (Meter.cycles hz (burstTime k) : ℚ) ≤ double z := by
    unfold Meter.cycles
    rw [show nanoToCycles hz (burstTime k) = double z from congrArg double hz']
    exact Nat.floor_le (roundTo_nonneg hz_nonneg)
  have hceil : double z₁ < Meter.cycles hz (burstTime (k + 1)) + 1 := by
    unfold Meter.cycles
    rw [show nanoToCycles hz (burstTime (k + 1)) = double z₁ from congrArg double hz₁]
    exact Nat.lt_floor_add_one _
  unfold double at hfloor hceil hlow hup hstep hbound
  have hreal : (hz.toNat : ℚ) * 9999 + 10 ^ 7 * Meter.cycles hz (burstTime k) ≤
      10 ^ 7 * Meter.cycles hz (burstTime (k + 1)) := by
    linarith
  exact_mod_cast hreal

lemma burstTime_le {j k : ℕ} (hjk : j ≤ k) (hk : k ≤ 9) : burstTime j ≤ burstTime k := by
  rw [BitVec.le_def, burstTime, burstTime, BitVec.toNat_ofNat, BitVec.toNat_ofNat,
    Nat.mod_eq_of_lt (by omega), Nat.mod_eq_of_lt (by omega)]
  omega

/-- The whole program takes a hundredth of a second. -/
lemma Gigahertz.cycles_le {hz : BitVec 64} (h : Gigahertz hz) {k : ℕ} (hk : k ≤ 9) :
    Meter.cycles hz (burstTime k) ≤ 10 ^ 9 := by
  refine le_trans (Meter.cycles_mono (burstTime_le hk (le_refl 9))) ?_
  obtain ⟨hpos, hgap, hmax⟩ := burstSeconds_gap 8 (by norm_num)
  obtain ⟨hlow, hup⟩ := h.double_hz
  have h9 : (10 : ℚ) ^ 9 ≤ hz.toNat := by exact_mod_cast h.low
  have h10 : (hz.toNat : ℚ) ≤ 10 ^ 10 := by exact_mod_cast h.high
  have hH : 0 ≤ double hz.toNat := by linarith
  have hz_nonneg : 0 ≤ burstSeconds 9 * double hz.toNat := mul_nonneg (by linarith) hH
  have hz_le : burstSeconds 9 * double hz.toNat ≤ 2 ^ (27 : ℤ) := by
    calc burstSeconds 9 * double hz.toNat ≤ 1 / 100 * double hz.toNat :=
          mul_le_mul_of_nonneg_right hmax hH
      _ ≤ 1 / 100 * (10 ^ 10 + 1 / 100) := mul_le_mul_of_nonneg_left (by linarith) (by norm_num)
      _ ≤ 2 ^ (27 : ℤ) := by norm_num
  have hround : nanoToCycles hz (burstTime 9) ≤ 2 ^ (27 : ℤ) := roundTo_le_zpow hz_nonneg hz_le
  have hfloor : (Meter.cycles hz (burstTime 9) : ℚ) ≤ 2 ^ (27 : ℤ) :=
    le_trans (Nat.floor_le (roundTo_nonneg hz_nonneg)) hround
  have hnat : (Meter.cycles hz (burstTime 9) : ℚ) ≤ (10 ^ 9 : ℕ) :=
    le_trans hfloor (by norm_num)
  exact_mod_cast hnat

/-! ## Periods -/

/-- The period of flow 0 and its bytes: some bytes, and no more cycles than the rate allows. -/
lemma Gigahertz.tbParams {hz : BitVec 64} (h : Gigahertz hz) :
    1 ≤ (rteMeterGetTbParams hz 160000000).2.toNat ∧
      (rteMeterGetTbParams hz 160000000).2.toNat ≤ 32 ∧
      (rteMeterGetTbParams hz 160000000).2.toNat < (rteMeterGetTbParams hz 160000000).1.toNat ∧
      (rteMeterGetTbParams hz 160000000).1.toNat * 160000000 ≤
        hz.toNat * (rteMeterGetTbParams hz 160000000).2.toNat := by
  obtain ⟨hlow, hup⟩ := h.double_hz
  have h9 : (10 : ℚ) ^ 9 ≤ hz.toNat := by exact_mod_cast h.low
  have h10 : (hz.toNat : ℚ) ≤ 10 ^ 10 := by exact_mod_cast h.high
  have hrate : double (160000000 : BitVec 64).toNat = 160000000 := by decide +kernel
  obtain ⟨period, hperiod⟩ : ∃ period, double (double hz.toNat /
    double (160000000 : BitVec 64).toNat) = period := ⟨_, rfl⟩
  have hp4 : 4 ≤ period := by
    rw [← hperiod, hrate, show (4 : ℚ) = 2 ^ (2 : ℤ) by norm_num]
    apply zpow_le_roundTo
    rw [le_div_iff₀ (by norm_num)]
    norm_num
    linarith
  have hp64 : period ≤ 64 := by
    rw [← hperiod, hrate, show (64 : ℚ) = 2 ^ (6 : ℤ) by norm_num]
    apply roundTo_le_zpow (div_nonneg (by linarith) (by norm_num))
    rw [div_le_iff₀ (by norm_num)]
    norm_num
    linarith
  obtain ⟨n, hn⟩ : ∃ n, ⌈double (100 / period)⌉₊ = n := ⟨_, rfl⟩
  have hn1 : 1 ≤ n := by
    rw [← hn, Nat.one_le_ceil_iff]
    refine lt_of_lt_of_le one_pos ?_
    rw [← zpow_zero (2 : ℚ)]
    apply zpow_le_roundTo
    rw [le_div_iff₀ (by linarith)]
    norm_num
    linarith
  have hn32 : n ≤ 32 := by
    rw [← hn, Nat.ceil_le, show ((32 : ℕ) : ℚ) = 2 ^ (5 : ℤ) by norm_num]
    apply roundTo_le_zpow (div_nonneg (by norm_num) (by linarith))
    rw [div_le_iff₀ (by linarith)]
    norm_num
    linarith
  have hbytes : (toUint64 (n : ℚ)).toNat = n := by
    rw [toUint64, Nat.floor_natCast, BitVec.toNat_ofNat, Nat.mod_eq_of_lt (by omega)]
  have hparams : rteMeterGetTbParams hz 160000000 =
      (hz * toUint64 (n : ℚ) / 160000000, toUint64 (n : ℚ)) := by
    unfold rteMeterGetTbParams
    dsimp only
    rw [hperiod, if_neg (by linarith), hn]
  have hhigh := h.high
  have hmul_low : 10 ^ 9 * n ≤ hz.toNat * n := Nat.mul_le_mul_right n h.low
  have hmul_high : hz.toNat * n ≤ 10 ^ 10 * 32 := Nat.mul_le_mul hhigh hn32
  have hcycles : (hz * toUint64 (n : ℚ) / 160000000).toNat = hz.toNat * n / 160000000 := by
    rw [BitVec.toNat_udiv, BitVec.toNat_mul, hbytes, Nat.mod_eq_of_lt (by omega)]
    rfl
  rw [hparams]
  dsimp only
  rw [hbytes, hcycles]
  exact ⟨hn1, hn32, by omega, Nat.div_mul_le_self _ _⟩

/-- **The tokens of a millisecond**, in a bucket with the period of flow 0. -/
lemma tokens_le {p : Bucket} {f t t' : ℕ} (hf : 0 < f) (hrate : p.period * 160000000 ≤ f * p.bytes)
    (hbytes : p.bytes ≤ 32) (hpos : 0 < p.period) (hstart : p.start ≤ t)
    (hgap : f * 9999 + 10 ^ 7 * t ≤ 10 ^ 7 * t') :
    159950 ≤ (p.periods t' - p.periods t) * p.bytes := by
  have hle := Bucket.start_add_periods_le hstart
  have hmono : p.periods t ≤ p.periods t' := Bucket.periods_mono (by omega)
  have hlt : t' - p.start < (p.periods t' + 1) * p.period := by
    unfold Bucket.periods
    rw [Nat.add_mul, Nat.one_mul, Nat.mul_comm]
    exact Nat.lt_mul_div_succ _ hpos
  obtain ⟨n, hn⟩ := Nat.exists_eq_add_of_le hmono
  -- the cycles since are less than one period more than those that are counted
  have hcycles : t' - t < (n + 1) * p.period := by
    rw [hn, Nat.add_assoc, Nat.add_mul] at hlt
    omega
  have hsince : f * 9999 ≤ 10 ^ 7 * (t' - t) := by
    rw [Nat.mul_sub]
    exact Nat.le_sub_of_add_le hgap
  have hmany : f * 159984 < f * ((n + 1) * p.bytes) := by
    calc f * 159984 = 16 * (f * 9999) := by ring
      _ ≤ 16 * (10 ^ 7 * (t' - t)) := Nat.mul_le_mul_left 16 hsince
      _ < 16 * (10 ^ 7 * ((n + 1) * p.period)) := by gcongr
      _ = (n + 1) * (p.period * 160000000) := by ring
      _ ≤ (n + 1) * (f * p.bytes) := Nat.mul_le_mul_left _ hrate
      _ = f * ((n + 1) * p.bytes) := by ring
  have hbig : 159984 < (n + 1) * p.bytes := Nat.lt_of_mul_lt_mul_left hmany
  rw [Nat.add_mul, Nat.one_mul] at hbig
  rw [hn, Nat.add_sub_cancel_left]
  omega

/-! ## Flow 0 -/

/-- The flow whose bandwidth is guaranteed. -/
abbrev flow0 : Fin appFlowsMax := 0

/-- The bucket of flow 0, whenever its first period begins. -/
structure FlowZero (hz : BitVec 64) (p : Bucket) : Prop where
  fits : Fits p
  cbs : p.cbs = 400000
  bytes_le : p.bytes ≤ 32
  rate : p.period * 160000000 ≤ hz.toNat * p.bytes

lemma FlowZero.period_le {hz : BitVec 64} {p : Bucket} (h : FlowZero hz p) (hhz : Gigahertz hz) :
    p.period ≤ 2000 := by
  have hmul : hz.toNat * p.bytes ≤ 10 ^ 10 * 32 := Nat.mul_le_mul hhz.high h.bytes_le
  have hrate := h.rate
  omega

namespace Meter

/-- When the packets of a burst arrive, in cycles. -/
def burstAt (m : Meter) (k : ℕ) : ℕ :=
  (m.startTimes flow0).toNat + cycles m.hz (burstTime k)

/-- No packet of flow 0 has come yet. -/
def Fresh (m : Meter) : Prop := ∃ p, FlowZero m.hz p ∧ Holds p p.full (m.appFlows flow0)

/-- The last packet of flow 0 came in burst `j`, and left `tc` tokens in the committed bucket. -/
def LastAt (m : Meter) (j tc : ℕ) : Prop :=
  ∃ p l, FlowZero m.hz p ∧ Follows p l (m.appFlows flow0) ∧ p.start ≤ m.burstAt j ∧
    l.periods = p.periods (m.burstAt j) ∧ l.tc = tc

/-- The counter was started long ago, but not so long that it is about to wrap. -/
structure Running (m : Meter) : Prop where
  hz : Gigahertz m.hz
  start_ge : 2 ^ 38 ≤ (m.startTimes flow0).toNat
  start_le : (m.startTimes flow0).toNat ≤ 2 ^ 63

variable {m : Meter} {j k tc : ℕ} {pktLen : BitVec 32}

lemma burstAt_mono (m : Meter) (hjk : j ≤ k) (hk : k ≤ 9) : m.burstAt j ≤ m.burstAt k :=
  Nat.add_le_add_left (cycles_mono (burstTime_le hjk hk)) _

/-- The time of a burst is no multiple of what 64 bits can hold. -/
lemma Running.burstAt_lt (h : Running m) (hk : k ≤ 9) (p : Bucket) :
    m.burstAt k < p.start + 2 ^ 64 := by
  have hcycles := h.hz.cycles_le hk
  have hstart := h.start_le
  unfold burstAt
  omega

/-- A packet that finds the tokens for it is green and takes them. -/
lemma take_green {l : Level} {len : ℕ} (h : len ≤ l.tc) :
    (l.take len).1 = .green ∧ (l.take len).2.tc + len = l.tc := by
  unfold Level.take
  rw [if_pos h]
  exact ⟨rfl, Nat.sub_add_cancel h⟩

/-- Any other packet leaves the committed bucket alone. -/
lemma take_other {l : Level} {len : ℕ} (h : ¬ len ≤ l.tc) :
    (l.take len).1 ≠ .green ∧ (l.take len).2.tc = l.tc := by
  unfold Level.take
  rw [if_neg h]
  split
  · exact ⟨Mark.noConfusion, rfl⟩
  · exact ⟨Mark.noConfusion, rfl⟩

/-- **The first packet of flow 0** is green. -/
lemma Fresh.first (h : Fresh m) (hrun : Running m) (hlen : pktLen.toNat ≤ 1151) :
    (m.qosMeterRun ⟨flow0, pktLen, burstTime k⟩).1.mark = .green ∧
      ∃ tc, LastAt (m.qosMeterRun ⟨flow0, pktLen, burstTime k⟩).2 k tc ∧
        159950 ≤ tc + pktLen.toNat := by
  obtain ⟨p, hp, hfull⟩ := h
  have hperiod := hp.period_le hrun.hz
  have hstart := hrun.start_ge
  obtain ⟨q, hq, hle, hlt, hmark, hnext⟩ := qosMeterRun_first (c := ⟨flow0, pktLen, burstTime k⟩)
    hp.fits hfull rfl (by show p.period ≤ (m.startTimes flow0).toNat + _; omega)
  have hfull' : p.full = q.full := by rw [hq]; rfl
  have hq_zero : FlowZero m.hz q := by
    rw [hq]
    exact ⟨⟨hp.fits.bytes_lt, hp.fits.bytes_le, hp.fits.size_le⟩, hp.cbs, hp.bytes_le, hp.rate⟩
  have hq_period : q.period = p.period := by rw [hq]
  change q.start ≤ m.burstAt k at hle
  change m.burstAt k < q.start + p.period at hlt
  have hnow : q.periods (m.burstAt k) = 0 := by
    unfold Bucket.periods
    rw [hq_period]
    exact Nat.div_eq_of_lt (by omega)
  rw [hfull', Bucket.step_full hnow] at hmark hnext
  have hcbs : q.full.tc = 400000 := hq_zero.cbs
  obtain ⟨hgreen, htc⟩ := take_green (l := q.full) (show pktLen.toNat ≤ q.full.tc by omega)
  refine ⟨hmark.trans hgreen, _, ⟨q, _, hq_zero, hnext, hle, ?_, rfl⟩, ?_⟩
  · rw [Level.take_periods]
    exact hnow.symm
  · show 159950 ≤ (q.full.take pktLen.toNat).2.tc + _
    omega

lemma LastAt.tc_le (h : LastAt m j tc) : tc ≤ 400000 := by
  obtain ⟨p, l, hp, hfollows, -, -, rfl⟩ := h
  rw [← hp.cbs]
  exact hfollows.tc_le

/-- A packet of burst `k`, after the packets of the bursts up to it. -/
lemma LastAt.update (h : LastAt m j tc) (pktLen : BitVec 32) (hrun : Running m) (hjk : j ≤ k)
    (hk : k ≤ 9) :
    ∃ p l, FlowZero m.hz p ∧ Follows p l ((m.appFlows flow0).bucketUpdate
        (BitVec.ofNat 64 (m.arrival flow0 ⟨flow0, pktLen, burstTime k⟩).time)) ∧
      p.start ≤ m.burstAt k ∧ l.periods = p.periods (m.burstAt k) ∧
      l.tc = min (tc + (p.periods (m.burstAt k) - p.periods (m.burstAt j)) * p.bytes) 400000 ∧
      p.start ≤ m.burstAt j := by
  obtain ⟨p, l, hp, hfollows, hstart, hperiods, rfl⟩ := h
  have hmono := m.burstAt_mono hjk hk
  have hle := Bucket.start_add_periods_le hstart
  rw [← hperiods] at hle
  have hupdate := hfollows.update hp.fits (t := m.burstAt k) rfl (by omega)
    (hrun.burstAt_lt hk p)
  refine ⟨p, _, hp, hupdate, by omega, ?_, ?_, hstart⟩
  · have hcount : p.periods (m.burstAt j) ≤ p.periods (m.burstAt k) := Bucket.periods_mono hmono
    show l.periods + (p.periods (m.burstAt k) - l.periods) = _
    omega
  · show min (l.tc + (p.periods (m.burstAt k) - l.periods) * p.bytes) p.cbs = _
    rw [hp.cbs, hperiods]

/-- **The first packet of flow 0 in a burst** is green, with the tokens of a millisecond there. -/
lemma LastAt.first (h : LastAt m j tc) (hrun : Running m) (hjk : j < k) (hk : k ≤ 9)
    (hlen : pktLen.toNat ≤ 1151) :
    (m.qosMeterRun ⟨flow0, pktLen, burstTime k⟩).1.mark = .green ∧
      ∃ tc', LastAt (m.qosMeterRun ⟨flow0, pktLen, burstTime k⟩).2 k tc' ∧
        159950 ≤ tc' + pktLen.toNat := by
  obtain ⟨p, l, hp, hupdate, hstart, hperiods, htc, hold⟩ :=
    h.update pktLen hrun hjk.le hk
  have hgap := hrun.hz.cycles_gap (k := j) (by omega)
  have hnext := m.burstAt_mono (show j + 1 ≤ k by omega) hk
  have hpos := hrun.hz.low
  have htokens : 159950 ≤ (p.periods (m.burstAt k) - p.periods (m.burstAt j)) * p.bytes :=
    tokens_le (show 0 < m.hz.toNat by omega) hp.rate hp.bytes_le hp.fits.period_pos hold
      (by unfold burstAt at hnext ⊢; omega)
  have hlarge : 159950 ≤ l.tc := by
    rw [htc]
    exact Nat.le_min.mpr ⟨by omega, by norm_num⟩
  obtain ⟨hmark, hfollows⟩ := qosMeterRun_of_update (c := ⟨flow0, pktLen, burstTime k⟩) rfl hupdate
  obtain ⟨hgreen, hleft⟩ := take_green (show pktLen.toNat ≤ l.tc by omega)
  refine ⟨hmark.trans hgreen, _, ⟨p, _, hp, hfollows, hstart, ?_, rfl⟩, ?_⟩
  · rw [Level.take_periods]
    exact hperiods
  · show 159950 ≤ (l.take pktLen.toNat).2.tc + _
    omega

/-- **Another packet of flow 0 in the same burst** is green exactly as long as the tokens last. -/
lemma LastAt.again (h : LastAt m k tc) (pktLen : BitVec 32) (hrun : Running m) (hk : k ≤ 9) :
    ∃ tc', LastAt (m.qosMeterRun ⟨flow0, pktLen, burstTime k⟩).2 k tc' ∧
      ((m.qosMeterRun ⟨flow0, pktLen, burstTime k⟩).1.mark = .green ∧ tc' + pktLen.toNat = tc ∨
        tc' = tc ∧ tc < pktLen.toNat) := by
  obtain ⟨p, l, hp, hupdate, hstart, hperiods, hleft, -⟩ :=
    h.update pktLen hrun (le_refl k) hk
  rw [Nat.sub_self, Nat.zero_mul, Nat.add_zero, Nat.min_eq_left h.tc_le] at hleft
  obtain ⟨hmark, hfollows⟩ := qosMeterRun_of_update (c := ⟨flow0, pktLen, burstTime k⟩) rfl hupdate
  refine ⟨_, ⟨p, _, hp, hfollows, hstart, ?_, rfl⟩, ?_⟩
  · rw [Level.take_periods]
    exact hperiods
  · show _ ∧ (l.take pktLen.toNat).2.tc + _ = _ ∨ (l.take pktLen.toNat).2.tc = _ ∧ _
    by_cases hlen : pktLen.toNat ≤ l.tc
    · obtain ⟨hgreen, hrest⟩ := take_green hlen
      exact Or.inl ⟨hmark.trans hgreen, by omega⟩
    · obtain ⟨-, hrest⟩ := take_other hlen
      exact Or.inr ⟨by omega, by omega⟩

/-- Packets of other flows take nothing from flow 0. -/
lemma Fresh.other (h : Fresh m) {c : MeterCall} (hc : c.flow ≠ flow0) :
    Fresh (m.qosMeterRun c).2 := by
  obtain ⟨p, hp, hfull⟩ := h
  rw [← qosMeterRun_of_ne hc] at hfull
  exact ⟨p, hp, hfull⟩

lemma LastAt.other (h : LastAt m j tc) {c : MeterCall} (hc : c.flow ≠ flow0) :
    LastAt (m.qosMeterRun c).2 j tc := by
  obtain ⟨p, l, hp, hfollows, hrest⟩ := h
  rw [← qosMeterRun_of_ne hc] at hfollows
  exact ⟨p, l, hp, hfollows, hrest⟩

lemma fresh_configured {hz : BitVec 64} (hhz : Gigahertz hz)
    (start metered : Fin appFlowsMax → BitVec 64) : Fresh (configured hz start metered) := by
  obtain ⟨-, hbytes, hlt, hrate⟩ := hhz.tbParams
  obtain ⟨srtcm, hsrtcm⟩ : ∃ srtcm, (configured hz start metered).appFlows flow0 = srtcm := ⟨_, rfl⟩
  have hcir : (appSrtcmParams flow0).cir = 160000000 := rfl
  have hperiod : srtcm.cirPeriod = (rteMeterGetTbParams hz 160000000).1 := by
    rw [← hsrtcm, ← hcir]
    rfl
  have hcount : srtcm.cirBytesPerPeriod = (rteMeterGetTbParams hz 160000000).2 := by
    rw [← hsrtcm, ← hcir]
    rfl
  have hcbs : srtcm.cbs = 400000 := by
    rw [← hsrtcm]
    rfl
  have hslow : ((configured hz start metered).appFlows flow0).cirBytesPerPeriod <
      ((configured hz start metered).appFlows flow0).cirPeriod := by
    rw [hsrtcm, hperiod, hcount]
    exact BitVec.lt_def.mpr hlt
  have hfits := fits_configured hslow 0
  have hholds := holds_configured hz start metered flow0 0
  unfold Fresh
  rw [hsrtcm] at hfits hholds ⊢
  refine ⟨srtcm.bucket 0, ⟨hfits, ?_, ?_, ?_⟩, hholds⟩
  · show srtcm.cbs.toNat = 400000
    rw [hcbs]
    rfl
  · show srtcm.cirBytesPerPeriod.toNat ≤ 32
    rw [hcount]
    exact hbytes
  · show srtcm.cirPeriod.toNat * 160000000 ≤ hz.toNat * srtcm.cirBytesPerPeriod.toNat
    rw [hcount, hperiod]
    exact hrate

end Meter
end NetLabs.Qos
