import NetLabs.Lib.TwoRate
import NetLabs.Qos.Policing

/-!
# The two-rate meter is two arrival curves

The colour-aware two-rate meter, for packets whose times do not go back. What it lets through
conforms to the curve of the peak bucket, and what it lets through as green to that of the committed
bucket; it changes no colour exactly where the packets that come in conform already
(`trtcm_is_curves`). With the periods of `rte_meter_trtcm_config` the curves are the rates and
bursts that were asked for, up to one per cent and a period of at most 100 bytes (`trtcm_keeps_contract`).
-/

namespace NetLabs.Qos

open NetLabs.Lib NetLabs.Lib.TokenBucket

/-- The packet of a call, in natural numbers. -/
def packet (c : CheckCall) : Packet :=
  c.map BitVec.toNat BitVec.toNat fun k => k.toQosColor.mark

/-- The packets that are not red. -/
def notRed (calls : List CheckCall) : List Arrival := passed (calls.map packet)

/-- The packets that are green. -/
def green (calls : List CheckCall) : List Arrival := greens (calls.map packet)

lemma packet_injective : Function.Injective packet := by
  rintro ⟨t, n, k⟩ ⟨t', n', k'⟩ h
  unfold packet Stamped.map at h
  simp only [Stamped.mk.injEq] at h
  obtain ⟨htime, hbody, hmark⟩ := h
  obtain rfl := BitVec.eq_of_toNat_eq htime
  obtain rfl := BitVec.eq_of_toNat_eq hbody
  cases k <;> cases k' <;> first | rfl | cases hmark

lemma mark_ne_red {k : RteMeterColor} (h : k ≠ .red) : k.toQosColor.mark ≠ .red := by
  cases k with
  | green => decide
  | yellow => decide
  | red => exact absurd rfl h

namespace Trtcm

/-- The curve of a bucket, from the last update on. -/
def Part.curve (b : Part) : Credit where
  size := b.size.toNat
  bytes := b.bytes.toNat
  period := b.period.toNat
  start := b.time.toNat

/-- The two curves of a meter. -/
def curves (m : Trtcm) : TwoRate := ⟨m.committed.curve, m.peak.curve⟩

/-! ## Simulation -/

/-- The meter has the buckets of `p` and what `s` says is in them, and can be brought to the
instants of the packets to come. -/
structure Follows (p : TwoRate) (m : Trtcm) (s : Purses) (calls : List CheckCall) : Prop where
  committed : m.committed.Tracks p.committed s.committed
  peak : m.peak.Tracks p.peak s.peak
  ready : ∀ c ∈ calls, m.Ready c.time
  sorted : calls.Pairwise fun c d => c.time ≤ d.time

variable {p : TwoRate} {m : Trtcm} {s : Purses} {calls : List CheckCall} {c : CheckCall}

/-- **One packet**: the colour is the mark of the two-rate marker. -/
lemma Follows.step (h : Follows p m s (c :: calls)) :
    (p.marker.step s (packet c)).1 = (marker.step m c).1.toQosColor.mark ∧
      Follows p (marker.step m c).2 (p.marker.step s (packet c)).2 calls := by
  obtain ⟨hhead, htail⟩ := List.pairwise_cons.mp h.sorted
  have hready := h.ready c List.mem_cons_self
  have hc := h.committed.update hready.committed
  have hp := h.peak.update hready.peak
  have hlater : ∀ d ∈ calls, Ready (marker.step m c).2 d.time := fun d hd =>
    (hready.advance (h.ready d (List.mem_cons_of_mem _ hd)) (hhead d hd)).take c.body c.mark
  have hlen : (c.body.setWidth 64).toNat = c.body.toNat := BitVec.toNat_setWidth_of_le (by norm_num)
  have hle_peak : c.body.setWidth 64 ≤ (m.bucketUpdate c.time).peak.tokens ↔
      c.body.toNat ≤ (p.peak.top c.time.toNat s.peak).tokens := by
    rw [BitVec.le_def, hlen, peak_bucketUpdate, hp.tokens]
  have hle_committed : c.body.setWidth 64 ≤ (m.bucketUpdate c.time).committed.tokens ↔
      c.body.toNat ≤ (p.committed.top c.time.toNat s.committed).tokens := by
    rw [BitVec.le_def, hlen, committed_bucketUpdate, hc.tokens]
  have hspend : ∀ {k : Credit} {u : Purse} {b : Part}, b.Tracks k u →
      c.body.setWidth 64 ≤ b.tokens →
      (b.spend (c.body.setWidth 64)).Tracks k (Credit.spend c.body.toNat u) := by
    intro k u b hb hle
    have htracks := hb.spend hle
    rwa [hlen] at htracks
  rcases colorLogicAware_cases c.body c.mark (m.bucketUpdate c.time) with
    ⟨heq, hwhy⟩ | ⟨m', heq, hc', hp', hne, hle, hwhy⟩ | ⟨m', heq, hc', hp', hgreen, hle, hle'⟩
  · have hstep : marker.step m c = (.red, m.bucketUpdate c.time) := heq
    have hmark : p.marker.step s (packet c) = (.red, p.marker.advance c.time.toNat s) := by
      apply TwoRate.take_red
      refine hwhy.imp (congrArg fun k : RteMeterColor => k.toQosColor.mark) fun hlt => ?_
      exact Nat.not_le.mp fun hle => BitVec.not_le.mpr hlt (hle_peak.mpr hle)
    rw [hmark, hstep]
    rw [hstep] at hlater
    exact ⟨rfl, hc, hp, hlater, htail⟩
  · have hstep : marker.step m c = (.yellow, m') := heq
    have hmark : p.marker.step s (packet c) =
        (.yellow, ⟨p.committed.top c.time.toNat s.committed,
          Credit.spend c.body.toNat (p.peak.top c.time.toNat s.peak)⟩) := by
      apply TwoRate.take_yellow (mark_ne_red hne) (hle_peak.mp hle)
      refine hwhy.imp (congrArg fun k : RteMeterColor => k.toQosColor.mark) fun hlt => ?_
      exact Nat.not_le.mp fun hle => BitVec.not_le.mpr hlt (hle_committed.mpr hle)
    rw [hmark, hstep]
    rw [hstep] at hlater
    refine ⟨rfl, ?_, ?_, hlater, htail⟩
    · dsimp only
      rw [hc']
      exact hc
    · dsimp only
      rw [hp']
      exact hspend hp hle
  · have hstep : marker.step m c = (.green, m') := heq
    have hmark : p.marker.step s (packet c) =
        (.green, ⟨Credit.spend c.body.toNat (p.committed.top c.time.toNat s.committed),
          Credit.spend c.body.toNat (p.peak.top c.time.toNat s.peak)⟩) := by
      have hpacket : (packet c).mark = .green :=
        congrArg (fun k : RteMeterColor => k.toQosColor.mark) hgreen
      unfold Marker.step
      rw [hpacket]
      exact TwoRate.take_green (hle_peak.mp hle) (hle_committed.mp hle')
    rw [hmark, hstep]
    rw [hstep] at hlater
    refine ⟨rfl, ?_, ?_, hlater, htail⟩
    · dsimp only
      rw [hc']
      exact hspend hc hle'
    · dsimp only
      rw [hp']
      exact hspend hp hle

/-- **The meter is the marker of its curves.** -/
lemma Follows.remark (h : Follows p m s calls) :
    p.marker.remark s (calls.map packet) = (marker.remark m calls).map packet :=
  Marker.remark_map (R := Follows p) (fun _ _ _ _ h => h.step) calls h

lemma Follows.sorted_packets (h : Follows p m s calls) :
    (calls.map packet).Pairwise fun x y => x.time ≤ y.time := by
  rw [List.pairwise_map]
  exact h.sorted.imp BitVec.le_def.mp

/-- From full buckets it lets through what conforms, and changes nothing that does. -/
lemma Follows.curves (h : Follows p m p.full calls) :
    p.peak.Conforms (notRed (marker.remark m calls)) ∧
    p.committed.Conforms (green (marker.remark m calls)) ∧
    (notRed (marker.remark m calls) = notRed calls ↔ p.peak.Conforms (notRed calls)) ∧
    (marker.remark m calls = calls ↔
      p.peak.Conforms (notRed calls) ∧ p.committed.Conforms (green calls)) := by
  obtain ⟨hpeak, hcommitted⟩ := TwoRate.remark_conforms h.sorted_packets p
  have hpassed := TwoRate.passed_remark_iff h.sorted_packets p
  have hsame := TwoRate.remark_eq_iff h.sorted_packets p
  rw [h.remark] at hpeak hcommitted hpassed hsame
  rw [(List.map_injective_iff.mpr packet_injective).eq_iff] at hsame
  exact ⟨hpeak, hcommitted, hpassed, hsame⟩

end Trtcm

variable {hz now : BitVec 64} {p : TrtcmParams} {m : Trtcm} {calls : List CheckCall}

/-- A meter that was just configured is full. -/
lemma Trtcm.follows_configured (hconfig : rteMeterTrtcmConfig hz now p = .ok m)
    (h : Moderate hz p.pir) (hrate : p.pir ≤ hz)
    (hsteady : Steady now (max p.cbs.toNat p.pbs.toNat) calls) :
    Trtcm.Follows m.curves m m.curves.full calls := by
  have hready := Trtcm.ready_configured hconfig h hrate hsteady
  unfold rteMeterTrtcmConfig at hconfig
  split at hconfig
  case isTrue => cases hconfig
  case isFalse =>
    obtain rfl := Except.ok.inj hconfig
    exact ⟨Trtcm.Part.tracks_self _, Trtcm.Part.tracks_self _, hready, hsteady.sorted⟩

/-- **The two-rate meter is two arrival curves.** -/
theorem trtcm_is_curves (hconfig : rteMeterTrtcmConfig hz now p = .ok m)
    (h : Moderate hz p.pir) (hrate : p.pir ≤ hz)
    (hsteady : Steady now (max p.cbs.toNat p.pbs.toNat) calls) :
    m.peak.curve.Conforms (notRed (Trtcm.marker.remark m calls)) ∧
    m.committed.curve.Conforms (green (Trtcm.marker.remark m calls)) ∧
    (notRed (Trtcm.marker.remark m calls) = notRed calls ↔
      m.peak.curve.Conforms (notRed calls)) ∧
    (Trtcm.marker.remark m calls = calls ↔
      m.peak.curve.Conforms (notRed calls) ∧ m.committed.curve.Conforms (green calls)) :=
  (Trtcm.follows_configured hconfig h hrate hsteady).curves

/-- Packets that conform and change nothing. -/
theorem conforming_packets_stay : ∃ m,
    rteMeterTrtcmConfig 2400000000 1000 ⟨10000000, 20000000, 2000, 3000⟩ = .ok m ∧
    m.peak.curve.Conforms (notRed [⟨1000, 1500, .green⟩, ⟨1200, 1500, .yellow⟩, ⟨1300, 1500, .red⟩,
      ⟨500000, 1500, .green⟩]) := by
  refine ⟨_, if_neg (by decide), ?_⟩
  have hcurves := @trtcm_is_curves 2400000000 1000 _ _ [⟨1000, 1500, .green⟩, ⟨1200, 1500, .yellow⟩,
      ⟨1300, 1500, .red⟩, ⟨500000, 1500, .green⟩]
    (if_neg (by decide) : rteMeterTrtcmConfig 2400000000 1000 ⟨10000000, 20000000, 2000, 3000⟩ = _)
    ⟨by decide, by decide, by decide, by decide⟩ (by decide) ⟨by decide, by decide, by decide⟩
  exact (hcurves.2.2.2.mp (by decide +kernel)).1

/-! ## The contract -/

/-- In every stretch of packets there are at most `size` bytes and those that `rate` bytes in `hz`
cycles give in its time. -/
def AtMost (hz rate size : ℕ) (as : List Arrival) : Prop :=
  ∀ a w, a :: w <:+: as →
    hz * Credit.bytesIn (a :: w) ≤ hz * size + rate * ((w.getLastD a).time - a.time)

namespace Paced

variable {f r size : ℕ} {c : Credit} {as : List Arrival}

/-- The last packet of a stretch is not before its first. -/
lemma le_last (hsorted : as.Pairwise fun a b => a.time ≤ b.time) {a : Arrival} {w : List Arrival}
    (h : a :: w <:+: as) : a.time ≤ (w.getLastD a).time := by
  cases w with
  | nil => exact le_refl _
  | cons b w =>
    have hstretch := hsorted.sublist h.sublist
    exact (List.pairwise_cons.mp hstretch).1 _ (by
      rw [List.getLastD_cons]
      exact List.getLastD_mem_cons)

/-- **Traffic that conforms is within the contract**, a hundredth more of the rate and a period. -/
lemma atMost_of_conforms (h : Paced f r c.period c.bytes) (hstart : ∀ a ∈ as, c.start ≤ a.time)
    (hsorted : as.Pairwise fun a b => a.time ≤ b.time) (hconf : c.Conforms as) :
    AtMost (100 * f) (101 * r) (c.size + c.bytes) as := by
  intro a w hw
  have hbound := hconf a w hw
  have hincome := h.income_le (hstart a (hw.subset List.mem_cons_self)) (le_last hsorted hw)
  have hmul := Nat.mul_le_mul_left (100 * f) hbound
  rw [Nat.mul_add, Nat.mul_add] at hmul
  rw [← Nat.mul_assoc, ← Nat.mul_assoc, ← Nat.mul_assoc, Nat.mul_add] at hincome
  rw [Nat.mul_add]
  omega

/-- **Traffic within the contract conforms**, if a period is spared. -/
lemma conforms_of_atMost (h : Paced f r c.period c.bytes) (hf : 0 < f)
    (hstart : ∀ a ∈ as, c.start ≤ a.time) (hsorted : as.Pairwise fun a b => a.time ≤ b.time)
    (hsize : size + c.bytes ≤ c.size) (hbound : AtMost f r size as) : c.Conforms as := by
  intro a w hw
  have hbytes := hbound a w hw
  have hincome := h.le_income (hstart a (hw.subset List.mem_cons_self)) (le_last hsorted hw)
  have hmul := Nat.mul_le_mul_left f hsize
  apply Nat.le_of_mul_le_mul_left _ hf
  rw [Nat.mul_add] at hmul hincome ⊢
  rw [Nat.mul_add]
  omega

end Paced

/-- A bucket of the rate and the size that were asked for. -/
structure Contracted (hz rate size : BitVec 64) (now : BitVec 64) (c : Credit) : Prop where
  size : c.size = size.toNat
  start : c.start = now.toNat
  paced : Paced hz.toNat rate.toNat c.period c.bytes
  bytes_le : c.bytes ≤ 100

lemma contracted_configured (hconfig : rteMeterTrtcmConfig hz now p = .ok m)
    (h : Moderate hz p.pir) (hrate : p.pir ≤ hz) :
    Contracted hz p.cir p.cbs now m.committed.curve ∧
      Contracted hz p.pir p.pbs now m.peak.curve := by
  obtain ⟨hcir, hle⟩ := h.cir hconfig
  unfold rteMeterTrtcmConfig at hconfig
  split at hconfig
  case isTrue => cases hconfig
  case isFalse =>
    obtain rfl := Except.ok.inj hconfig
    exact ⟨⟨rfl, rfl, tbParams_paced hcir, tbParams_bytes_le hcir (BitVec.le_trans hle hrate)⟩,
      ⟨rfl, rfl, tbParams_paced h, tbParams_bytes_le h hrate⟩⟩

section
variable {rate size : BitVec 64} {c : Credit} {as : List Arrival}

lemma Contracted.atMost (h : Contracted hz rate size now c)
    (hnow : ∀ a ∈ as, now.toNat ≤ a.time) (hsorted : as.Pairwise fun a b => a.time ≤ b.time)
    (hconf : c.Conforms as) : AtMost (100 * hz.toNat) (101 * rate.toNat) (size.toNat + 100) as := by
  intro a w hw
  have hbound := h.paced.atMost_of_conforms (by rw [h.start]; exact hnow) hsorted hconf a w hw
  have hmul : 100 * hz.toNat * (c.size + c.bytes) ≤ 100 * hz.toNat * (size.toNat + 100) := by
    rw [h.size]
    exact Nat.mul_le_mul_left _ (Nat.add_le_add_left h.bytes_le _)
  exact le_trans hbound (Nat.add_le_add_right hmul _)

lemma Contracted.conforms (h : Contracted hz rate size now c) (hhz : 0 < hz.toNat)
    (hnow : ∀ a ∈ as, now.toNat ≤ a.time) (hsorted : as.Pairwise fun a b => a.time ≤ b.time)
    {n : ℕ} (hn : n + 100 ≤ size.toNat) (hbound : AtMost hz.toNat rate.toNat n as) :
    c.Conforms as := by
  have hbytes := h.bytes_le
  refine h.paced.conforms_of_atMost hhz (by rw [h.start]; exact hnow) hsorted ?_ hbound
  rw [h.size]
  omega

end

/-- The packets with some colours, of calls that do not go back in time. -/
lemma Steady.having {size : ℕ} (h : Steady now size calls) {xs : List Packet}
    (hxs : xs.map Packet.arrival = (calls.map packet).map Packet.arrival) (q : Mark → Bool) :
    (∀ a ∈ having q xs, now.toNat ≤ a.time) ∧
      (having q xs).Pairwise fun a b => a.time ≤ b.time := by
  have hsub := TwoRate.having_sublist q xs
  rw [hxs, List.map_map] at hsub
  constructor
  · intro a ha
    obtain ⟨c, hc, rfl⟩ := List.mem_map.mp (hsub.subset ha)
    exact BitVec.le_def.mp (h.now_le c hc)
  · refine List.Pairwise.sublist hsub ?_
    rw [List.pairwise_map]
    exact h.sorted.imp BitVec.le_def.mp

/-- **The two-rate meter keeps its contract.** In every stretch of the packets that it lets through
there are at most as many bytes as the peak burst and rate allow, and in every stretch of those that
it lets through as green as the committed burst and rate allow, up to 100 bytes and one per cent of
the rate; and packets that stay 100 bytes below both keep their colours. -/
theorem trtcm_keeps_contract (hconfig : rteMeterTrtcmConfig hz now p = .ok m)
    (h : Moderate hz p.pir) (hrate : p.pir ≤ hz)
    (hsteady : Steady now (max p.cbs.toNat p.pbs.toNat) calls) :
    AtMost (100 * hz.toNat) (101 * p.pir.toNat) (p.pbs.toNat + 100)
      (notRed (Trtcm.marker.remark m calls)) ∧
    AtMost (100 * hz.toNat) (101 * p.cir.toNat) (p.cbs.toNat + 100)
      (green (Trtcm.marker.remark m calls)) ∧
    ∀ pbs cbs, pbs + 100 ≤ p.pbs.toNat → cbs + 100 ≤ p.cbs.toNat →
      AtMost hz.toNat p.pir.toNat pbs (notRed calls) →
      AtMost hz.toNat p.cir.toNat cbs (green calls) →
      Trtcm.marker.remark m calls = calls := by
  have hfollows := Trtcm.follows_configured hconfig h hrate hsteady
  obtain ⟨hpeak, hcommitted, -, hsame⟩ := hfollows.curves
  obtain ⟨hcir, hpir⟩ := contracted_configured hconfig h hrate
  have hout : ((Trtcm.marker.remark m calls).map packet).map Packet.arrival =
      (calls.map packet).map Packet.arrival := by
    rw [← hfollows.remark, TwoRate.map_arrival_remark]
  refine ⟨?_, ?_, fun pbs cbs hpbs hcbs hpeak' hcommitted' => hsame.mpr ⟨?_, ?_⟩⟩
  · obtain ⟨hnow, hsorted⟩ := hsteady.having hout fun k => k != .red
    exact hpir.atMost hnow hsorted hpeak
  · obtain ⟨hnow, hsorted⟩ := hsteady.having hout fun k => k == .green
    exact hcir.atMost hnow hsorted hcommitted
  · obtain ⟨hnow, hsorted⟩ := hsteady.having rfl fun k => k != .red
    exact hpir.conforms h.hz_pos hnow hsorted hpbs hpeak'
  · obtain ⟨hnow, hsorted⟩ := hsteady.having rfl fun k => k == .green
    exact hcir.conforms h.hz_pos hnow hsorted hcbs hcommitted'

/-- In 50 ms at 2.4 GHz, no more than 1.01 MB and the burst pass a meter of 20 MB/s. -/
theorem fifty_milliseconds_within_contract : ∃ m,
    rteMeterTrtcmConfig 2400000000 1000 ⟨10000000, 20000000, 2000, 3000⟩ = .ok m ∧
    AtMost (100 * 2400000000) (101 * 20000000) 3100 (notRed (Trtcm.marker.remark m
      [⟨1000, 3000, .green⟩, ⟨120001000, 1500, .green⟩])) := by
  refine ⟨_, if_neg (by decide), ?_⟩
  exact (trtcm_keeps_contract (if_neg (by decide)) ⟨by decide, by decide, by decide, by decide⟩
    (by decide) ⟨by decide, by decide, by decide⟩).1

end NetLabs.Qos
