import NetLabs.Qos.DropperTheorems
import NetLabs.Qos.Main
import NetLabs.Qos.Refill

/-!
# Flow 0 has its bandwidth

The parameters of `qos.c` are chosen so that flow 0 passes all it sends within its rate. Two facts
have to meet. The meter marks the first packet of flow 0 in every burst green, and goes on as long
as the tokens of the last millisecond last. The dropper then clears the average of the green
packets, since the queue is empty and the counter has been running for long, and over a burst of at
most 1499 packets the average stays below the threshold 1022, though only just (`crest_lt`).

`Calm` is the dropper's half, `Funded` the meter's, and `Main.Inv` carries both through the two
loops of `main`, whatever `rand` returns.
-/

namespace NetLabs.Qos

open NetLabs.Lib NetLabs.Lib.TokenBucket

/-! ## The average of the green packets -/

/-- The largest average that a queue of `q` packets can have behind it, when it was empty at
first. -/
def crest : ℕ → ℕ
  | 0 => 0
  | q + 1 => MovingAverage.next 512 (q * 1024) (crest q)

lemma crest_le (q : ℕ) : crest q ≤ q * 1024 * 512 := by
  induction q with
  | zero => exact le_refl _
  | succ q ih =>
    have hmono : crest (q + 1) ≤ MovingAverage.next 512 (q * 1024) (q * 1024 * 512) :=
      MovingAverage.next_mono ih
    rw [MovingAverage.next_mul (by norm_num)] at hmono
    omega

lemma crest_mono : Monotone crest := by
  apply monotone_nat_of_le_succ
  intro q
  have hle := crest_le q
  show crest q ≤ crest q - crest q / 512 + q * 1024
  omega

/-- The average of a whole burst, against the threshold of flow 0. -/
lemma crest_lt : crest 1499 < 1022 * 2 ^ 19 := by decide +kernel

namespace Dropper

/-- The queue of flow 0, as the next call at this time will find it. -/
def queue (d : Dropper) (time : BitVec 64) : ℕ := ((d.reset time).queues flow0).toNat

/-- Flow 0 after at most `n` packets at this time: the average of its green packets is not above
what its queue accounts for. -/
structure Calm (d : Dropper) (time : BitVec 64) (n : ℕ) : Prop where
  wqLog2 : (d.configs flow0 .green).wqLog2 = 9
  minTh : (d.configs flow0 .green).minTh.toNat = 1022 * 2 ^ 19
  qTime : (d.reds flow0 .green).qTime = 0
  lastTime : d.lastTime.toNat ≤ time.toNat
  queue_le : d.queue time ≤ n
  avg_le : d.queue time ≠ 0 → (d.reds flow0 .green).avg.toNat ≤ crest (d.queue time)

variable {d : Dropper} {time : BitVec 64} {n : ℕ}

lemma reset_eq (d : Dropper) (time : BitVec 64) :
    (d.reset time).configs = d.configs ∧ (d.reset time).reds = d.reds ∧
      (d.reset time).lastTime = time := by
  unfold reset
  split_ifs with h
  · exact ⟨rfl, rfl, rfl⟩
  · exact ⟨rfl, rfl, (not_not.mp h).symm⟩

/-- A queue is reset only once. -/
lemma queue_of_lastTime (h : d.lastTime = time) : d.queue time = (d.queues flow0).toNat := by
  unfold queue reset
  rw [if_neg (not_not.mpr h.symm)]

/-- Later than all calls so far, the queue is empty. -/
lemma Calm.later (h : Calm d time n) {time' : BitVec 64} (hlt : time.toNat < time'.toNat) :
    Calm d time' 0 := by
  have hlast := h.lastTime
  have hne : time' ≠ d.lastTime := by
    rintro rfl
    omega
  have hzero : d.queue time' = 0 := by
    unfold queue reset
    rw [if_pos hne]
    rfl
  exact ⟨h.wqLog2, h.minTh, h.qTime, by omega, hzero.le, fun hq => absurd hzero hq⟩

/-- An idle queue whose time was never marked is a queue that was idle for ever. -/
lemma rteRedEnqueueEmpty_late {env : RedEnv} {cfg : RedConfig} {red : Red} {ctime : BitVec 64}
    (hq : red.qTime = 0) (hlate : 2 ^ 38 ≤ ctime.toNat) :
    (rteRedEnqueueEmpty env cfg red ctime).2.avg = 0 := by
  unfold rteRedEnqueueEmpty
  dsimp only
  rw [hq, show ctime - 0 = ctime from BitVec.sub_zero ctime, if_pos]
  rw [BitVec.le_def, BitVec.toNat_udiv]
  show 65536 ≤ ctime.toNat / 4194304
  omega

/-- Nothing here marks a queue as empty. -/
lemma rteRedEnqueue_qTime (env : RedEnv) (cfg : RedConfig) (red : Red) (rand : RedRand)
    (q : BitVec 32) (ctime : BitVec 64) :
    (rteRedEnqueue env cfg red rand q ctime).2.1.qTime = red.qTime := by
  unfold rteRedEnqueue
  split
  · unfold rteRedEnqueueNonempty
    dsimp only
    split
    · rfl
    · split
      · split
        · rfl
        · rfl
      · rfl
  · rfl

/-- A packet of another flow leaves flow 0 alone. -/
lemma Calm.run_other (h : Calm d time n) (env : RedEnv) {flow : Fin appFlowsMax}
    (hflow : flow ≠ flow0) (color : QosColor) :
    Calm (qosDropperRun env flow color time d).2 time (n + 1) ∧
      (qosDropperRun env flow color time d).2.queue time = d.queue time := by
  obtain ⟨hcfg, hreds, hlast⟩ := reset_eq d time
  have hqueue : (qosDropperRun env flow color time d).2.queues flow0 =
      (d.reset time).queues flow0 := by
    unfold qosDropperRun
    dsimp only
    split
    · exact Function.update_of_ne (Ne.symm hflow) _ _
    · rfl
  have hkept : (qosDropperRun env flow color time d).2.configs = d.configs ∧
      (qosDropperRun env flow color time d).2.reds flow0 = d.reds flow0 ∧
      (qosDropperRun env flow color time d).2.lastTime = time := by
    unfold qosDropperRun
    dsimp only
    split
    · exact ⟨hcfg, (setEntry_of_ne _ (Ne.symm hflow) _ _).trans (congrFun hreds flow0), hlast⟩
    · exact ⟨hcfg, (setEntry_of_ne _ (Ne.symm hflow) _ _).trans (congrFun hreds flow0), hlast⟩
  obtain ⟨hcfg', hreds', hlast'⟩ := hkept
  have hsame : (qosDropperRun env flow color time d).2.queue time = d.queue time := by
    rw [queue_of_lastTime hlast', hqueue]
    rfl
  refine ⟨⟨?_, ?_, ?_, by rw [hlast'], ?_, ?_⟩, hsame⟩
  · rw [hcfg']
    exact h.wqLog2
  · rw [hcfg']
    exact h.minTh
  · rw [hreds']
    exact h.qTime
  · rw [hsame]
    exact le_trans h.queue_le (Nat.le_succ n)
  · rw [hsame, hreds']
    exact h.avg_le

/-- What RED makes of a packet of flow 0. -/
def enqueued (d : Dropper) (env : RedEnv) (color : QosColor) (time : BitVec 64) :
    ℤ × Red × RedRand :=
  rteRedEnqueue env (d.configs flow0 color) (d.reds flow0 color) (d.reset time).rand
    ((d.reset time).queues flow0) (env.ctime flow0 time)

/-- A packet of flow 0 changes the entry of its colour, and the queue if it passes. -/
lemma run_zero (d : Dropper) (env : RedEnv) (color : QosColor) (time : BitVec 64) :
    (qosDropperRun env flow0 color time d).1 =
        (if (d.enqueued env color time).1 = 0 then 0 else 1) ∧
      (qosDropperRun env flow0 color time d).2.configs = d.configs ∧
      (qosDropperRun env flow0 color time d).2.lastTime = time ∧
      (qosDropperRun env flow0 color time d).2.reds flow0 =
        setEntry d.reds flow0 color (d.enqueued env color time).2.1 flow0 ∧
      (qosDropperRun env flow0 color time d).2.queues flow0 = (d.reset time).queues flow0 +
        if (d.enqueued env color time).1 = 0 then 1 else 0 := by
  obtain ⟨hcfg, hreds, hlast⟩ := reset_eq d time
  unfold qosDropperRun enqueued
  dsimp only
  rw [hcfg, hreds]
  split
  · exact ⟨rfl, rfl, hlast, rfl, Function.update_self flow0 _ (d.reset time).queues⟩
  · exact ⟨rfl, rfl, hlast, rfl, (BitVec.add_zero _).symm⟩

/-- Green packets of flow 0 pass, at an empty queue and at one that is accounted for. -/
lemma Calm.enqueued_green (h : Calm d time n) (hn : n < 1499) {env : RedEnv}
    (hlate : d.queue time = 0 → 2 ^ 38 ≤ (env.ctime flow0 time).toNat) :
    (d.enqueued env .green time).1 = 0 ∧
      (d.enqueued env .green time).2.1.avg.toNat ≤ crest (d.queue time + 1) := by
  unfold enqueued rteRedEnqueue
  by_cases hq : (d.reset time).queues flow0 = 0
  · have hzero : d.queue time = 0 := by
      unfold queue
      rw [hq]
      rfl
    rw [if_neg (not_not.mpr hq), hzero]
    refine ⟨rfl, ?_⟩
    dsimp only
    rw [rteRedEnqueueEmpty_late h.qTime (hlate hzero)]
    exact Nat.zero_le _
  · have hne : d.queue time ≠ 0 := fun hzero => hq (BitVec.eq_of_toNat_eq hzero)
    have hle := h.queue_le
    have havg := h.avg_le hne
    have hcrest : crest (d.queue time + 1) < 1022 * 2 ^ 19 :=
      lt_of_le_of_lt (crest_mono (by omega)) crest_lt
    have hold : crest (d.queue time) ≤ crest (d.queue time + 1) := crest_mono (Nat.le_succ _)
    have hnext : (redAvg (d.configs flow0 .green) (d.reds flow0 .green).avg
        ((d.reset time).queues flow0)).toNat ≤ crest (d.queue time + 1) := by
      rw [toNat_redAvg h.wqLog2 (by omega) (show d.queue time < 4096 by omega)]
      exact MovingAverage.next_mono havg
    rw [if_pos hq]
    unfold rteRedEnqueueNonempty
    dsimp only
    rw [if_pos (BitVec.lt_def.mpr (by rw [h.minTh]; omega))]
    exact ⟨rfl, hnext⟩

/-- **A packet of flow 0**: if it is green it passes, and the queue is not empty afterwards. -/
lemma Calm.run_zero (h : Calm d time n) (hn : n < 1499) {env : RedEnv} {color : QosColor}
    (hfirst : d.queue time = 0 → color = .green ∧ 2 ^ 38 ≤ (env.ctime flow0 time).toNat) :
    Calm (qosDropperRun env flow0 color time d).2 time (n + 1) ∧
      (qosDropperRun env flow0 color time d).2.queue time ≠ 0 ∧
      (color = .green → (qosDropperRun env flow0 color time d).1 = 0) := by
  obtain ⟨hres, hcfg, hlast, hreds, hqueues⟩ := d.run_zero env color time
  have hle := h.queue_le
  have hqueue : (qosDropperRun env flow0 color time d).2.queue time =
      d.queue time + if (d.enqueued env color time).1 = 0 then 1 else 0 := by
    rw [queue_of_lastTime hlast, hqueues, BitVec.toNat_add]
    show (d.queue time + _) % _ = _
    split
    · exact Nat.mod_eq_of_lt (by show d.queue time + 1 < _; omega)
    · exact Nat.mod_eq_of_lt (by show d.queue time + 0 < _; omega)
  have hgreen : (d.enqueued env .green time).1 = 0 ∧
      (d.enqueued env .green time).2.1.avg.toNat ≤ crest (d.queue time + 1) :=
    h.enqueued_green hn fun hq => (hfirst hq).2
  have hwq : ((qosDropperRun env flow0 color time d).2.configs flow0 .green).wqLog2 = 9 := by
    rw [hcfg]
    exact h.wqLog2
  have hmin : ((qosDropperRun env flow0 color time d).2.configs flow0 .green).minTh.toNat =
      1022 * 2 ^ 19 := by
    rw [hcfg]
    exact h.minTh
  by_cases hc : color = .green
  · subst hc
    rw [if_pos hgreen.1] at hres hqueue
    have hred : (qosDropperRun env flow0 .green time d).2.reds flow0 .green =
        (d.enqueued env .green time).2.1 := by
      rw [hreds, setEntry_self]
    refine ⟨⟨hwq, hmin, ?_, by rw [hlast], by omega, fun _ => ?_⟩, by omega, fun _ => hres⟩
    · rw [hred]
      exact (rteRedEnqueue_qTime _ _ _ _ _ _).trans h.qTime
    · rw [hred, hqueue]
      exact hgreen.2
  · -- the queue is not empty, and the green packets' entry stays as it is
    have hne : d.queue time ≠ 0 := fun hq => hc (hfirst hq).1
    have hred : (qosDropperRun env flow0 color time d).2.reds flow0 .green =
        d.reds flow0 .green := by
      rw [hreds]
      exact if_neg fun heq => hc heq.2.symm
    have hgrow : d.queue time ≤ (qosDropperRun env flow0 color time d).2.queue time ∧
        (qosDropperRun env flow0 color time d).2.queue time ≤ d.queue time + 1 := by
      rw [hqueue]
      split
      · omega
      · omega
    refine ⟨⟨hwq, hmin, ?_, by rw [hlast], by omega, fun _ => ?_⟩, by omega,
      fun hg => absurd hg hc⟩
    · rw [hred]
      exact h.qTime
    · rw [hred]
      exact le_trans (h.avg_le hne) (crest_mono hgrow.1)

/-- After the initialisation the queue is empty. -/
lemma Calm.init {rteRand : BitVec 32} {before : Dropper}
    (h : qosDropperInit appRedParams rteRand before = .ok d) : Calm d 0 0 := by
  obtain ⟨hready, hqueue⟩ := qosDropperInit_ready h flow0
  obtain ⟨hcfg, hred⟩ := hready .green
  have hparams : rteRedConfigInit (appRedParams flow0 .green) =
      .ok ⟨1022 <<< 19, 1023 <<< 19, (2 * 1 * 255) <<< 10, 255, 9⟩ := rfl
  have hlast : d.lastTime = 0 := by
    unfold qosDropperInit at h
    cases hloop : (List.finRange appFlowsMax).foldlM
        (fun d i => d.initFlow appRedParams rteRand i) before with
    | error e => rw [hloop] at h; cases h
    | ok d₁ =>
      rw [hloop] at h
      obtain rfl := Except.ok.inj h
      rfl
  have hzero : d.queue 0 = 0 := by
    rw [queue_of_lastTime hlast, hqueue]
    rfl
  rw [hparams] at hcfg
  have hcfg' := Except.ok.inj hcfg
  refine ⟨?_, ?_, ?_, by rw [hlast], hzero.le, fun hne => absurd hzero hne⟩
  · rw [← hcfg']
  · rw [← hcfg']
    rfl
  · rw [hred]
    rfl

end Dropper

/-! ## The two loops -/

namespace Main

/-- What flow 0 has in burst `k`, which began with the counters of `s₀`: before its first packet,
tokens to come; then tokens that, with the green bytes `g` of this burst, make up the tokens of a
millisecond. All green bytes passed, and other bytes were sent only when the tokens were used up. -/
def Funded (s₀ s : Main) (k : ℕ) : Prop :=
  if s.dropper.queue s.time = 0 then
    (s.meter.Fresh ∨ ∃ j tc, j < k ∧ s.meter.LastAt j tc) ∧
      s.cntSend flow0 = s₀.cntSend flow0 ∧ s.cntPass flow0 = s₀.cntPass flow0
  else ∃ tc g, s.meter.LastAt k tc ∧ 159950 ≤ tc + g ∧
    (s₀.cntPass flow0).toNat + g ≤ (s.cntPass flow0).toNat ∧
    ((s.cntSend flow0).toNat = (s₀.cntSend flow0).toNat + g ∨ 159950 ≤ g + 1150)

/-- After `n` packets of burst `k`. -/
structure Inv (s₀ s : Main) (k n : ℕ) : Prop where
  time : s.time = burstTime k
  running : s.meter.Running
  calm : s.dropper.Calm s.time n
  funded : Funded s₀ s k
  pass_le : ∀ f, (s.cntPass f).toNat ≤ (s.cntSend f).toNat
  send_le : ∀ f, (s.cntSend f).toNat ≤ 1151 * (1499 * k + n)

variable {s₀ s : Main} {k n : ℕ} {flow : Fin appFlowsMax} {pktLen : BitVec 32}
  (factor : BitVec 8 → BitVec 16 → BitVec 16)

lemma mark_eq_green {color : QosColor} : color.mark = .green ↔ color = .green := by
  cases color with
  | green => exact ⟨fun _ => rfl, fun _ => rfl⟩
  | yellow => exact ⟨Mark.noConfusion, QosColor.noConfusion⟩
  | red => exact ⟨Mark.noConfusion, QosColor.noConfusion⟩

/-- The dropper and the meter see the same time. -/
lemma toNat_ctime {m : Meter} (h : m.Running) (hk : k ≤ 9) :
    ((redEnv factor m).ctime flow0 (burstTime k)).toNat = m.burstAt k := by
  have hcycles := h.hz.cycles_le hk
  have hstart := h.start_le
  show (m.startTimes flow0 + BitVec.ofNat 64 (Meter.cycles m.hz (burstTime k))).toNat = _
  rw [BitVec.toNat_add, BitVec.toNat_ofNat, Nat.mod_eq_of_lt (b := 2 ^ 64) (by omega),
    Nat.mod_eq_of_lt (by omega)]
  rfl

/-- The counters are far from their limits. -/
lemma Inv.handle_counts (h : Inv s₀ s k n) (flow : Fin appFlowsMax) (hn : n < 1499) (hk : k ≤ 9)
    (hlen : pktLen.toNat ≤ 1151) :
    ((handle factor flow pktLen s).2.cntSend flow).toNat =
        (s.cntSend flow).toNat + pktLen.toNat ∧
      ((handle factor flow pktLen s).2.cntPass flow).toNat = (s.cntPass flow).toNat +
        (if (handle factor flow pktLen s).1.pass = 0 then pktLen.toNat else 0) ∧
      ∀ f ≠ flow, (handle factor flow pktLen s).2.cntSend f = s.cntSend f ∧
        (handle factor flow pktLen s).2.cntPass f = s.cntPass f := by
  have hsend := h.send_le flow
  have hpass := h.pass_le flow
  have hsmall : 1151 * (1499 * k + n) ≤ 1151 * (1499 * 9 + 1499) := by gcongr
  obtain ⟨pass, hp⟩ : ∃ pass, (handle factor flow pktLen s).1.pass = pass := ⟨_, rfl⟩
  have hcnt : (handle factor flow pktLen s).2.cntPass flow =
      s.cntPass flow + if pass ≠ 0 then 0 else pktLen := by
    rw [← hp]
    exact Function.update_self flow _ s.cntPass
  refine ⟨?_, ?_, fun f hf => ⟨Function.update_of_ne hf _ _, Function.update_of_ne hf _ _⟩⟩
  · show (Function.update s.cntSend flow (s.cntSend flow + pktLen) flow).toNat = _
    rw [Function.update_self, BitVec.toNat_add]
    exact Nat.mod_eq_of_lt (by omega)
  · rw [hcnt, hp, BitVec.toNat_add, ite_not]
    split
    · apply Nat.mod_eq_of_lt
      omega
    · apply Nat.mod_eq_of_lt
      show (s.cntPass flow).toNat + 0 < 2 ^ 32
      omega

/-- All that was sent has passed, or the tokens of a millisecond. -/
lemma Funded.passed (h : Funded s₀ s k) : (s₀.cntPass flow0).toNat +
    min ((s.cntSend flow0).toNat - (s₀.cntSend flow0).toNat) 158800 ≤
      (s.cntPass flow0).toNat := by
  unfold Funded at h
  split at h
  case isTrue =>
    obtain ⟨-, hsend, hpass⟩ := h
    rw [hsend, hpass]
    omega
  case isFalse =>
    obtain ⟨tc, g, -, -, hpass, hsent⟩ := h
    omega

/-- A packet of another flow. -/
lemma Inv.funded_other (h : Inv s₀ s k n) (hflow : flow ≠ flow0) :
    Funded s₀ (handle factor flow pktLen s).2 k := by
  have hqueue : (handle factor flow pktLen s).2.dropper.queue s.time = s.dropper.queue s.time :=
    (h.calm.run_other _ hflow _).2
  have hsend : (handle factor flow pktLen s).2.cntSend flow0 = s.cntSend flow0 :=
    Function.update_of_ne (Ne.symm hflow) _ _
  have hpass : (handle factor flow pktLen s).2.cntPass flow0 = s.cntPass flow0 :=
    Function.update_of_ne (Ne.symm hflow) _ _
  have hfunded := h.funded
  unfold Funded at hfunded ⊢
  rw [hsend, hpass]
  change if (handle factor flow pktLen s).2.dropper.queue s.time = 0 then _ else _
  rw [hqueue]
  split at hfunded
  case isTrue hq =>
    rw [if_pos hq]
    obtain ⟨hmeter, hcounts⟩ := hfunded
    refine ⟨?_, hcounts⟩
    obtain hfresh | ⟨j, tc, hj, hlast⟩ := hmeter
    · exact Or.inl (hfresh.other hflow)
    · exact Or.inr ⟨j, tc, hj, hlast.other hflow⟩
  case isFalse hq =>
    rw [if_neg hq]
    obtain ⟨tc, g, hlast, hrest⟩ := hfunded
    exact ⟨tc, g, hlast.other hflow, hrest⟩

/-- The packet of flow 0 that finds the queue empty is green. -/
lemma Inv.first_green (h : Inv s₀ s k n) (hk : k ≤ 9) (hlen : pktLen.toNat ≤ 1151)
    (hq : s.dropper.queue s.time = 0) :
    (s.meter.qosMeterRun ⟨flow0, pktLen, s.time⟩).1 = .green ∧
      ∃ tc, (s.meter.qosMeterRun ⟨flow0, pktLen, s.time⟩).2.LastAt k tc ∧
        159950 ≤ tc + pktLen.toNat := by
  have hfunded := h.funded
  unfold Funded at hfunded
  rw [if_pos hq] at hfunded
  rw [h.time, ← mark_eq_green]
  obtain hfresh | ⟨j, tc, hj, hlast⟩ := hfunded.1
  · exact hfresh.first h.running hlen
  · exact hlast.first h.running hj hk hlen

/-- A packet of flow 0: what the dropper makes of it. -/
lemma Inv.calm_zero (h : Inv s₀ s k n) (hn : n < 1499) (hk : k ≤ 9) (hlen : pktLen.toNat ≤ 1151) :
    (handle factor flow0 pktLen s).2.dropper.Calm s.time (n + 1) ∧
      (handle factor flow0 pktLen s).2.dropper.queue s.time ≠ 0 ∧
      ((handle factor flow0 pktLen s).1.color = .green →
        (handle factor flow0 pktLen s).1.pass = 0) := by
  apply h.calm.run_zero hn
  intro hq
  refine ⟨(h.first_green hk hlen hq).1, ?_⟩
  have hstart := h.running.start_ge
  rw [h.time, toNat_ctime factor h.running hk]
  unfold Meter.burstAt
  omega

/-- A packet of flow 0: its tokens. -/
lemma Inv.funded_zero (h : Inv s₀ s k n) (hn : n < 1499) (hk : k ≤ 9)
    (hlen : pktLen.toNat ≤ 1151) : Funded s₀ (handle factor flow0 pktLen s).2 k := by
  obtain ⟨-, hne, hpass⟩ := h.calm_zero factor hn hk hlen
  obtain ⟨hsend', hpass', -⟩ := h.handle_counts factor flow0 hn hk hlen
  have hfunded := h.funded
  unfold Funded at hfunded ⊢
  change if (handle factor flow0 pktLen s).2.dropper.queue s.time = 0 then _ else _
  rw [if_neg hne, hsend', hpass']
  split at hfunded
  case isTrue hq =>
    obtain ⟨hgreen, tc, hlast, htc⟩ := h.first_green hk hlen hq
    obtain ⟨-, hsend, hcount⟩ := hfunded
    refine ⟨tc, pktLen.toNat, hlast, htc, ?_, Or.inl ?_⟩
    · rw [if_pos (hpass hgreen), hcount]
    · rw [hsend]
  case isFalse hq =>
    obtain ⟨tc, g, hlast, htc, hcount, hsent⟩ := hfunded
    obtain ⟨tc', hlast', hgreen | hother⟩ := hlast.again pktLen h.running hk
    · rw [← h.time] at hlast' hgreen
      refine ⟨tc', g + pktLen.toNat, hlast', by omega, ?_, by omega⟩
      rw [if_pos (hpass (mark_eq_green.mp hgreen.1))]
      omega
    · rw [← h.time] at hlast'
      exact ⟨tc', g, hlast', by omega, by omega, Or.inr (by omega)⟩

/-- **One round of the inner loop.** -/
lemma Inv.handle (h : Inv s₀ s k n) (hn : n < 1499) (hk : k ≤ 9) (hlen : pktLen.toNat ≤ 1151) :
    Inv s₀ (handle factor flow pktLen s).2 k (n + 1) := by
  obtain ⟨hsend, hpass, hother⟩ := h.handle_counts factor flow hn hk hlen
  have hcalm : (Main.handle factor flow pktLen s).2.dropper.Calm s.time (n + 1) := by
    by_cases hflow : flow = flow0
    · subst hflow
      exact (h.calm_zero factor hn hk hlen).1
    · exact (h.calm.run_other _ hflow _).1
  have hfunded : Funded s₀ (Main.handle factor flow pktLen s).2 k := by
    by_cases hflow : flow = flow0
    · subst hflow
      exact h.funded_zero factor hn hk hlen
    · exact h.funded_other factor hflow
  refine ⟨h.time, ⟨h.running.hz, h.running.start_ge, h.running.start_le⟩, hcalm, hfunded, ?_, ?_⟩
  · intro f
    have hle := h.pass_le f
    by_cases hf : f = flow
    · subst hf
      rw [hsend, hpass]
      split
      · omega
      · omega
    · rw [(hother f hf).1, (hother f hf).2]
      exact hle
  · intro f
    have hle := h.send_le f
    by_cases hf : f = flow
    · subst hf
      rw [hsend]
      omega
    · rw [(hother f hf).1]
      omega

/-- What `rand` returns is a flow and a length. -/
lemma packet_eq (rand : ℕ → ℕ) (s : Main) : ∃ flow pktLen, pktLen.toNat ≤ 1151 ∧
    packet factor rand s = Main.handle factor flow pktLen { s with drawn := s.drawn + 2 } := by
  refine ⟨_, _, ?_, rfl⟩
  rw [BitVec.toNat_ofNat, Nat.mod_eq_of_lt (by omega)]
  omega

/-- Calls of `rand` change nothing else. -/
lemma Inv.drawn (h : Inv s₀ s k n) (d : ℕ) : Inv s₀ { s with drawn := d } k n :=
  ⟨h.time, h.running, h.calm, h.funded, h.pass_le, h.send_le⟩

lemma Inv.packet (h : Inv s₀ s k n) (rand : ℕ → ℕ) (hn : n < 1499) (hk : k ≤ 9) :
    Inv s₀ (Main.packet factor rand s).2 k (n + 1) := by
  obtain ⟨flow, pktLen, hlen, heq⟩ := packet_eq factor rand s
  rw [heq]
  exact (h.drawn _).handle factor hn hk hlen

/-- Some rounds of the inner loop. -/
lemma Inv.packets (h : Inv s₀ s k 0) (rand : ℕ → ℕ) (hn : n ≤ 1499) (hk : k ≤ 9) :
    Inv s₀ (Main.packets factor rand n s) k n := by
  induction n with
  | zero => exact h
  | succ n ih =>
    unfold Main.packets
    rw [Function.iterate_succ_apply']
    exact (ih (by omega)).packet factor rand hn hk

lemma burst_le (rand : ℕ → ℕ) (s : Main) : burst rand s ≤ 1499 := by
  unfold burst
  omega

lemma burstTime_succ {k : ℕ} (hk : k ≤ 9) :
    burstTime k + 1000000 = burstTime (k + 1) ∧
      (burstTime k).toNat < (burstTime (k + 1)).toNat := by
  have hnow : (burstTime k).toNat = k * 1000000 := by
    unfold burstTime
    rw [BitVec.toNat_ofNat, Nat.mod_eq_of_lt (by omega)]
  have hnext : (burstTime (k + 1)).toNat = (k + 1) * 1000000 := by
    unfold burstTime
    rw [BitVec.toNat_ofNat, Nat.mod_eq_of_lt (by omega)]
  refine ⟨BitVec.eq_of_toNat_eq ?_, by omega⟩
  rw [BitVec.toNat_add, hnow, hnext]
  show (k * 1000000 + 1000000) % 2 ^ 64 = _
  omega

/-- The next burst begins with an empty queue. -/
lemma Inv.next (h : Inv s₀ s k n) (hn : n ≤ 1499) (hk : k ≤ 9) {s' : Main}
    (hs' : s' = { s with time := s.time + 1000000 }) : Inv s' s' (k + 1) 0 := by
  obtain ⟨htime, hlt⟩ := burstTime_succ hk
  have htime' : s'.time = burstTime (k + 1) := by
    rw [hs', ← htime, ← h.time]
  have hcalm : s'.dropper.Calm s'.time 0 := by
    rw [htime', hs']
    apply h.calm.later
    rw [h.time]
    exact hlt
  have hfunded : Funded s' s' (k + 1) := by
    unfold Funded
    rw [if_pos (Nat.le_zero.mp hcalm.queue_le)]
    refine ⟨?_, rfl, rfl⟩
    have hold := h.funded
    unfold Funded at hold
    rw [hs']
    split at hold
    case isTrue =>
      obtain hfresh | ⟨j, tc, hj, hlast⟩ := hold.1
      · exact Or.inl hfresh
      · exact Or.inr ⟨j, tc, by omega, hlast⟩
    case isFalse =>
      obtain ⟨tc, g, hlast, -⟩ := hold
      exact Or.inr ⟨k, tc, Nat.lt_succ_self k, hlast⟩
  refine ⟨htime', ?_, hcalm, hfunded, ?_, ?_⟩
  · rw [hs']
    exact h.running
  · rw [hs']
    exact h.pass_le
  · intro f
    have hle := h.send_le f
    rw [hs']
    show (s.cntSend f).toNat ≤ _
    omega

/-- **One round of the outer loop.** -/
lemma Inv.period (h : Inv s s k 0) (rand : ℕ → ℕ) (hk : k ≤ 9) :
    Inv (Main.period factor rand s) (Main.period factor rand s) (k + 1) 0 :=
  ((h.drawn _).packets factor rand (burst_le rand s) hk).next (burst_le rand s) hk rfl

lemma Inv.periods (h : Inv s s 0 0) (rand : ℕ → ℕ) {i : ℕ} (hi : i ≤ 10) :
    Inv (Main.periods factor rand i s) (Main.periods factor rand i s) i 0 := by
  induction i with
  | zero => exact h
  | succ i ih =>
    unfold Main.periods
    rw [Function.iterate_succ_apply']
    exact (ih (by omega)).period factor rand (by omega)

/-! ## The program -/

section

variable {hz : BitVec 64} {start metered : Fin appFlowsMax → BitVec 64} {rteRand : BitVec 32}
  {m : Meter} {d : Dropper}

/-- The table of `qos.c` is accepted. -/
lemma appRedParams_ok (i : Fin appFlowsMax) (j : QosColor) :
    ∃ cfg, rteRedConfigInit (appRedParams i j) = .ok cfg := by
  have hall : ∀ i, ∀ j ∈ QosColor.all, (rteRedConfigInit (appRedParams i j)).isOk = true := by
    decide
  have hok := hall i j (by cases j <;> decide)
  cases hcfg : rteRedConfigInit (appRedParams i j) with
  | error e => rw [hcfg] at hok; cases hok
  | ok cfg => exact ⟨cfg, rfl⟩

/-- Neither initialisation can fail. -/
lemma init_ok (hz : BitVec 64) (start metered : Fin appFlowsMax → BitVec 64) (rteRand : BitVec 32)
    (m : Meter) (d : Dropper) : ∃ s, init hz start metered rteRand m d = .ok s := by
  have hflow : ∀ d i, ∃ d', Dropper.initFlow appRedParams rteRand d i = .ok d' := by
    intro d i
    obtain ⟨d', hd'⟩ := foldlM_ok
      (f := fun d j => Dropper.configure appRedParams rteRand d i j)
      (fun d j => by
        obtain ⟨cfg, hcfg⟩ := appRedParams_ok i j
        unfold Dropper.configure
        rw [hcfg]
        exact ⟨_, rfl⟩)
      QosColor.all d
    unfold Dropper.initFlow
    rw [hd']
    exact ⟨_, rfl⟩
  obtain ⟨d', hd'⟩ := foldlM_ok hflow (List.finRange appFlowsMax) d
  unfold init Dropper.qosDropperInit
  rw [Meter.qosMeterInit_eq, hd']
  exact ⟨_, rfl⟩

/-- Before the first burst. -/
lemma Inv.init (h : Main.init hz start metered rteRand m d = .ok s) (hhz : Gigahertz hz)
    (hlow : 2 ^ 38 ≤ (start flow0).toNat) (hhigh : (start flow0).toNat ≤ 2 ^ 63) : Inv s s 0 0 := by
  unfold Main.init at h
  rw [Meter.qosMeterInit_eq] at h
  cases hd : Dropper.qosDropperInit appRedParams rteRand d with
  | error e => rw [hd] at h; cases h
  | ok dropper =>
    rw [hd] at h
    obtain rfl := Except.ok.inj h
    have hcalm := Dropper.Calm.init hd
    refine ⟨rfl, ⟨hhz, hlow, hhigh⟩, hcalm, ?_, fun _ => le_refl _, fun _ => le_refl _⟩
    unfold Funded
    rw [if_pos (Nat.le_zero.mp hcalm.queue_le)]
    exact ⟨Or.inl (Meter.fresh_configured hhz start metered), rfl, rfl⟩

/-- **Green packets of flow 0 are never dropped**, in any of the bursts, whatever `rand` returns:
the scaled average of the green packets is below 1022 after each of them. -/
theorem green_flow_zero_pass (hinit : Main.init hz start metered rteRand m d = .ok s)
    (hhz : Gigahertz hz) (hlow : 2 ^ 38 ≤ (start flow0).toNat)
    (hhigh : (start flow0).toNat ≤ 2 ^ 63) (rand : ℕ → ℕ) {i j : ℕ} (hi : i < 10)
    (hj : j < burst rand (periods factor rand i s))
    {p : Packet}
    (hp : p = (packet factor rand (packets factor rand j (periods factor rand i s).draw)).1)
    (hflow : p.flow = flow0) (hgreen : p.color = .green) : p.pass = 0 ∧
      ((packet factor rand (packets factor rand j (periods factor rand i s).draw)).2.dropper.reds
        flow0 .green).avg.toNat < 1022 * 2 ^ 19 := by
  have hburst := burst_le rand (periods factor rand i s)
  have hinv := (((Inv.init hinit hhz hlow hhigh).periods factor rand hi.le).drawn
    ((periods factor rand i s).drawn + 1)).packets factor rand (show j ≤ 1499 by omega) (by omega)
  obtain ⟨flow, pktLen, hlen, heq⟩ :=
    packet_eq factor rand (packets factor rand j (periods factor rand i s).draw)
  rw [heq] at hp ⊢
  subst hp
  obtain rfl : flow = flow0 := hflow
  obtain ⟨hcalm, hne, hpass⟩ := (hinv.drawn _).calm_zero factor (by omega) (by omega) hlen
  refine ⟨hpass hgreen, lt_of_le_of_lt (hcalm.avg_le hne) ?_⟩
  have hqueue := hcalm.queue_le
  exact lt_of_le_of_lt (crest_mono (by omega)) crest_lt

/-- The first packet of all, when `rand` returns 0: 128 bytes of flow 0, at 2.4 GHz. -/
theorem green_flow_zero_pass_first :
    ∃ s, Main.init 2400000000 (fun _ => 274877906944) (fun _ => 274877906944) 7 Meter.blank
        Dropper.blank = .ok s ∧
      (packet (fun _ _ => 0) (fun _ => 0) s.draw).1.color = .green ∧
      (packet (fun _ _ => 0) (fun _ => 0) s.draw).1.pass = 0 ∧
      ((packet (fun _ _ => 0) (fun _ => 0) s.draw).2.dropper.reds flow0 .green).avg.toNat <
        1022 * 2 ^ 19 := by
  obtain ⟨s, hs⟩ := init_ok 2400000000 (fun _ => 274877906944) (fun _ => 274877906944) 7 Meter.blank
    Dropper.blank
  have hhz : Gigahertz 2400000000 := ⟨by decide, by decide⟩
  have hinv : Inv s s 0 0 := Inv.init hs hhz (by decide) (by decide)
  have hgreen : (packet (fun _ _ => 0) (fun _ => 0) s.draw).1.color = .green :=
    ((hinv.drawn 3).first_green (by decide) (show (128 : BitVec 32).toNat ≤ 1151 by decide)
      (Nat.le_zero.mp hinv.calm.queue_le)).1
  exact ⟨s, hs, hgreen, green_flow_zero_pass (fun _ _ => 0) hs hhz (by decide) (by decide)
    (fun _ => 0) (show 0 < 10 by decide) (show 0 < 500 by decide) rfl rfl hgreen⟩

/-- **Flow 0 has its bandwidth**: of what it sends in a burst all is passed, or 158800 bytes of it,
of the 160000 that it may send in a millisecond. -/
theorem flow_zero_bandwidth (hinit : Main.init hz start metered rteRand m d = .ok s)
    (hhz : Gigahertz hz) (hlow : 2 ^ 38 ≤ (start flow0).toNat)
    (hhigh : (start flow0).toNat ≤ 2 ^ 63) (rand : ℕ → ℕ) {i : ℕ} (hi : i < 10) :
    ((periods factor rand i s).cntPass flow0).toNat +
        min (((periods factor rand (i + 1) s).cntSend flow0).toNat -
          ((periods factor rand i s).cntSend flow0).toNat) 158800 ≤
      ((periods factor rand (i + 1) s).cntPass flow0).toNat ∧
    ∀ f, ((periods factor rand (i + 1) s).cntPass f).toNat ≤
        ((periods factor rand (i + 1) s).cntSend f).toNat ∧
      ((periods factor rand (i + 1) s).cntSend f).toNat ≤ 1151 * (1499 * (i + 1)) := by
  have hstart := (Inv.init hinit hhz hlow hhigh).periods factor rand hi.le
  have hend := (hstart.drawn ((periods factor rand i s).drawn + 1)).packets factor rand
    (burst_le rand (periods factor rand i s)) (by omega)
  have hnext : periods factor rand (i + 1) s = period factor rand (periods factor rand i s) :=
    Function.iterate_succ_apply' _ _ _
  rw [hnext]
  refine ⟨?_, fun f => ⟨hend.pass_le f, ?_⟩⟩
  · exact hend.funded.passed
  · refine le_trans (hend.send_le f) ?_
    have hburst := burst_le rand (periods factor rand i s)
    gcongr
    omega

/-- When `rand` returns 0, every packet has 128 bytes of flow 0. -/
lemma packets_zero_cntSend (factor : BitVec 8 → BitVec 16 → BitVec 16) (s : Main) (n : ℕ) :
    (packets factor (fun _ => 0) n s).cntSend flow0 =
      s.cntSend flow0 + BitVec.ofNat 32 (128 * n) := by
  induction n with
  | zero => exact (BitVec.add_zero _).symm
  | succ n ih =>
    unfold packets at ih ⊢
    rw [Function.iterate_succ_apply', Nat.mul_succ, BitVec.ofNat_add, ← BitVec.add_assoc, ← ih]
    rfl

lemma periods_one_cntSend (factor : BitVec 8 → BitVec 16 → BitVec 16) (rand : ℕ → ℕ) (s : Main) :
    (periods factor rand (0 + 1) s).cntSend =
      (packets factor rand (burst rand s) s.draw).cntSend := by
  unfold periods
  rw [Function.iterate_succ_apply', Function.iterate_zero_apply, period]

/-- When `rand` returns 0, the 64000 bytes of the first burst all pass. -/
theorem flow_zero_bandwidth_first :
    ∃ s, Main.init 2400000000 (fun _ => 274877906944) (fun _ => 274877906944) 7 Meter.blank
        Dropper.blank = .ok s ∧
      ((periods (fun _ _ => 0) (fun _ => 0) 1 s).cntPass flow0).toNat = 64000 := by
  obtain ⟨s, hs⟩ := init_ok 2400000000 (fun _ => 274877906944) (fun _ => 274877906944) 7 Meter.blank
    Dropper.blank
  have hhz : Gigahertz 2400000000 := ⟨by decide, by decide⟩
  have hinv : Inv s s 0 0 := Inv.init hs hhz (by decide) (by decide)
  have hsend := hinv.send_le flow0
  have hzero : s.cntSend flow0 = 0 := BitVec.eq_of_toNat_eq (by simpa using hsend)
  obtain ⟨hbandwidth, hcounts⟩ := flow_zero_bandwidth (fun _ _ => 0) hs hhz (by decide) (by decide)
    (fun _ => 0) (show 0 < 10 by decide)
  have hsent : (periods (fun _ _ => 0) (fun _ => 0) (0 + 1) s).cntSend flow0 = 64000 := by
    have hburst : burst (fun _ => 0) s = 500 := rfl
    rw [periods_one_cntSend, packets_zero_cntSend, show s.draw.cntSend flow0 = 0 from hzero, hburst]
    rfl
  have hstart : (periods (fun _ _ => 0) (fun _ => 0) 0 s).cntSend flow0 = 0 := hzero
  obtain ⟨hle, -⟩ := hcounts flow0
  rw [hsent] at hbandwidth hle
  rw [hstart] at hbandwidth
  exact ⟨s, hs, Nat.le_antisymm hle (le_trans (Nat.le_add_left _ _) hbandwidth)⟩

end

end Main
end NetLabs.Qos
