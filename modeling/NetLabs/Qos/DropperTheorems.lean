import NetLabs.Lib.MovingAverage
import NetLabs.Lib.While
import NetLabs.Qos.Dropper

/-!
# The dropper's queues and averages stay bounded

Nothing in `qos_dropper_run` limits a queue while the time stands still. The limit comes from
the averages: a packet passes only if the average of its colour ends up below its threshold, and
once the queue is well above the largest threshold every packet that passes has raised that
average by a fixed amount. `Bounded` keeps the account of this, the three averages of a flow
against the length of its queue, over all interleavings of the colours.
-/

namespace NetLabs.Qos

open NetLabs.Lib

/-- The largest threshold that `rte_red_config_init` accepts, as it is compared with an average
of weight `2 ^ -9`. -/
def redCeiling : ℕ := 1023 * 1024 * 512

/-! ## `rte_red` -/

/-- The thresholds of a configuration are those of its parameters, scaled. -/
lemma rteRedConfigInit_ok {p : RedParams} {c : RedConfig} (h : rteRedConfigInit p = .ok c)
    (hwq : p.wqLog2 = 9) :
    c.wqLog2 = 9 ∧ c.minTh.toNat ≤ redCeiling ∧ c.maxTh.toNat ≤ redCeiling := by
  unfold rteRedConfigInit at h
  split_ifs at h with h₁ h₂ h₃ h₄ h₅ h₆
  obtain rfl := Except.ok.inj h
  have hmax : p.maxTh.toNat ≤ 1023 := by
    rw [BitVec.lt_def] at h₁
    simpa using h₁
  have hmin : p.minTh.toNat ≤ 1023 := by
    rw [BitVec.le_def] at h₂
    omega
  -- neither shift loses a bit
  have hscale : ∀ x : BitVec 16, x.toNat ≤ 1023 →
      (x.setWidth 32 <<< (p.wqLog2.toNat + redScaling)).toNat ≤ redCeiling := by
    intro x hx
    rw [hwq, show (9 : BitVec 16).toNat + redScaling = 19 from rfl, BitVec.toNat_shiftLeft,
      BitVec.toNat_setWidth, Nat.shiftLeft_eq]
    unfold redCeiling
    omega
  exact ⟨by rw [hwq]; rfl, hscale _ hmin, hscale _ hmax⟩

/-- **The update of an average is exact**: in 32 bits it is the moving average of the queue. -/
theorem toNat_redAvg {cfg : RedConfig} {avg q : BitVec 32} (hwq : cfg.wqLog2 = 9)
    (havg : avg.toNat < 4096 * 2 ^ 19) (hq : q.toNat < 4096) :
    (redAvg cfg avg q).toNat = MovingAverage.next 512 (q.toNat * 1024) avg.toNat := by
  unfold redAvg MovingAverage.next redScaling
  rw [hwq, show (9 : BitVec 8).toNat = 9 from rfl, BitVec.toNat_add, BitVec.toNat_sub,
    BitVec.toNat_shiftLeft, BitVec.toNat_ushiftRight, Nat.shiftLeft_eq, Nat.shiftRight_eq_div_pow]
  omega

/-- The average of an idle queue only decays. -/
lemma rteRedEnqueueEmpty_avg {env : RedEnv}
    (henv : ∀ w m, (env.calcQemptyFactor w m).toNat ≤ 1024) (cfg : RedConfig) (red : Red)
    (time : BitVec 64) : (rteRedEnqueueEmpty env cfg red time).2.avg.toNat ≤ red.avg.toNat := by
  unfold rteRedEnqueueEmpty
  dsimp only
  split
  · simp
  · have hf := henv cfg.wqLog2 (((time - red.qTime) / 4194304).setWidth 16)
    have havg := red.avg.isLt
    rw [BitVec.toNat_mul, BitVec.toNat_ushiftRight, BitVec.toNat_setWidth,
      Nat.shiftRight_eq_div_pow]
    generalize (env.calcQemptyFactor cfg.wqLog2 _).toNat = f at hf ⊢
    have hmul : red.avg.toNat / 2 ^ redScaling * (f % 2 ^ 32) ≤
        red.avg.toNat / 2 ^ redScaling * 1024 :=
      Nat.mul_le_mul_left _ (le_trans (Nat.mod_le _ _) hf)
    have hdiv : red.avg.toNat / 2 ^ redScaling * 1024 ≤ red.avg.toNat :=
      Nat.div_mul_le_self red.avg.toNat 1024
    exact le_trans (Nat.mod_le _ _) (le_trans hmul hdiv)

/-- The average is updated whatever happens to the packet, and a packet passes only below one of
the thresholds. -/
lemma rteRedEnqueueNonempty_spec (cfg : RedConfig) (red : Red) (rand : RedRand) (q : BitVec 32) :
    (rteRedEnqueueNonempty cfg red rand q).2.1.avg = redAvg cfg red.avg q ∧
      ((rteRedEnqueueNonempty cfg red rand q).1 = 0 →
        redAvg cfg red.avg q < cfg.minTh ∨ redAvg cfg red.avg q < cfg.maxTh) := by
  unfold rteRedEnqueueNonempty
  dsimp only
  split
  · rename_i hmin
    exact ⟨rfl, fun _ => Or.inl hmin⟩
  · split
    · rename_i hmax
      split
      · exact ⟨rfl, fun _ => Or.inr hmax⟩
      · exact ⟨rfl, fun _ => Or.inr hmax⟩
    · exact ⟨rfl, fun h => absurd h (by norm_num)⟩

/-- **One packet at the queue.** The average stays below `4096`; and once the queue is at `2048`,
no average below the ceiling falls, and a packet that passes raises the average of its colour. -/
theorem rteRedEnqueue_spec {env : RedEnv}
    (henv : ∀ w m, (env.calcQemptyFactor w m).toNat ≤ 1024) {cfg : RedConfig}
    (hwq : cfg.wqLog2 = 9) (hmin : cfg.minTh.toNat ≤ redCeiling)
    (hmax : cfg.maxTh.toNat ≤ redCeiling) {red : Red} (havg : red.avg.toNat < 4096 * 2 ^ 19)
    {q : BitVec 32} (hq : q.toNat < 4096) (rand : RedRand) (time : BitVec 64) :
    (rteRedEnqueue env cfg red rand q time).2.1.avg.toNat < 4096 * 2 ^ 19 ∧
      (2048 ≤ q.toNat →
        min red.avg.toNat redCeiling ≤ (rteRedEnqueue env cfg red rand q time).2.1.avg.toNat ∧
        ((rteRedEnqueue env cfg red rand q time).1 = 0 →
          red.avg.toNat + 1049600 ≤ (rteRedEnqueue env cfg red rand q time).2.1.avg.toNat ∧
          (rteRedEnqueue env cfg red rand q time).2.1.avg.toNat < redCeiling)) := by
  unfold rteRedEnqueue
  by_cases hzero : q = 0
  · rw [if_neg (not_not.mpr hzero)]
    dsimp only
    have hdecay := rteRedEnqueueEmpty_avg henv cfg red time
    refine ⟨by omega, fun hbig => ?_⟩
    rw [hzero] at hbig
    exact absurd hbig (by decide)
  · rw [if_pos hzero]
    obtain ⟨hnew, hpass⟩ := rteRedEnqueueNonempty_spec cfg red rand q
    have hexact := toNat_redAvg hwq havg hq
    rw [hnew, hexact]
    have hbound := MovingAverage.next_lt (w := 512) (a := red.avg.toNat) (x := q.toNat * 1024)
      (b := 4096 * 1024) (by norm_num) (by omega) (by omega)
    refine ⟨by omega, fun hbig => ?_⟩
    refine ⟨by unfold redCeiling; exact MovingAverage.min_le_next (by norm_num) (by omega),
      fun hzero' => ?_⟩
    -- it passed, so its average is below one of the thresholds
    have hlt : MovingAverage.next 512 (q.toNat * 1024) red.avg.toNat < redCeiling := by
      rw [← hexact]
      rcases hpass hzero' with h | h
      · exact lt_of_lt_of_le (BitVec.lt_def.mp h) hmin
      · exact lt_of_lt_of_le (BitVec.lt_def.mp h) hmax
    refine ⟨?_, hlt⟩
    unfold redCeiling at hlt
    exact MovingAverage.add_le_next (by norm_num) (by omega) hlt

/-! ## The account -/

/-- The averages of a flow, each counted up to the ceiling. -/
def load (reds : QosColor → Red) : ℕ :=
  min (reds .green).avg.toNat redCeiling + min (reds .yellow).avg.toNat redCeiling +
    min (reds .red).avg.toNat redCeiling

@[simp] lemma setEntry_self {α : Type*} (f : Fin appFlowsMax → QosColor → α) (i : Fin appFlowsMax)
    (j : QosColor) (x : α) : setEntry f i j x i j = x :=
  if_pos ⟨rfl, rfl⟩

lemma setEntry_of_ne {α : Type*} (f : Fin appFlowsMax → QosColor → α) {i i' : Fin appFlowsMax}
    (h : i' ≠ i) (j : QosColor) (x : α) : setEntry f i j x i' = f i' := by
  funext j'
  exact if_neg fun heq => h heq.1

/-- Replacing one average. -/
lemma load_setEntry (f : Fin appFlowsMax → QosColor → Red) (i : Fin appFlowsMax) (j : QosColor)
    (x : Red) : load (setEntry f i j x i) + min (f i j).avg.toNat redCeiling =
      load (f i) + min x.avg.toNat redCeiling := by
  cases j with
  | green =>
    simp only [load, setEntry, and_self, if_true, reduceCtorEq, and_false, if_false]
    omega
  | yellow =>
    simp only [load, setEntry, and_self, if_true, reduceCtorEq, and_false, if_false]
    omega
  | red =>
    simp only [load, setEntry, and_self, if_true, reduceCtorEq, and_false, if_false]
    omega

namespace Dropper

/-- What holds between two calls: the configurations are those of weight `2 ^ -9`, the averages
are below `4096`, and behind a queue of more than `2048` packets stand averages that its packets
have raised. -/
structure Bounded (d : Dropper) : Prop where
  wqLog2 : ∀ i j, (d.configs i j).wqLog2 = 9
  minTh : ∀ i j, (d.configs i j).minTh.toNat ≤ redCeiling
  maxTh : ∀ i j, (d.configs i j).maxTh.toNat ≤ redCeiling
  avg : ∀ i j, (d.reds i j).avg.toNat < 4096 * 2 ^ 19
  queue : ∀ i, 1049600 * (d.queues i).toNat ≤ load (d.reds i) + 1049600 * 2048

namespace Bounded

variable {d : Dropper}

lemma queue_lt (h : Bounded d) (i : Fin appFlowsMax) : (d.queues i).toNat < 4096 := by
  have hq := h.queue i
  unfold load redCeiling at hq
  omega

/-- Only some of the variables matter. -/
lemma withRand (h : Bounded d) (rand : RedRand) : Bounded { d with rand := rand } :=
  ⟨h.wqLog2, h.minTh, h.maxTh, h.avg, h.queue⟩

lemma reset (h : Bounded d) (time : BitVec 64) : Bounded (d.reset time) := by
  unfold Dropper.reset
  split
  · exact ⟨h.wqLog2, h.minTh, h.maxTh, h.avg, fun i => by simp⟩
  · exact h

/-- **Every call keeps the account.** -/
theorem run {env : RedEnv} (henv : ∀ w m, (env.calcQemptyFactor w m).toNat ≤ 1024)
    (h : Bounded d) (flow : Fin appFlowsMax) (color : QosColor) (time : BitVec 64) :
    Bounded (qosDropperRun env flow color time d).2 := by
  unfold qosDropperRun
  dsimp only
  have hd := h.reset time
  generalize d.reset time = d at hd
  have hlt := hd.queue_lt flow
  obtain ⟨havg, hraise⟩ := rteRedEnqueue_spec henv (hd.wqLog2 flow color) (hd.minTh flow color)
    (hd.maxTh flow color) (hd.avg flow color) hlt d.rand (env.ctime flow time)
  generalize rteRedEnqueue env (d.configs flow color) (d.reds flow color) d.rand (d.queues flow)
    (env.ctime flow time) = r at havg hraise
  have hload := load_setEntry d.reds flow color r.2.1
  have hqueue := hd.queue flow
  have havgs : ∀ i j, (setEntry d.reds flow color r.2.1 i j).avg.toNat < 4096 * 2 ^ 19 := by
    intro i j
    unfold setEntry
    split
    · exact havg
    · exact hd.avg i j
  split
  · -- the packet passes
    rename_i hpass
    refine ⟨hd.wqLog2, hd.minTh, hd.maxTh, havgs, fun i => ?_⟩
    by_cases hi : i = flow
    · subst hi
      dsimp only
      rw [Function.update_self, BitVec.toNat_add, show (1 : BitVec 32).toNat = 1 from rfl,
        Nat.mod_eq_of_lt (by omega)]
      by_cases hbig : 2048 ≤ (d.queues i).toNat
      · obtain ⟨hgain, hbelow⟩ := (hraise hbig).2 hpass
        omega
      · omega
    · dsimp only
      rw [Function.update_of_ne hi, setEntry_of_ne _ hi]
      exact hd.queue i
  · refine ⟨hd.wqLog2, hd.minTh, hd.maxTh, havgs, fun i => ?_⟩
    by_cases hi : i = flow
    · subst hi
      dsimp only
      by_cases hbig : 2048 ≤ (d.queues i).toNat
      · have hkept := (hraise hbig).1
        omega
      · omega
    · dsimp only
      rw [setEntry_of_ne _ hi]
      exact hd.queue i

end Bounded

/-! ## The initialisation -/

/-- The entry of a flow and a colour has been initialised. -/
def Ready (params : Fin appFlowsMax → QosColor → RedParams) (d : Dropper) (i : Fin appFlowsMax)
    (j : QosColor) : Prop :=
  rteRedConfigInit (params i j) = .ok (d.configs i j) ∧ d.reds i j = rteRedRtDataInit

variable {params : Fin appFlowsMax → QosColor → RedParams} {rteRand : BitVec 32} {d d' : Dropper}

lemma configure_ready {i : Fin appFlowsMax} {j : QosColor}
    (h : d.configure params rteRand i j = .ok d') : Ready params d' i j ∧
      (∀ i' j', Ready params d i' j' → Ready params d' i' j') ∧ d'.queues = d.queues := by
  unfold configure at h
  cases hcfg : rteRedConfigInit (params i j) with
  | error e => rw [hcfg] at h; cases h
  | ok cfg =>
    rw [hcfg] at h
    obtain rfl := Except.ok.inj h
    refine ⟨by simp [Ready, setEntry, hcfg], fun i' j' hold => ?_, rfl⟩
    by_cases heq : i' = i ∧ j' = j
    · obtain ⟨rfl, rfl⟩ := heq
      simp [Ready, setEntry, hcfg]
    · simpa [Ready, setEntry, heq] using hold

/-- A flow that has been initialised. -/
def ReadyFlow (params : Fin appFlowsMax → QosColor → RedParams) (d : Dropper)
    (i : Fin appFlowsMax) : Prop :=
  (∀ j, Ready params d i j) ∧ d.queues i = 0

lemma initFlow_ready {i : Fin appFlowsMax} (h : d.initFlow params rteRand i = .ok d') :
    ReadyFlow params d' i ∧ ∀ i', ReadyFlow params d i' → ReadyFlow params d' i' := by
  unfold initFlow at h
  cases hloop : QosColor.all.foldlM (fun d j => d.configure params rteRand i j) d with
  | error e => rw [hloop] at h; cases h
  | ok d₁ =>
    rw [hloop] at h
    obtain rfl := Except.ok.inj h
    have hall := foldlM_all (P := fun d j => Ready params d i j)
      (fun hc => (configure_ready hc).1) (fun j hc => (configure_ready hc).2.1 i j) _ hloop
    have hready : ∀ j, Ready params d₁ i j := fun j => hall j (by cases j <;> decide)
    obtain ⟨hold, hqueues⟩ := foldlM_inv
      (I := fun e => (∀ i' j', Ready params d i' j' → Ready params e i' j') ∧ e.queues = d.queues)
      (fun hc hI => ⟨fun i' j' hr => (configure_ready hc).2.1 i' j' (hI.1 i' j' hr),
        (configure_ready hc).2.2.trans hI.2⟩) _ hloop ⟨fun _ _ hr => hr, rfl⟩
    refine ⟨⟨hready, Function.update_self ..⟩, fun i' hr => ⟨fun j => hold i' j (hr.1 j), ?_⟩⟩
    by_cases hi : i' = i
    · subst hi
      exact Function.update_self ..
    · show Function.update d₁.queues i 0 i' = 0
      rw [Function.update_of_ne hi, hqueues]
      exact hr.2

/-- **A successful initialisation** has initialised every entry. -/
theorem qosDropperInit_ready (h : qosDropperInit params rteRand d = .ok d') :
    ∀ i, ReadyFlow params d' i := by
  unfold qosDropperInit at h
  cases hloop : (List.finRange appFlowsMax).foldlM (fun d i => d.initFlow params rteRand i) d with
  | error e => rw [hloop] at h; cases h
  | ok d₁ =>
    rw [hloop] at h
    obtain rfl := Except.ok.inj h
    intro i
    exact foldlM_all (P := ReadyFlow params) (fun hc => (initFlow_ready hc).1)
      (fun i' hc => (initFlow_ready hc).2 i') _ hloop i (List.mem_finRange i)

lemma Bounded.init (h : Init d) : Bounded d := by
  obtain ⟨rteRand, before, hinit⟩ := h
  have hready := qosDropperInit_ready hinit
  have hwq : ∀ i j, (appRedParams i j).wqLog2 = 9 := by
    intro i j
    cases j with
    | green => revert i; decide
    | yellow => revert i; decide
    | red => revert i; decide
  have hcfg : ∀ i j, _ := fun i j => rteRedConfigInit_ok ((hready i).1 j).1 (hwq i j)
  refine ⟨fun i j => (hcfg i j).1, fun i j => (hcfg i j).2.1, fun i j => (hcfg i j).2.2,
    fun i j => ?_, fun i => ?_⟩
  · rw [((hready i).1 j).2]
    decide
  · rw [(hready i).2]
    simp

/-! ## Runs -/

/-- Any calls, at any times and in any order. -/
def Anything (_ : Dropper) (_ : DropperCall) (_ : Dropper) : Prop := True

theorem bounded_of_run {env : RedEnv} (henv : ∀ w m, (env.calcQemptyFactor w m).toNat ≤ 1024)
    (h : Run (step env) Anything Init d) : Bounded d := by
  refine Run.invariant (I := Bounded) (fun _ hd => Bounded.init hd) ?_ h
  intro d c d' _ hd hstep _
  obtain rfl := Option.some.inj hstep
  exact (hd.withRand c.rand).run henv c.flow c.color c.time

/-- **The dropper's queues and averages stay bounded.** After a successful initialisation with the
table of `qos.c` and any calls, whatever the flows, colours, times and random numbers: every
queue is below `4096`, every average is below `4096` in fixed point, and whenever a call updates
an average, the 32-bit result is the exact one. -/
theorem dropper_bounded {env : RedEnv} (henv : ∀ w m, (env.calcQemptyFactor w m).toNat ≤ 1024)
    (h : Run (step env) Anything Init d) :
    (∀ i, (d.queues i).toNat < 4096) ∧
    (∀ i j, (d.reds i j).avg.toNat < 4096 * 2 ^ 19) ∧
    ∀ c d', d.step env c = some d' → c.time = d.lastTime → d.queues c.flow ≠ 0 →
      ((d'.reds c.flow c.color).avg.toNat : ℤ) = (d.reds c.flow c.color).avg.toNat +
        ((d.queues c.flow).toNat * 2 ^ 10 -
          (d.reds c.flow c.color).avg.toNat / 2 ^ (d.configs c.flow c.color).wqLog2.toNat) := by
  have hd := bounded_of_run henv h
  refine ⟨hd.queue_lt, hd.avg, fun c d' hstep htime hq => ?_⟩
  obtain rfl := Option.some.inj hstep
  have havg : ((qosDropperRun env c.flow c.color c.time { d with rand := c.rand }).2.reds c.flow
      c.color).avg = redAvg (d.configs c.flow c.color) (d.reds c.flow c.color).avg
        (d.queues c.flow) := by
    unfold qosDropperRun Dropper.reset rteRedEnqueue
    rw [if_neg (not_not.mpr htime)]
    dsimp only
    rw [if_pos hq]
    split
    · dsimp only
      rw [setEntry_self]
      exact (rteRedEnqueueNonempty_spec _ _ _ _).1
    · dsimp only
      rw [setEntry_self]
      exact (rteRedEnqueueNonempty_spec _ _ _ _).1
  rw [havg, toNat_redAvg (hd.wqLog2 _ _) (hd.avg _ _) (hd.queue_lt _), hd.wqLog2,
    show (9 : BitVec 8).toNat = 9 from rfl]
  unfold MovingAverage.next
  omega

/-- Static variables before the initialisation. -/
def blank : Dropper where
  configs _ _ := ⟨0, 0, 0, 0, 0⟩
  reds _ _ := ⟨0, 0, 0⟩
  queues _ := 0
  lastTime := 0
  rand := ⟨0, 0⟩
  initDone := false

/-- A clock that has been running for so long that the average of an idle queue is not scaled but
reset. -/
def lateEnv : RedEnv := ⟨fun _ _ => 1024, fun _ time => 0x4000000000 + time⟩

/-- Two green packets of flow 0 at the start of the test pass. -/
theorem two_packets_bounded : ∃ d, Run (step lateEnv) Anything Init d ∧ d.queues 0 = 2 ∧
    (d.queues 0).toNat < 4096 := by
  have heval : ((qosDropperInit appRedParams 7 blank).toOption.bind fun d =>
      (step lateEnv d ⟨0, .green, 0, ⟨1, 2⟩⟩).bind fun d =>
        (step lateEnv d ⟨0, .green, 0, ⟨3, 4⟩⟩).map fun d => d.queues 0) = some 2 := by
    decide +kernel
  obtain ⟨d₀, hd₀, hrest⟩ := Option.bind_eq_some_iff.mp heval
  obtain ⟨d₁, hd₁, hlast⟩ := Option.bind_eq_some_iff.mp hrest
  obtain ⟨d, hd, hq⟩ := Option.map_eq_some_iff.mp hlast
  have hinit : qosDropperInit appRedParams 7 blank = .ok d₀ := by
    cases hcase : qosDropperInit appRedParams 7 blank with
    | error e => rw [hcase] at hd₀; cases hd₀
    | ok d' => rw [hcase] at hd₀; rw [Option.some.inj hd₀]
  have hrun : Run (step lateEnv) Anything Init d :=
    ((Run.start ⟨7, blank, hinit⟩).next hd₁ trivial).next hd trivial
  have hfactor : ∀ w m, (lateEnv.calcQemptyFactor w m).toNat ≤ 1024 := fun _ _ => le_refl 1024
  exact ⟨d, hrun, hq, (dropper_bounded hfactor hrun).1 0⟩

end Dropper
end NetLabs.Qos
