import NetLabs.Lib.Ewma
import NetLabs.Qos.DropperTheorems

/-!
# RED in fixed point

The comment in `rte_red_enqueue_nonempty` gives the average of Floyd and Van Jacobson and the scaled
32-bit version that the code computes. For every configuration that `rte_red_config_init` accepts,
and as long as the queue is not empty, no bit of the scaled average is lost, it stays within
`1 / 1024` of a packet of the exact one however many packets arrive, and the decisions are those of
the exact average except where that is within `1 / 1024` of a threshold.
-/

namespace NetLabs.Qos

open NetLabs.Lib NetLabs.Lib.MovingAverage

/-- A call of `rte_red_enqueue`: the size of the queue, the time, and the values the random number
generator happens to hold. -/
structure RedCall where
  q : BitVec 32
  time : BitVec 64
  rand : RedRand

/-- The decision that RED takes with the average `avg`, if that is not too close to a threshold. -/
structure Decides (p : RedParams) (avg : ℚ) (decision : ℤ) : Prop where
  pass : avg + 1 / 1024 ≤ p.minTh.toNat → decision = 0
  mark : p.minTh.toNat ≤ avg → avg + 1 / 1024 ≤ p.maxTh.toNat → decision = 0 ∨ decision = 2
  drop : p.maxTh.toNat ≤ avg → decision = 1

variable {p : RedParams} {cfg : RedConfig}

/-- A configuration holds the scaled thresholds of its parameters. -/
structure Configured (p : RedParams) (cfg : RedConfig) : Prop where
  wqLog2 : cfg.wqLog2.toNat = p.wqLog2.toNat
  wqLog2_le : p.wqLog2.toNat ≤ 12
  lt : p.minTh.toNat < p.maxTh.toNat
  minTh : cfg.minTh.toNat = p.minTh.toNat * (2 ^ p.wqLog2.toNat * 1024)
  maxTh : cfg.maxTh.toNat = p.maxTh.toNat * (2 ^ p.wqLog2.toNat * 1024)

/-- Neither shift loses a bit. -/
lemma toNat_scale {x : BitVec 16} (hx : x.toNat ≤ 1023) {n : ℕ} (hn : n ≤ 12) :
    (x.setWidth 32 <<< (n + redScaling)).toNat = x.toNat * (2 ^ n * 1024) := by
  have hpow : 2 ^ n ≤ 2 ^ 12 := Nat.pow_le_pow_right (by norm_num) hn
  have hmul : x.toNat * (2 ^ n * 1024) ≤ 1023 * (2 ^ 12 * 1024) :=
    Nat.mul_le_mul hx (Nat.mul_le_mul_right _ hpow)
  rw [BitVec.toNat_shiftLeft, BitVec.toNat_setWidth, Nat.shiftLeft_eq, pow_add,
    Nat.mod_eq_of_lt (by omega : x.toNat < 2 ^ 32), show (2 : ℕ) ^ redScaling = 1024 from rfl,
    Nat.mod_eq_of_lt (by omega)]

lemma configured_of_ok (h : rteRedConfigInit p = .ok cfg) : Configured p cfg := by
  unfold rteRedConfigInit at h
  split_ifs at h with h₁ h₂ h₃ h₄ h₅ h₆
  obtain rfl := Except.ok.inj h
  have hmax : p.maxTh.toNat ≤ 1023 := BitVec.le_def.mp (BitVec.not_lt.mp h₁)
  have hlt : p.minTh.toNat < p.maxTh.toNat := BitVec.lt_def.mp (BitVec.not_le.mp h₂)
  have hmin : p.minTh.toNat ≤ 1023 := by omega
  have hwq : p.wqLog2.toNat ≤ 12 := BitVec.le_def.mp (BitVec.not_lt.mp h₃)
  refine ⟨?_, hwq, hlt, toNat_scale hmin hwq, toNat_scale hmax hwq⟩
  show (p.wqLog2.setWidth 8).toNat = _
  rw [BitVec.toNat_setWidth, Nat.mod_eq_of_lt (by omega)]

/-- **The update of an average is exact** for a queue of less than `2 ^ (22 - n)` packets, where
`2 ^ -n` is the weight. -/
lemma Configured.toNat_redAvg (h : Configured p cfg) (avg : BitVec 32) {q : BitVec 32}
    (hq : q.toNat * 2 ^ p.wqLog2.toNat < 2 ^ 22) :
    (redAvg cfg avg q).toNat = next (2 ^ p.wqLog2.toNat) (q.toNat * 1024) avg.toNat := by
  have hwq := h.wqLog2_le
  obtain ⟨w, hw⟩ : ∃ w, 2 ^ p.wqLog2.toNat = w := ⟨_, rfl⟩
  have hw_pos : 0 < w := hw ▸ Nat.two_pow_pos _
  obtain ⟨b, hb⟩ : ∃ b, b * w = 2 ^ 22 := by
    refine ⟨2 ^ (22 - p.wqLog2.toNat), ?_⟩
    rw [← hw, ← pow_add, Nat.sub_add_cancel (by omega)]
  have hq_lt : q.toNat < b := by
    rw [hw, ← hb] at hq
    exact Nat.lt_of_mul_lt_mul_right hq
  have hbw : b ≤ b * w := Nat.le_mul_of_pos_right b hw_pos
  have hlt : next w (q.toNat * 1024) avg.toNat < b * 1024 * w :=
    next_lt hw_pos (by
      have havg := avg.isLt
      rw [Nat.mul_right_comm]
      omega) (by omega)
  have hdiv : avg.toNat / w ≤ avg.toNat := Nat.div_le_self _ _
  rw [hw]
  unfold redAvg
  unfold next at hlt ⊢
  rw [Nat.mul_right_comm] at hlt
  rw [h.wqLog2, BitVec.toNat_add, BitVec.toNat_sub, BitVec.toNat_shiftLeft,
    BitVec.toNat_ushiftRight, Nat.shiftLeft_eq, Nat.shiftRight_eq_div_pow, hw,
    show (2 : ℕ) ^ redScaling = 1024 from rfl]
  generalize avg.toNat / w = d at *
  have havg := avg.isLt
  omega

/-- The decision for a packet that finds the queue not empty. -/
lemma rteRedEnqueueNonempty_decision (cfg : RedConfig) (red : Red) (rand : RedRand)
    (q : BitVec 32) :
    (redAvg cfg red.avg q < cfg.minTh → (rteRedEnqueueNonempty cfg red rand q).1 = 0) ∧
    (¬redAvg cfg red.avg q < cfg.minTh → redAvg cfg red.avg q < cfg.maxTh →
      (rteRedEnqueueNonempty cfg red rand q).1 = 0 ∨
        (rteRedEnqueueNonempty cfg red rand q).1 = 2) ∧
    (¬redAvg cfg red.avg q < cfg.minTh → ¬redAvg cfg red.avg q < cfg.maxTh →
      (rteRedEnqueueNonempty cfg red rand q).1 = 1) := by
  unfold rteRedEnqueueNonempty
  dsimp only
  refine ⟨fun hmin => ?_, fun hmin hmax => ?_, fun hmin hmax => ?_⟩
  · rw [if_pos hmin]
  · rw [if_neg hmin, if_pos hmax]
    split
    · exact Or.inr rfl
    · exact Or.inl rfl
  · rw [if_neg hmin, if_neg hmax]

/-- **One packet**: the averages stay together, and the decision is that of the exact one. -/
lemma Configured.enqueue (h : Configured p cfg) (env : RedEnv) {red : Red} {avg : ℚ} {c : RedCall}
    (hnear : Near (2 ^ p.wqLog2.toNat) 1024 avg red.avg.toNat) (hzero : c.q ≠ 0)
    (hq : c.q.toNat * 2 ^ p.wqLog2.toNat < 2 ^ 22) :
    Decides p (ewma (1 / (2 ^ p.wqLog2.toNat : ℕ)) avg c.q.toNat)
      (rteRedEnqueue env cfg red c.rand c.q c.time).1 ∧
    Near (2 ^ p.wqLog2.toNat) 1024 (ewma (1 / (2 ^ p.wqLog2.toNat : ℕ)) avg c.q.toNat)
      (rteRedEnqueue env cfg red c.rand c.q c.time).2.1.avg.toNat := by
  have hw : 0 < 2 ^ p.wqLog2.toNat := Nat.two_pow_pos _
  have hnext := hnear.next hw c.q.toNat
  rw [← h.toNat_redAvg red.avg hq] at hnext
  obtain ⟨hpass, hmark, hdrop⟩ := rteRedEnqueueNonempty_decision cfg red c.rand c.q
  have hmin : redAvg cfg red.avg c.q < cfg.minTh ↔
      (redAvg cfg red.avg c.q).toNat < p.minTh.toNat * (2 ^ p.wqLog2.toNat * 1024) := by
    rw [BitVec.lt_def, h.minTh]
  have hmax : redAvg cfg red.avg c.q < cfg.maxTh ↔
      (redAvg cfg red.avg c.q).toNat < p.maxTh.toNat * (2 ^ p.wqLog2.toNat * 1024) := by
    rw [BitVec.lt_def, h.maxTh]
  unfold rteRedEnqueue
  rw [if_pos hzero, (rteRedEnqueueNonempty_spec cfg red c.rand c.q).1]
  refine ⟨⟨fun hlow => ?_, fun hlow hhigh => ?_, fun hhigh => ?_⟩, hnext⟩
  · exact hpass (hmin.mpr (hnext.lt_of_add_le hw (by norm_num) hlow))
  · refine hmark (mt hmin.mp (Nat.not_lt.mpr (hnext.le_of_le hlow))) (hmax.mpr ?_)
    exact hnext.lt_of_add_le hw (by norm_num) hhigh
  · have hlt : (p.minTh.toNat : ℚ) < p.maxTh.toNat := by exact_mod_cast h.lt
    apply hdrop
    · exact mt hmin.mp (Nat.not_lt.mpr (hnext.le_of_le (hlt.le.trans hhigh)))
    · exact mt hmax.mp (Nat.not_lt.mpr (hnext.le_of_le hhigh))

end NetLabs.Qos
