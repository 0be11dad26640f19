import Mathlib.Data.List.GetD
import Mathlib.Order.Monotone.Basic
import NetLabs.Qos.RedAccuracy

/-!
# The average of an idle queue

`rte_red_enqueue_empty` lets the average decay by `(1 - Wq) ^ m` for the `m` packets that might have
arrived while the queue was empty. `__rte_red_calc_qempty_factor` computes this power from two
tables: the exponent from that of the logarithms, its fraction from that of the powers of two.

The tables are filled by `__rte_red_init_tables` with `round`, `pow` and `log2`. Their entries are
given here, with a proof that each is the rounded value (`log2Rounded_spec`, `pow2FracInv_spec`).
The code shifts by `n - 1` also where `n` is zero. What `1 << (n - 1)` is then, C does not say; it
is an argument (`wild`), of which nothing but the low 16 bits is kept.
-/

namespace NetLabs.Qos

/-! ## The tables -/

/-- `round(-1024 * log2(1 - Wq))` for the weights `2 ^ -1` to `2 ^ -12`. -/
def log2Rounded : List ℕ := [1024, 425, 197, 95, 47, 23, 12, 6, 3, 1, 1, 0]

/-- An entry of `rte_red_log2_1_minus_Wq`, where a zero is rounded up to one. -/
def rteRedLog2OneMinusWq (i : ℕ) : BitVec 16 := BitVec.ofNat 16 (max 1 (log2Rounded.getD i 0))

/-- An entry of `rte_red_pow2_frac_inv`, `round(1024 / pow(2, i / 16))`. -/
def rteRedPow2FracInv (i : ℕ) : BitVec 16 :=
  [1024, 981, 939, 899, 861, 825, 790, 756, 724, 693, 664, 636, 609, 583, 558, 535].getD i 0

/-- Entry `r` for the weight `2 ^ -n` is the logarithm up to a half: `r - 1/2 ≤ x < r + 1/2` where
`2 ^ -(x / 1024) = 1 - 2 ^ -n`. -/
lemma log2Rounded_spec : ∀ i < 12,
    (2 ^ (i + 1) - 1) ^ 2048 * 2 ^ (2 * log2Rounded.getD i 0) ≤ 2 ^ (2048 * (i + 1) + 1) ∧
    2 ^ (2048 * (i + 1)) < (2 ^ (i + 1) - 1) ^ 2048 * 2 ^ (2 * log2Rounded.getD i 0 + 1) := by
  decide +kernel

/-- Entry `r` is the power up to a half: `r - 1/2 ≤ 1024 / 2 ^ (i / 16) < r + 1/2`. -/
lemma pow2FracInv_spec : ∀ i < 16,
    (2 * (rteRedPow2FracInv i).toNat - 1) ^ 16 * 2 ^ i ≤ 2048 ^ 16 ∧
    2048 ^ 16 < (2 * (rteRedPow2FracInv i).toNat + 1) ^ 16 * 2 ^ i := by
  decide +kernel

/-! ## The factor -/

/-- `__rte_red_calc_qempty_factor` -/
def rteRedCalcQemptyFactor (wild : BitVec 32) (wqLog2 : BitVec 8) (m : BitVec 16) : BitVec 16 :=
  let n := m.setWidth 32 * (rteRedLog2OneMinusWq (wqLog2.toNat - 1)).setWidth 32
  let f := (n >>> 6) &&& 0xf
  let n := n >>> 10
  -- `RTE_RED_SCALING` is 10
  if n < 10 then
    let half : BitVec 32 := if n = 0 then wild else 1#32 <<< (n - 1)
    (((rteRedPow2FracInv f.toNat).setWidth 32 + half) >>> n).setWidth 16
  else 0

/-- The factor for an exponent of `u / 16`, in units of `1 / 1024`: a power of the table, shifted
with rounding. -/
def decay (u : ℕ) : ℕ :=
  if u < 160 then
    ((rteRedPow2FracInv (u % 16)).toNat + if u < 16 then 0 else 2 ^ (u / 16 - 1)) / 2 ^ (u / 16)
  else 0

/-- A greater exponent gives no greater factor, also where the fraction starts again. -/
lemma decay_antitone : Antitone decay := by
  refine antitone_nat_of_succ_le fun u => ?_
  have htable : ∀ u < 160, decay (u + 1) ≤ decay u := by decide +kernel
  rcases Nat.lt_or_ge u 160 with hlt | hge
  · exact htable u hlt
  · rw [decay, if_neg (by omega)]
    exact Nat.zero_le _

lemma decay_le (u : ℕ) : decay u ≤ 1024 := decay_antitone (Nat.zero_le u)

lemma log2OneMinusWq_pos : ∀ i < 12, 1 ≤ (rteRedLog2OneMinusWq i).toNat := by decide

lemma log2OneMinusWq_le (i : ℕ) : (rteRedLog2OneMinusWq i).toNat ≤ 1024 := by
  have htable : ∀ i < 12, (rteRedLog2OneMinusWq i).toNat ≤ 1024 := by decide
  rcases Nat.lt_or_ge i 12 with hlt | hge
  · exact htable i hlt
  · rw [rteRedLog2OneMinusWq, log2Rounded, List.getD_eq_default _ _ hge]
    decide

lemma pow2FracInv_le : ∀ i < 16, (rteRedPow2FracInv i).toNat ≤ 1024 := by decide

/-- A power of the table, shifted by `q ≠ 0` with rounding: no sum wraps around. -/
lemma toNat_roundedShift {x : BitVec 16} (hx : x.toNat ≤ 1024) {q : BitVec 32} (hq0 : q ≠ 0)
    (hq : q.toNat < 10) : (((x.setWidth 32 + 1#32 <<< (q - 1)) >>> q).setWidth 16).toNat =
      (x.toNat + 2 ^ (q.toNat - 1)) / 2 ^ q.toNat := by
  have hpos : 0 < q.toNat := Nat.pos_of_ne_zero fun h => hq0 (BitVec.toNat_inj.mp h)
  have hpred : (q - 1).toNat = q.toNat - 1 := by
    rw [BitVec.toNat_sub, show (1 : BitVec 32).toNat = 1 from rfl]
    omega
  have hhalf : 2 ^ (q.toNat - 1) ≤ 2 ^ 9 := Nat.pow_le_pow_right (by omega) (by omega)
  have hshift : (1#32 <<< (q - 1)).toNat = 2 ^ (q.toNat - 1) := by
    rw [BitVec.shiftLeft_eq', BitVec.toNat_shiftLeft, hpred, BitVec.toNat_ofNat,
      Nat.shiftLeft_eq, Nat.mod_eq_of_lt (by norm_num : 1 < 2 ^ 32), one_mul,
      Nat.mod_eq_of_lt (by omega)]
  have hsum : x.toNat + 2 ^ (q.toNat - 1) < 2 ^ 16 := by omega
  have hquot : (x.toNat + 2 ^ (q.toNat - 1)) / 2 ^ q.toNat < 2 ^ 16 :=
    lt_of_le_of_lt (Nat.div_le_self _ _) hsum
  rw [BitVec.toNat_setWidth, BitVec.ushiftRight_eq', BitVec.toNat_ushiftRight,
    Nat.shiftRight_eq_div_pow, BitVec.toNat_add, hshift, BitVec.toNat_setWidth,
    Nat.mod_eq_of_lt (by omega : x.toNat < 2 ^ 32),
    Nat.mod_eq_of_lt (hsum.trans (by norm_num)), Nat.mod_eq_of_lt hquot]

/-- The product of `m` and the logarithm needs no more than 32 bits. -/
lemma toNat_mul_log2OneMinusWq (m : BitVec 16) (i : ℕ) :
    (m.setWidth 32 * (rteRedLog2OneMinusWq i).setWidth 32).toNat =
      m.toNat * (rteRedLog2OneMinusWq i).toNat := by
  have hlog := log2OneMinusWq_le i
  have hm := m.isLt
  have hmul : m.toNat * (rteRedLog2OneMinusWq i).toNat ≤ 65535 * 1024 :=
    Nat.mul_le_mul (by omega) hlog
  rw [BitVec.toNat_mul, BitVec.toNat_setWidth, BitVec.toNat_setWidth,
    Nat.mod_eq_of_lt (by omega : m.toNat < 2 ^ 32),
    Nat.mod_eq_of_lt (by omega : (rteRedLog2OneMinusWq i).toNat < 2 ^ 32),
    Nat.mod_eq_of_lt (by omega)]

/-- **What the factor computes**: the decay for the product of `m` and the logarithm. -/
theorem toNat_calcQemptyFactor {wild : BitVec 32} (hwild : wild.toNat % 65536 = 0)
    (wqLog2 : BitVec 8) (m : BitVec 16) : (rteRedCalcQemptyFactor wild wqLog2 m).toNat =
      decay (m.toNat * (rteRedLog2OneMinusWq (wqLog2.toNat - 1)).toNat / 64) := by
  unfold rteRedCalcQemptyFactor
  rw [← toNat_mul_log2OneMinusWq]
  generalize m.setWidth 32 * (rteRedLog2OneMinusWq (wqLog2.toNat - 1)).setWidth 32 = n
  have hf : ((n >>> 6) &&& 0xf).toNat = n.toNat / 64 % 16 := by
    rw [BitVec.toNat_and, BitVec.toNat_ushiftRight, Nat.shiftRight_eq_div_pow,
      show BitVec.toNat (0xf : BitVec 32) = 2 ^ 4 - 1 from rfl, Nat.and_two_pow_sub_one_eq_mod]
  have hq : (n >>> 10).toNat = n.toNat / 64 / 16 := by
    rw [BitVec.toNat_ushiftRight, Nat.shiftRight_eq_div_pow, Nat.div_div_eq_div_mul]
  simp only [hf]
  generalize n >>> 10 = q at hq ⊢
  generalize n.toNat / 64 = u at hq ⊢
  have hpow := pow2FracInv_le (u % 16) (Nat.mod_lt _ (by norm_num))
  have hlt : q < 10 ↔ u < 160 := by
    rw [BitVec.lt_def, hq, show (10 : BitVec 32).toNat = 10 from rfl]
    omega
  unfold decay
  by_cases hsmall : u < 160
  · rw [if_pos (hlt.mpr hsmall), if_pos hsmall]
    by_cases hzero : u < 16
    · -- the exponent is a fraction: the power is taken as it is
      have hq0 : q = 0 := by
        rw [← BitVec.toNat_inj, hq]
        exact Nat.div_eq_of_lt hzero
      have hshift : ∀ x : BitVec 32, x >>> (0 : BitVec 32) = x :=
        fun x => BitVec.ushiftRight_zero x
      rw [if_pos hq0, if_pos hzero, hq0, Nat.div_eq_of_lt hzero, hshift, BitVec.toNat_setWidth,
        BitVec.toNat_add, BitVec.toNat_setWidth]
      omega
    · have hq0 : q ≠ 0 := by
        intro hq0
        rw [hq0, show (0 : BitVec 32).toNat = 0 from rfl] at hq
        omega
      rw [if_neg hq0, if_neg hzero, toNat_roundedShift hpow hq0 (by omega), hq]
  · rw [if_neg (mt hlt.mp hsmall), if_neg hsmall]
    rfl

/-- The bound that the results on the dropper ask of the factor holds of the code's. -/
theorem calcQemptyFactor_le {wild : BitVec 32} (hwild : wild.toNat % 65536 = 0)
    (wqLog2 : BitVec 8) (m : BitVec 16) : (rteRedCalcQemptyFactor wild wqLog2 m).toNat ≤ 1024 := by
  rw [toNat_calcQemptyFactor hwild]
  exact decay_le _

/-! ## The average -/

/-- The product that the exponent of the factor comes from, for a packet that arrives at `time`. -/
def idleExponent (cfg : RedConfig) (red : Red) (time : BitVec 64) : ℕ :=
  (time - red.qTime).toNat / 2 ^ 22 * (rteRedLog2OneMinusWq (cfg.wqLog2.toNat - 1)).toNat / 64

/-- The average after an idle time, in numbers: the case of `RTE_RED_2POW16` packets and more needs
no distinction. -/
lemma toNat_avg_enqueueEmpty {env : RedEnv} {wild : BitVec 32} (hwild : wild.toNat % 65536 = 0)
    (henv : env.calcQemptyFactor = rteRedCalcQemptyFactor wild) {cfg : RedConfig}
    (hwq : cfg.wqLog2.toNat - 1 < 12) (red : Red) (time : BitVec 64) :
    (rteRedEnqueueEmpty env cfg red time).2.avg.toNat =
      red.avg.toNat / 1024 * decay (idleExponent cfg red time) := by
  have hlow := log2OneMinusWq_pos _ hwq
  obtain ⟨m, hm⟩ : ∃ m : BitVec 64, m = (time - red.qTime) / 4194304 := ⟨_, rfl⟩
  have hdiv : m.toNat = (time - red.qTime).toNat / 2 ^ 22 := by
    rw [hm, BitVec.toNat_udiv]
    rfl
  have hbig : 65536 ≤ m ↔ 65536 ≤ m.toNat := by
    rw [BitVec.le_def]
    rfl
  unfold rteRedEnqueueEmpty idleExponent
  dsimp only
  rw [← hm, ← hdiv]
  by_cases hge : 65536 ≤ m.toNat
  · have hmul : 65536 * 1 ≤ m.toNat * (rteRedLog2OneMinusWq (cfg.wqLog2.toNat - 1)).toNat :=
      Nat.mul_le_mul hge hlow
    rw [if_pos (hbig.mpr hge), decay, if_neg (by omega), Nat.mul_zero]
    rfl
  · have hfactor := toNat_calcQemptyFactor hwild cfg.wqLog2 (m.setWidth 16)
    rw [BitVec.toNat_setWidth, Nat.mod_eq_of_lt (by omega)] at hfactor
    have hle := decay_le (m.toNat * (rteRedLog2OneMinusWq (cfg.wqLog2.toNat - 1)).toNat / 64)
    have havg := red.avg.isLt
    rw [if_neg (mt hbig.mp hge), henv, BitVec.toNat_mul, BitVec.toNat_ushiftRight,
      Nat.shiftRight_eq_div_pow, show (2 : ℕ) ^ redScaling = 1024 from rfl,
      BitVec.toNat_setWidth, hfactor, Nat.mod_eq_of_lt (by omega : decay _ < 2 ^ 32)]
    have hmul := Nat.mul_le_mul_left (red.avg.toNat / 1024) hle
    exact Nat.mod_eq_of_lt (by omega)

/-- **The average decays while the queue is empty.** With the tables of the code, for every
configuration that `rte_red_config_init` accepts and every state: the longer the queue has been
empty when a packet comes, the lower the average is then; it is never above what it was; and after
the time of 10240 packets it is zero. -/
theorem idle_average_decays {env : RedEnv} {wild : BitVec 32} {p : RedParams} {cfg : RedConfig}
    (hwild : wild.toNat % 65536 = 0) (henv : env.calcQemptyFactor = rteRedCalcQemptyFactor wild)
    (hcfg : rteRedConfigInit p = .ok cfg) (red : Red) :
    (∀ t₁ t₂ : BitVec 64, t₁ - red.qTime ≤ t₂ - red.qTime →
      (rteRedEnqueueEmpty env cfg red t₂).2.avg ≤ (rteRedEnqueueEmpty env cfg red t₁).2.avg) ∧
    (∀ t, (rteRedEnqueueEmpty env cfg red t).2.avg ≤ red.avg) ∧
    (∀ t : BitVec 64, 10240 * 2 ^ 22 ≤ (t - red.qTime).toNat →
      (rteRedEnqueueEmpty env cfg red t).2.avg = 0) := by
  have hc := configured_of_ok hcfg
  have hwq : cfg.wqLog2.toNat - 1 < 12 := by
    have hle := hc.wqLog2_le
    rw [hc.wqLog2]
    omega
  refine ⟨fun t₁ t₂ h => ?_, fun t => ?_, fun t h => ?_⟩
  · rw [BitVec.le_def, toNat_avg_enqueueEmpty hwild henv hwq, toNat_avg_enqueueEmpty hwild henv hwq]
    apply Nat.mul_le_mul_left
    apply decay_antitone
    exact Nat.div_le_div_right (Nat.mul_le_mul_right _ (Nat.div_le_div_right (BitVec.le_def.mp h)))
  · rw [BitVec.le_def, toNat_avg_enqueueEmpty hwild henv hwq]
    calc red.avg.toNat / 1024 * decay (idleExponent cfg red t)
        ≤ red.avg.toNat / 1024 * 1024 := Nat.mul_le_mul_left _ (decay_le _)
      _ ≤ red.avg.toNat := Nat.div_mul_le_self _ _
  · have hlow := log2OneMinusWq_pos _ hwq
    have hpackets : 10240 ≤ (t - red.qTime).toNat / 2 ^ 22 :=
      (Nat.le_div_iff_mul_le (by norm_num)).mpr h
    have hmul := Nat.mul_le_mul hpackets hlow
    have hexponent : 160 ≤ idleExponent cfg red t := by
      unfold idleExponent
      omega
    rw [← BitVec.toNat_inj, toNat_avg_enqueueEmpty hwild henv hwq, decay, if_neg (by omega),
      Nat.mul_zero]
    rfl

/-- An average of 20 packets is gone after an idle time of 10240 packets. -/
theorem twenty_packets_decay : ∃ cfg, rteRedConfigInit ⟨16, 32, 5, 9⟩ = .ok cfg ∧
    (rteRedEnqueueEmpty ⟨rteRedCalcQemptyFactor 0x80000000, fun _ time => time⟩ cfg
      ⟨10485760, 0, 0⟩ 42949672960).2.avg = 0 := by
  refine ⟨_, rfl, ?_⟩
  exact (idle_average_decays (p := ⟨16, 32, 5, 9⟩) (by decide) rfl rfl _).2.2 _ (by decide)

end NetLabs.Qos
