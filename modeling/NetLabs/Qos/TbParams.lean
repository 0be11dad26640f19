import NetLabs.Lib.ArrivalCurve
import NetLabs.Qos.Tcm

/-!
# The period of a token bucket

`rte_meter_get_tb_params` computes with `double` a period and the bytes that it adds. For every
frequency and rate that a machine can have no rounding shows in the result: both are what exact
arithmetic gives, a period has at least 100 cycles, and as it is a whole number of them the tokens
come at the rate or up to one per cent faster.
-/

namespace NetLabs.Qos

open NetLabs.Lib NetLabs.Lib.TokenBucket

/-- Frequencies below 4.5 PHz, rates below 17 TB/s. -/
structure Moderate (hz rate : BitVec 64) : Prop where
  hz_pos : 0 < hz.toNat
  hz_lt : hz.toNat < 2 ^ 52
  rate_pos : 0 < rate.toNat
  rate_lt : rate.toNat < 2 ^ 44

/-- What the period and its bytes have to do with the frequency and the rate. -/
structure Paced (hz rate period bytes : ℕ) : Prop where
  bytes_pos : 1 ≤ bytes
  period_ge : 100 ≤ period
  slow : rate * period ≤ hz * bytes
  fast : hz * bytes < rate * (period + 1)

variable {hz rate : BitVec 64}

/-- The number of cycles for a byte, and its error. -/
lemma Moderate.quotient (h : Moderate hz rate) : ∃ p : ℚ,
    double (double hz.toNat / double rate.toNat) = p ∧ 0 < p ∧
      ⌊p⌋₊ = hz.toNat / rate.toNat ∧
      hz.toNat - hz.toNat / 2 ^ 52 ≤ p * rate.toNat ∧
      p * rate.toNat ≤ hz.toNat + hz.toNat / 2 ^ 52 := by
  have hhz : double hz.toNat = hz.toNat := roundTo_natCast (lt_trans h.hz_lt (by norm_num))
  have hrate : double rate.toNat = rate.toNat := roundTo_natCast (lt_trans h.rate_lt (by norm_num))
  have hz_pos : (0 : ℚ) < hz.toNat := by exact_mod_cast h.hz_pos
  have rate_pos : (0 : ℚ) < rate.toNat := by exact_mod_cast h.rate_pos
  have hquot : (0 : ℚ) < hz.toNat / rate.toNat := div_pos hz_pos rate_pos
  obtain ⟨hlow, hhigh⟩ := roundTo_error (f := 52) hquot.le
  refine ⟨_, rfl, ?_, ?_, ?_, ?_⟩
  · rw [hhz, hrate]
    refine lt_of_lt_of_le ?_ hlow
    rw [sub_pos, div_lt_iff₀ (by norm_num)]
    linarith
  · rw [hhz, hrate]
    exact floor_roundTo_div h.rate_pos h.hz_lt
  · rw [hhz, hrate]
    calc (hz.toNat : ℚ) - hz.toNat / 2 ^ 52
        = (hz.toNat / rate.toNat - hz.toNat / rate.toNat / 2 ^ 52) * rate.toNat := by
          field_simp
      _ ≤ _ := mul_le_mul_of_nonneg_right hlow rate_pos.le
  · rw [hhz, hrate]
    calc double (hz.toNat / rate.toNat) * rate.toNat
        ≤ (hz.toNat / rate.toNat + hz.toNat / rate.toNat / 2 ^ 52) * rate.toNat :=
          mul_le_mul_of_nonneg_right hhigh rate_pos.le
      _ = hz.toNat + hz.toNat / 2 ^ 52 := by field_simp

/-- The bytes of a period of 100 cycles, rounded up: enough for 100 cycles after all. -/
lemma Moderate.bytes (h : Moderate hz rate) {p : ℚ} (hp : 0 < p)
    (hlow : hz.toNat - hz.toNat / 2 ^ 52 ≤ p * rate.toNat)
    (hhigh : p * rate.toNat ≤ hz.toNat + hz.toNat / 2 ^ 52) :
    ∃ n : ℕ, ⌈double (100 / p)⌉₊ = n ∧ 100 * rate.toNat ≤ hz.toNat * n ∧
      hz.toNat * n < 2 ^ 53 := by
  have hz_pos : (0 : ℚ) < hz.toNat := by exact_mod_cast h.hz_pos
  have rate_lt : (rate.toNat : ℚ) < 2 ^ 44 := by exact_mod_cast h.rate_lt
  have hz_lt : (hz.toNat : ℚ) < 2 ^ 52 := by exact_mod_cast h.hz_lt
  have hquot : (0 : ℚ) < 100 / p := div_pos (by norm_num) hp
  obtain ⟨hlow', hhigh'⟩ := roundTo_error (f := 52) hquot.le
  obtain ⟨y, hy⟩ : ∃ y, double (100 / p) = y ∧ 0 ≤ y := ⟨_, rfl, roundTo_nonneg hquot.le⟩
  obtain ⟨hy, hy_nonneg⟩ := hy
  rw [show roundTo 52 (100 / p) = y from hy] at hlow' hhigh'
  have hyp_low : 100 - 100 / 2 ^ 52 ≤ y * p := by
    calc (100 : ℚ) - 100 / 2 ^ 52 = (100 / p - 100 / p / 2 ^ 52) * p := by field_simp
      _ ≤ y * p := mul_le_mul_of_nonneg_right hlow' hp.le
  have hyp_high : y * p ≤ 100 + 100 / 2 ^ 52 := by
    calc y * p ≤ (100 / p + 100 / p / 2 ^ 52) * p := mul_le_mul_of_nonneg_right hhigh' hp.le
      _ = 100 + 100 / 2 ^ 52 := by field_simp
  have hle : y ≤ (⌈y⌉₊ : ℚ) := Nat.le_ceil y
  have hlt : (⌈y⌉₊ : ℚ) < y + 1 := Nat.ceil_lt_add_one hy_nonneg
  have hrate : (0 : ℚ) ≤ rate.toNat := Nat.cast_nonneg _
  -- the product of the two rounded quotients with the rate, once from each side
  have hprod_low : (100 - 100 / 2 ^ 52) * rate.toNat ≤
      ⌈y⌉₊ * hz.toNat * (1 + 1 / 2 ^ 52 : ℚ) := by
    calc (100 - 100 / 2 ^ 52) * (rate.toNat : ℚ) ≤ y * p * rate.toNat :=
          mul_le_mul_of_nonneg_right hyp_low hrate
      _ = y * (p * rate.toNat) := mul_assoc _ _ _
      _ ≤ y * (hz.toNat + hz.toNat / 2 ^ 52) := mul_le_mul_of_nonneg_left hhigh hy_nonneg
      _ ≤ ⌈y⌉₊ * (hz.toNat + hz.toNat / 2 ^ 52) :=
        mul_le_mul_of_nonneg_right hle (by positivity)
      _ = _ := by ring
  have hprod_high : y * hz.toNat * (1 - 1 / 2 ^ 52 : ℚ) ≤ (100 + 100 / 2 ^ 52) * rate.toNat := by
    calc y * hz.toNat * (1 - 1 / 2 ^ 52 : ℚ) = y * (hz.toNat - hz.toNat / 2 ^ 52) := by ring
      _ ≤ y * (p * rate.toNat) := mul_le_mul_of_nonneg_left hlow hy_nonneg
      _ = y * p * rate.toNat := (mul_assoc _ _ _).symm
      _ ≤ _ := mul_le_mul_of_nonneg_right hyp_high hrate
  refine ⟨⌈y⌉₊, by rw [hy], ?_, ?_⟩
  · by_contra hcon
    have hshort : hz.toNat * ⌈y⌉₊ + 1 ≤ 100 * rate.toNat := by omega
    have hshort' : (⌈y⌉₊ : ℚ) * hz.toNat + 1 ≤ 100 * rate.toNat := by
      rw [mul_comm]
      exact_mod_cast hshort
    linarith
  · have hbound : (hz.toNat : ℚ) * ⌈y⌉₊ < 2 ^ 53 := by
      have hceil : (hz.toNat : ℚ) * ⌈y⌉₊ ≤ y * hz.toNat + hz.toNat := by
        calc (hz.toNat : ℚ) * ⌈y⌉₊ ≤ hz.toNat * (y + 1) :=
              mul_le_mul_of_nonneg_left hlt.le hz_pos.le
          _ = y * hz.toNat + hz.toNat := by ring
      linarith
    exact_mod_cast hbound

/-- **The period and its bytes are those of exact arithmetic.** -/
lemma tbParams_paced (h : Moderate hz rate) :
    Paced hz.toNat rate.toNat (rteMeterGetTbParams hz rate).1.toNat
      (rteMeterGetTbParams hz rate).2.toNat := by
  obtain ⟨p, hp, hpos, hfloor, hlow, hhigh⟩ := h.quotient
  have hz_lt := h.hz_lt
  unfold rteMeterGetTbParams
  dsimp only
  rw [hp]
  split
  case isTrue hge =>
    have hperiod : (toUint64 p).toNat = hz.toNat / rate.toNat := by
      have hle := Nat.div_le_self hz.toNat rate.toNat
      rw [toUint64, hfloor, BitVec.toNat_ofNat, Nat.mod_eq_of_lt (by omega)]
    have hmany : 100 ≤ hz.toNat / rate.toNat := by
      rw [← hfloor]
      exact Nat.le_floor hge
    dsimp only
    rw [hperiod]
    refine ⟨le_refl _, hmany, ?_, ?_⟩
    · rw [Nat.mul_comm]
      exact (Nat.div_mul_le_self _ _).trans (le_of_eq (Nat.mul_one _).symm)
    · exact (Nat.mul_one _).trans_lt (Nat.lt_mul_div_succ _ h.rate_pos)
  case isFalse =>
    obtain ⟨n, hn, henough, hfits⟩ := h.bytes hpos hlow hhigh
    rw [hn]
    have hn_pos : 1 ≤ n := by
      rcases Nat.eq_zero_or_pos n with rfl | hn_pos
      · have hrate := h.rate_pos
        omega
      · exact hn_pos
    have hn_le : n ≤ hz.toNat * n := Nat.le_mul_of_pos_left n h.hz_pos
    have hbytes : (toUint64 (n : ℚ)).toNat = n := by
      rw [toUint64, Nat.floor_natCast, BitVec.toNat_ofNat, Nat.mod_eq_of_lt (by omega)]
    have hperiod : (hz * toUint64 (n : ℚ) / rate).toNat = hz.toNat * n / rate.toNat := by
      rw [BitVec.toNat_udiv, BitVec.toNat_mul, hbytes, Nat.mod_eq_of_lt (by omega)]
    dsimp only
    rw [hbytes, hperiod]
    refine ⟨hn_pos, ?_, ?_, Nat.lt_mul_div_succ _ h.rate_pos⟩
    · rw [Nat.le_div_iff_mul_le h.rate_pos]
      exact henough
    · rw [Nat.mul_comm]
      exact Nat.div_mul_le_self _ _

/-- At up to a byte in a cycle a period has at most 100 bytes. -/
lemma tbParams_bytes_le (h : Moderate hz rate) (hrate : rate ≤ hz) :
    (rteMeterGetTbParams hz rate).2.toNat ≤ 100 := by
  have hle : (rate.toNat : ℚ) ≤ hz.toNat := by exact_mod_cast BitVec.le_def.mp hrate
  have hz_double : double hz.toNat = hz.toNat := roundTo_natCast (lt_trans h.hz_lt (by norm_num))
  have hrate_double : double rate.toNat = rate.toNat :=
    roundTo_natCast (lt_trans h.rate_lt (by norm_num))
  have hone : (1 : ℚ) ≤ double (double hz.toNat / double rate.toNat) := by
    rw [← zpow_zero (2 : ℚ), hz_double, hrate_double]
    apply zpow_le_roundTo
    rw [zpow_zero, le_div_iff₀ (by exact_mod_cast h.rate_pos), one_mul]
    exact hle
  unfold rteMeterGetTbParams toUint64
  dsimp only
  split
  · exact Nat.one_le_ofNat
  · rw [BitVec.toNat_ofNat, Nat.floor_natCast]
    refine le_trans (Nat.mod_le _ _) (Nat.ceil_le.mpr ?_)
    rw [← roundTo_natCast (f := 52) (n := 100) (by norm_num)]
    apply roundTo_mono (div_nonneg (by norm_num) (le_trans zero_le_one hone))
    exact div_le_self (by norm_num) hone

namespace Paced

variable {f r period bytes : ℕ}

lemma period_pos (h : Paced f r period bytes) : 0 < period := by
  have hmany := h.period_ge
  omega

/-- At up to a byte in a cycle a period has no more bytes than cycles. -/
lemma bytes_le (h : Paced f r period bytes) (hrate : r ≤ f) : bytes ≤ period := by
  have hlt : f * bytes < f * (period + 1) :=
    lt_of_lt_of_le h.fast (Nat.mul_le_mul_right _ hrate)
  exact Nat.lt_succ_iff.mp (Nat.lt_of_mul_lt_mul_left hlt)

/-- **The tokens come up to one per cent faster** than the rate says. -/
lemma percent (h : Paced f r period bytes) : 100 * (f * bytes) ≤ 101 * (r * period) := by
  have hfast := h.fast
  have hmany : r * 100 ≤ r * period := Nat.mul_le_mul_left r h.period_ge
  rw [Nat.mul_add, Nat.mul_one] at hfast
  omega

end Paced

/-! ## The income between two instants -/

namespace Paced

variable {f r t u : ℕ} {c : Credit}

/-- **At most the rate and one per cent**, and the bytes of a period. -/
lemma income_le (h : Paced f r c.period c.bytes) (hstart : c.start ≤ t) (htu : t ≤ u) :
    100 * (f * c.income u) ≤ 100 * (f * (c.income t + c.bytes)) + 101 * (r * (u - t)) := by
  obtain ⟨n, hincome, -, hgap⟩ := Credit.income_gap h.period_pos hstart htu
  rw [hincome]
  cases n with
  | zero =>
    have hless : 100 * (f * (c.income t + 0 * c.bytes)) ≤ 100 * (f * (c.income t + c.bytes)) := by
      gcongr
      omega
    exact le_trans hless (Nat.le_add_right _ _)
  | succ k =>
    have hcycles : k * c.period ≤ u - t := by
      rw [Nat.add_mul, Nat.one_mul] at hgap
      omega
    calc 100 * (f * (c.income t + (k + 1) * c.bytes))
        = 100 * (f * (c.income t + c.bytes)) + k * (100 * (f * c.bytes)) := by ring
      _ ≤ 100 * (f * (c.income t + c.bytes)) + k * (101 * (r * c.period)) :=
        Nat.add_le_add_left (Nat.mul_le_mul_left k h.percent) _
      _ = 100 * (f * (c.income t + c.bytes)) + 101 * (r * (k * c.period)) := by ring
      _ ≤ 100 * (f * (c.income t + c.bytes)) + 101 * (r * (u - t)) := by gcongr

/-- **At least the rate**, less the bytes of a period. -/
lemma le_income (h : Paced f r c.period c.bytes) (hstart : c.start ≤ t) (htu : t ≤ u) :
    f * c.income t + r * (u - t) ≤ f * (c.income u + c.bytes) := by
  obtain ⟨n, hincome, hgap, -⟩ := Credit.income_gap h.period_pos hstart htu
  calc f * c.income t + r * (u - t) ≤ f * c.income t + r * ((n + 1) * c.period) := by gcongr
    _ = f * c.income t + (n + 1) * (r * c.period) := by ring
    _ ≤ f * c.income t + (n + 1) * (f * c.bytes) :=
      Nat.add_le_add_left (Nat.mul_le_mul_left _ h.slow) _
    _ = f * (c.income u + c.bytes) := by rw [hincome]; ring

end Paced
end NetLabs.Qos
