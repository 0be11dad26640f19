import NetLabs.Lib.Bytes
import Mathlib.Data.Nat.ModEq
import Mathlib.Algebra.BigOperators.Group.List.Basic

/-!
# One's-complement sums

Addition of words `0 .. m` with the carry brought around: it is addition modulo `m`, except that
a sum is `0` only when all its words are. So a sum is the word of all ones, `m`, exactly
when the plain sum is a positive multiple of `m`. The sum does not depend on the byte order in
which 16-bit words are read, up to exchanging the bytes of the result.
-/

namespace NetLabs.Lib.OnesComplement

open NetLabs.Lib.Bytes

variable {m : ℕ}

/-- Addition with end-around carry. -/
def add (m a b : ℕ) : ℕ := if a + b ≤ m then a + b else a + b - m

/-- The sum of a list of words with end-around carry. -/
def sum (m : ℕ) (ws : List ℕ) : ℕ := ws.foldl (add m) 0

lemma add_le {a b : ℕ} (ha : a ≤ m) (hb : b ≤ m) : add m a b ≤ m := by
  unfold add
  split <;> omega

lemma add_modEq (a b : ℕ) : add m a b ≡ a + b [MOD m] := by
  unfold add
  split
  · rfl
  · exact (Nat.modEq_iff_dvd' (Nat.sub_le _ _)).mpr ⟨1, by omega⟩

lemma add_eq_zero_iff {a b : ℕ} : add m a b = 0 ↔ a + b = 0 := by
  unfold add
  split <;> omega

/-- What the loop keeps: the running value is a word, it is the plain sum modulo `m`, and it is
zero only as long as the plain sum is. -/
lemma foldl_add_spec {ws : List ℕ} (hws : ∀ x ∈ ws, x ≤ m) {acc total : ℕ} (hacc : acc ≤ m)
    (hmod : acc ≡ total [MOD m]) (hzero : acc = 0 ↔ total = 0) :
    ws.foldl (add m) acc ≤ m ∧ ws.foldl (add m) acc ≡ total + ws.sum [MOD m] ∧
      (ws.foldl (add m) acc = 0 ↔ total + ws.sum = 0) := by
  induction ws generalizing acc total with
  | nil => exact ⟨hacc, by simpa using hmod, by simpa using hzero⟩
  | cons x ws ih =>
    rw [List.foldl_cons, List.sum_cons, ← Nat.add_assoc]
    apply ih
    · intro y hy
      exact hws y (List.mem_cons_of_mem x hy)
    · exact add_le hacc (hws x List.mem_cons_self)
    · exact (add_modEq acc x).trans (hmod.add_right x)
    · rw [add_eq_zero_iff]
      omega

/-- **A sum is all ones exactly when the plain sum is a positive multiple of `m`.** -/
theorem sum_eq_iff (hm : 0 < m) {ws : List ℕ} (hws : ∀ x ∈ ws, x ≤ m) :
    sum m ws = m ↔ m ∣ ws.sum ∧ 0 < ws.sum := by
  have hstart : (0 : ℕ) ≡ 0 [MOD m] := rfl
  obtain ⟨hle, hmod, hzero⟩ := foldl_add_spec hws (Nat.zero_le m) hstart (Iff.refl _)
  rw [Nat.zero_add] at hmod hzero
  change sum m ws ≤ m at hle
  change sum m ws ≡ ws.sum [MOD m] at hmod
  change sum m ws = 0 ↔ ws.sum = 0 at hzero
  have hdvd : m ∣ sum m ws ↔ m ∣ ws.sum := hmod.dvd_iff (dvd_refl m)
  constructor
  · intro h
    refine ⟨hdvd.mp (dvd_of_eq h.symm), ?_⟩
    omega
  · rintro ⟨hd, hpos⟩
    have hsum : m ≤ sum m ws := Nat.le_of_dvd (by omega) (hdvd.mpr hd)
    omega

/-- What a sum has in common with the plain sum. -/
lemma sum_spec {ws : List ℕ} (hws : ∀ x ∈ ws, x ≤ m) :
    sum m ws ≤ m ∧ sum m ws ≡ ws.sum [MOD m] ∧ (sum m ws = 0 ↔ ws.sum = 0) := by
  have hspec := foldl_add_spec hws (Nat.zero_le m) (rfl : (0 : ℕ) ≡ 0 [MOD m]) (Iff.refl _)
  rwa [Nat.zero_add] at hspec

/-- A word that is the plain sum modulo `m`, and zero only if that is, is the sum. -/
theorem eq_sum {ws : List ℕ} (hws : ∀ x ∈ ws, x ≤ m) {x : ℕ} (hx : x ≤ m)
    (hmod : x ≡ ws.sum [MOD m]) (hzero : x = 0 ↔ ws.sum = 0) : x = sum m ws := by
  obtain ⟨hle, hmod', hzero'⟩ := sum_spec hws
  have hsame := hmod.trans hmod'.symm
  -- of two congruent words one is zero and the other `m`, or they are equal
  rcases Nat.lt_trichotomy x (sum m ws) with hlt | heq | hgt
  · have hdvd : m ∣ sum m ws - x := (Nat.modEq_iff_dvd' hlt.le).mp hsame
    have hge := Nat.le_of_dvd (by omega) hdvd
    omega
  · exact heq
  · have hdvd : m ∣ x - sum m ws := (Nat.modEq_iff_dvd' hgt.le).mp hsame.symm
    have hge := Nat.le_of_dvd (by omega) hdvd
    omega

/-! ## The words of a byte string -/

/-- The 16-bit words of a byte string in network byte order; an odd last byte is padded. -/
def words : List Byte → List ℕ
  | [] => []
  | [a] => [256 * a.toNat]
  | a :: b :: bs => (256 * a.toNat + b.toNat) :: words bs

/-- The same words in the order of a little-endian host. -/
def hostWords : List Byte → List ℕ
  | [] => []
  | [a] => [a.toNat]
  | a :: b :: bs => (a.toNat + 256 * b.toNat) :: hostWords bs

lemma words_le (bs : List Byte) : ∀ x ∈ words bs, x ≤ 65535 := by
  induction bs using words.induct with
  | case1 => simp [words]
  | case2 a =>
    intro x hx
    have ha := a.isLt
    rw [words, List.mem_singleton] at hx
    omega
  | case3 a b bs ih =>
    intro x hx
    have ha := a.isLt
    have hb := b.isLt
    rw [words, List.mem_cons] at hx
    rcases hx with rfl | hx
    · omega
    · exact ih x hx

lemma hostWords_le (bs : List Byte) : ∀ x ∈ hostWords bs, x ≤ 65535 := by
  induction bs using words.induct with
  | case1 => simp [hostWords]
  | case2 a =>
    intro x hx
    have ha := a.isLt
    rw [hostWords, List.mem_singleton] at hx
    omega
  | case3 a b bs ih =>
    intro x hx
    have ha := a.isLt
    have hb := b.isLt
    rw [hostWords, List.mem_cons] at hx
    rcases hx with rfl | hx
    · omega
    · exact ih x hx

/-- A bound on the plain sum. -/
lemma sum_hostWords_le (bs : List Byte) :
    (hostWords bs).sum ≤ 65535 * ((bs.length + 1) / 2) := by
  induction bs using words.induct with
  | case1 => simp [hostWords]
  | case2 a =>
    have ha := a.isLt
    simp only [hostWords, List.sum_cons, List.sum_nil, List.length_cons, List.length_nil]
    omega
  | case3 a b bs ih =>
    have ha := a.isLt
    have hb := b.isLt
    simp only [hostWords, List.sum_cons, List.length_cons]
    omega

/-- Blocks of an even length keep their words when something follows. -/
lemma hostWords_append {bs : List Byte} (h : 2 ∣ bs.length) (cs : List Byte) :
    hostWords (bs ++ cs) = hostWords bs ++ hostWords cs := by
  induction bs using words.induct with
  | case1 => rfl
  | case2 a =>
    rw [List.length_singleton] at h
    omega
  | case3 a b bs ih =>
    rw [List.length_cons, List.length_cons] at h
    rw [List.cons_append, List.cons_append, hostWords, hostWords, ih (by omega), List.cons_append]

/-- Exchanging the bytes of every word multiplies the sum by 256. -/
lemma sum_words_modEq (bs : List Byte) :
    (words bs).sum ≡ 256 * (hostWords bs).sum [MOD 65535] := by
  induction bs using words.induct with
  | case1 => rfl
  | case2 a => simp [words, hostWords, Nat.ModEq]
  | case3 a b bs ih =>
    rw [words, hostWords, List.sum_cons, List.sum_cons, Nat.mul_add]
    apply Nat.ModEq.add _ ih
    have hcarry : 256 * (a.toNat + 256 * b.toNat) = 256 * a.toNat + b.toNat + 65535 * b.toNat := by
      ring
    rw [hcarry]
    simp [Nat.ModEq]

lemma dvd_sum_words_iff (bs : List Byte) :
    65535 ∣ (words bs).sum ↔ 65535 ∣ (hostWords bs).sum := by
  rw [(sum_words_modEq bs).dvd_iff (dvd_refl 65535)]
  exact (by decide : Nat.Coprime 65535 256).dvd_mul_left

lemma sum_words_pos_iff (bs : List Byte) : 0 < (words bs).sum ↔ 0 < (hostWords bs).sum := by
  induction bs using words.induct with
  | case1 => rfl
  | case2 a => simp [words, hostWords]
  | case3 a b bs ih =>
    rw [words, hostWords, List.sum_cons, List.sum_cons]
    omega

/-- The check of RFC 1071: the words of a block that carries its checksum sum up to all ones. -/
def Verifies (bs : List Byte) : Prop := sum 65535 (words bs) = 65535

instance (bs : List Byte) : Decidable (Verifies bs) := inferInstanceAs (Decidable (_ = _))

/-- A host may check the block in its own byte order. -/
theorem verifies_iff (bs : List Byte) :
    Verifies bs ↔ 65535 ∣ (hostWords bs).sum ∧ 0 < (hostWords bs).sum := by
  rw [Verifies, sum_eq_iff (by norm_num) (words_le bs), dvd_sum_words_iff, sum_words_pos_iff]

end NetLabs.Lib.OnesComplement
