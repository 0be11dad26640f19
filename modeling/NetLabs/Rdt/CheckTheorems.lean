import NetLabs.Lib.Crc
import NetLabs.Rdt.Check

/-!
# What the packet checksum detects

`crc32` works from a table of 256 words. The table holds what eight single steps of the register
make of each byte, so the loop computes the reflected CRC-32 bit by bit, and the code's
guarantees carry over to packets. A packet passes the check exactly when its bytes behind the
checksum field, followed by the field itself, bring the register to zero.
-/

namespace NetLabs.Rdt

open NetLabs.Lib NetLabs.Lib.Bytes

/-- The polynomial of CRC-32, least significant bit first. -/
def crcPoly : BitVec 32 := 0xEDB88320#32

/-! ## The table-driven loop -/

lemma crc32Table_toList :
    crc32Table.toList = (List.range 256).map fun n => (Crc.shift crcPoly)^[8] (BitVec.ofNat 32 n) := by
  decide +kernel

lemma crc32Table_get (i : Fin 256) :
    crc32Table.get i = (Crc.shift crcPoly)^[8] (BitVec.ofNat 32 i) := by
  have hi : crc32Table.toList[i.val]? = some (crc32Table.get i) := by
    simp [Vector.get]
  rw [crc32Table_toList] at hi
  simpa using hi.symm

/-- The index into the table: the sign extension of `*buf` ends up above the mask. -/
lemma crc32_index (r : BitVec 32) (b : Byte) :
    BitVec.ofNat 32 ((r ^^^ b.signExtend 32) &&& 0xff#32).toNat =
      ((r ^^^ b.setWidth 32).setWidth 8).setWidth 32 := by
  have hmask : ∀ i, (0xff#32).getLsbD i = decide (i < 8) := by
    intro i
    rw [BitVec.getLsbD_ofNat, show (0xff : ℕ) = 2 ^ 8 - 1 by norm_num, Nat.testBit_two_pow_sub_one]
    by_cases hi : i < 8
    · simp [hi, show i < 32 by omega]
    · simp [hi]
  rw [BitVec.ofNat_toNat, BitVec.setWidth_eq]
  apply BitVec.eq_of_getLsbD_eq
  intro i hi
  rw [BitVec.getLsbD_and, hmask, BitVec.getLsbD_setWidth, BitVec.getLsbD_setWidth,
    BitVec.getLsbD_xor, BitVec.getLsbD_xor, BitVec.getLsbD_signExtend, BitVec.getLsbD_setWidth]
  by_cases h8 : i < 8
  · simp [hi, h8]
  · simp [h8]

/-- One round of the loop takes the register over one byte. -/
lemma crc32Step_eq_byteStep : crc32Step = Crc.byteStep crcPoly := by
  funext r b
  have hshift : (r ^^^ b.setWidth 32) >>> 8 = r >>> 8 := by
    apply BitVec.eq_of_getLsbD_eq
    intro i _
    rw [BitVec.getLsbD_ushiftRight, BitVec.getLsbD_ushiftRight, BitVec.getLsbD_xor,
      BitVec.getLsbD_setWidth, BitVec.getLsbD_of_ge b (8 + i) (by omega)]
    simp
  rw [Crc.byteStep, Crc.iterate_split crcPoly (n := 8) (by decide), hshift, ← crc32_index,
    crc32Step, crc32Table_get]

/-- **The table-driven loop is the bitwise code**, over buffers of any length and content. -/
theorem crc32_eq_bitwise (buf : List Byte) :
    crc32 buf = Crc.bitwise 0xEDB88320#32 0xffffffff#32 buf := by
  rw [crc32, crc32Step_eq_byteStep, crcPoly, Crc.bitwise]

lemma crc32_eq_feed (buf : List Byte) :
    crc32 buf = Crc.feed crcPoly 0xffffffff#32 (Crc.bits buf) := by
  rw [← Crc.bitwise_eq_feed crcPoly (by decide), crc32, crc32Step_eq_byteStep, Crc.bitwise]

/-! ## A packet as a message to the register -/

/-- The bits of a packet as the check reads them: the bytes behind the checksum field, then the
field. -/
def Packet.codeword (p : Packet) : List Bool :=
  Crc.bits (p.data.drop checksumSize ++ p.data.take checksumSize)

/-- A little-endian word is the word of its bits. -/
lemma word_bits {w : ℕ} (bs : List Byte) :
    (Crc.word (Crc.bits bs) : BitVec w) = BitVec.ofNat w (ofLeBytes bs) := by
  induction bs with
  | nil => rfl
  | cons b bs ih =>
    rw [Crc.bits_cons, Crc.word_append, ih, Crc.length_byteBits, Crc.word_byteBits, ofLeBytes]
    apply BitVec.eq_of_getLsbD_eq
    intro i hi
    rw [BitVec.getLsbD_xor, BitVec.getLsbD_setWidth, BitVec.getLsbD_shiftLeft,
      BitVec.getLsbD_ofNat, BitVec.getLsbD_ofNat, Nat.add_comm,
      show (256 : ℕ) = 2 ^ 8 by norm_num, Nat.testBit_two_pow_mul_add _ b.isLt]
    by_cases h8 : i < 8
    · simp [hi, h8, BitVec.getLsbD]
    · have hrest : i - 8 < w := by omega
      simp [hi, h8, hrest, BitVec.getLsbD_of_ge b i (by omega)]

lemma crcPoly_msb : crcPoly.msb = true := by decide

/-- A packet passes exactly when the register ends at zero behind its checksum field. -/
lemma rdtVerifyChecksum_iff (p : Packet) :
    rdtVerifyChecksum p = true ↔ Crc.feed crcPoly 0xffffffff#32 p.codeword = 0 := by
  have hlen : (Crc.bits (p.data.take checksumSize)).length = 32 := by
    rw [Crc.length_bits, List.length_take, p.length_data]
    decide
  rw [Packet.codeword, Crc.bits_append, Crc.feed_append, ← crc32_eq_feed,
    Crc.feed_eq_iterate crcPoly _ (le_of_eq hlen), word_bits, rdtVerifyChecksum, beq_iff_eq,
    readWord, slice, List.drop_zero]
  constructor
  · intro h
    rw [h, BitVec.xor_self, ← BitVec.ofNat_eq_ofNat, Crc.iterate_zero]
  · intro h
    have hzero := Crc.iterate_eq_zero crcPoly crcPoly_msb h
    rwa [BitVec.ofNat_eq_ofNat, BitVec.xor_eq_zero_iff] at hzero

/-! ## The errors the check detects -/

/-- The register does not come back to `r` within the next `n` steps. -/
def staysAway (r : BitVec 32) : ℕ → BitVec 32 → Bool
  | 0, _ => true
  | n + 1, s => s != r && staysAway r n (Crc.shift crcPoly s)

lemma staysAway_spec {r s : BitVec 32} {n : ℕ} (h : staysAway r n s = true) {d : ℕ}
    (hd : d < n) : (Crc.shift crcPoly)^[d] s ≠ r := by
  induction n generalizing s d with
  | zero => omega
  | succ n ih =>
    rw [staysAway, Bool.and_eq_true, bne_iff_ne] at h
    cases d with
    | zero => exact h.1
    | succ d =>
      rw [Function.iterate_succ_apply]
      exact ih h.2 (by omega)

/-- `x` has an order above 1023 modulo the polynomial. -/
lemma noReturn_crcPoly : Crc.NoReturn crcPoly 1024 := by
  have haway : staysAway (Crc.unit true) 1023 (Crc.shift crcPoly (Crc.unit true)) = true := by
    decide +kernel
  intro d hpos hd
  obtain ⟨d, rfl⟩ : ∃ k, d = k + 1 := ⟨d - 1, by omega⟩
  rw [Function.iterate_succ_apply]
  exact staysAway_spec haway (by omega)

namespace Packet

/-- The places, out of the 1024, in which two packets have different bits. -/
def differingBits (p p' : Packet) : Finset ℕ :=
  (Finset.range (8 * pktSize)).filter fun t => Crc.bitAt p.data t ≠ Crc.bitAt p'.data t

/-- The packets differ at most in the `n` bytes from `off` on. -/
def AgreeOutside (p p' : Packet) (off n : ℕ) : Prop :=
  ∀ t, t < off ∨ off + n ≤ t → p.data[t]? = p'.data[t]?

lemma agreeOutside_write (p : Packet) (off : ℕ) (bs : List Byte) :
    p.AgreeOutside (p.write off bs) off bs.length := by
  intro t ht
  rw [data_write, getElem?_overwrite, if_neg (by omega)]

variable {p p' : Packet} {off n : ℕ}

lemma AgreeOutside.slice_eq (h : p.AgreeOutside p' off n) {o k : ℕ}
    (ho : o + k ≤ off ∨ off + n ≤ o) : slice p.data o k = slice p'.data o k := by
  apply List.ext_getElem?
  intro i
  rw [getElem?_slice, getElem?_slice]
  by_cases hi : i < k
  · rw [if_pos hi, if_pos hi, h (o + i) (by omega)]
  · rw [if_neg hi, if_neg hi]

lemma drop_eq_slice (p : Packet) (o : ℕ) : p.data.drop o = slice p.data o pktSize := by
  rw [slice, List.take_of_length_le]
  rw [List.length_drop, p.length_eq]
  omega

/-- Packets that also agree inside the block are equal. -/
lemma AgreeOutside.eq_of_slice_eq (h : p.AgreeOutside p' off n)
    (hs : slice p.data off n = slice p'.data off n) : p = p' := by
  have hdata : p.data = p'.data := by
    apply List.ext_getElem?
    intro t
    by_cases ht : t < off ∨ off + n ≤ t
    · exact h t ht
    · have hin := congrArg (fun l : List Byte => l[t - off]?) hs
      simp only [getElem?_slice, if_pos (show t - off < n by omega),
        show off + (t - off) = t by omega] at hin
      exact hin
  cases p
  cases p'
  simpa using hdata

/-- The codeword around a block behind the checksum field. -/
lemma codeword_eq (p : Packet) (hoff : checksumSize ≤ off) :
    p.codeword = Crc.bits (slice p.data checksumSize (off - checksumSize)) ++
      Crc.bits (slice p.data off n) ++
      Crc.bits (slice p.data (off + n) pktSize ++ slice p.data 0 checksumSize) := by
  have hrest : p.data.drop checksumSize = slice p.data checksumSize (off - checksumSize) ++
      (slice p.data off n ++ slice p.data (off + n) pktSize) := by
    rw [← drop_eq_slice, slice, slice, ← List.drop_drop, List.take_append_drop]
    have hsplit := List.take_append_drop (off - checksumSize) (p.data.drop checksumSize)
    rw [List.drop_drop, show checksumSize + (off - checksumSize) = off by omega] at hsplit
    exact hsplit.symm
  rw [codeword, hrest, show p.data.take checksumSize = slice p.data 0 checksumSize from rfl]
  simp only [Crc.bits_append, List.append_assoc]

lemma length_codeword (p : Packet) : p.codeword.length = 1024 := by
  rw [codeword, Crc.length_bits, List.length_append, List.length_drop, List.length_take,
    p.length_data]
  decide

/-- The ones in the difference of two codewords are the places in which the packets differ. -/
lemma count_codeword (p p' : Packet) :
    (List.zipWith xor p.codeword p'.codeword).count true = (p.differingBits p').card := by
  have hlen : ∀ q : Packet, (Crc.bits (q.data.take checksumSize)).length = 32 ∧
      (Crc.bits (q.data.drop checksumSize)).length = 992 := by
    intro q
    rw [Crc.length_bits, Crc.length_bits, List.length_take, List.length_drop, q.length_data]
    decide
  have hall : ∀ q : Packet, Crc.bits q.data =
      Crc.bits (q.data.take checksumSize) ++ Crc.bits (q.data.drop checksumSize) := by
    intro q
    rw [← Crc.bits_append, List.take_append_drop]
  have hcount := Crc.count_zipWith_bits (p.length_eq.trans p'.length_eq.symm)
  rw [hall p, hall p', List.zipWith_append ((hlen p).1.trans (hlen p').1.symm), List.count_append,
    p.length_eq] at hcount
  rw [codeword, codeword, Crc.bits_append, Crc.bits_append,
    List.zipWith_append ((hlen p).2.trans (hlen p').2.symm), List.count_append, Nat.add_comm,
    hcount, differingBits]

end Packet

/-- Two packets that pass the check and differ at most inside four bytes are equal: the four
bytes are fed to the register in one piece. -/
lemma eq_of_agreeOutside {p p' : Packet} {off : ℕ} (hp : rdtVerifyChecksum p = true)
    (hp' : rdtVerifyChecksum p' = true) (h : p.AgreeOutside p' off 4)
    (hoff : off = 0 ∨ checksumSize ≤ off) : p = p' := by
  rw [rdtVerifyChecksum_iff] at hp hp'
  have hlen : ∀ q : Packet, (Crc.bits (slice q.data off 4)).length =
      8 * min 4 (pktSize - off) := by
    intro q
    rw [Crc.length_bits, length_slice, q.length_eq]
  have hblock : Crc.bits (slice p.data off 4) = Crc.bits (slice p'.data off 4) := by
    rcases hoff with rfl | hoff
    · have hcode : ∀ q : Packet, q.codeword =
          Crc.bits (slice q.data 4 pktSize) ++ Crc.bits (slice q.data 0 4) ++ [] := by
        intro q
        rw [Packet.codeword, Crc.bits_append, List.append_nil, Packet.drop_eq_slice]
        rfl
      rw [hcode, h.slice_eq (by omega)] at hp
      rw [hcode] at hp'
      exact Crc.burst_detected crcPoly crcPoly_msb _ ((hlen p).trans (hlen p').symm)
        (by rw [hlen p]; omega) (hp.trans hp'.symm)
    · have hfront : slice p.data checksumSize (off - checksumSize) =
          slice p'.data checksumSize (off - checksumSize) := h.slice_eq (by omega)
      have hback : slice p.data (off + 4) pktSize = slice p'.data (off + 4) pktSize :=
        h.slice_eq (by omega)
      have hfield : slice p.data 0 checksumSize = slice p'.data 0 checksumSize :=
        h.slice_eq (by omega)
      rw [p.codeword_eq (n := 4) hoff, hfront, hback, hfield] at hp
      rw [p'.codeword_eq (n := 4) hoff] at hp'
      exact Crc.burst_detected crcPoly crcPoly_msb _ ((hlen p).trans (hlen p').symm)
        (by rw [hlen p]; omega) (hp.trans hp'.symm)
  exact h.eq_of_slice_eq (Crc.bits_injective hblock)

/-- Two packets that pass the check never differ in just one bit or two. -/
lemma card_differingBits_ne {p p' : Packet} (hp : rdtVerifyChecksum p = true)
    (hp' : rdtVerifyChecksum p' = true) :
    ¬((p.differingBits p').card = 1 ∨ (p.differingBits p').card = 2) := by
  rw [rdtVerifyChecksum_iff] at hp hp'
  intro hcard
  rw [← Packet.count_codeword] at hcard
  have hlen : p.codeword.length = p'.codeword.length :=
    p.length_codeword.trans p'.length_codeword.symm
  have hret : Crc.NoReturn crcPoly p.codeword.length := by
    rw [p.length_codeword]
    exact noReturn_crcPoly
  exact Crc.few_bits_detected crcPoly crcPoly_msb (by decide) _ hlen hret hcard
    (hp.trans hp'.symm)

/-- **What the checksum is guaranteed to detect.** A packet that was given its checksum passes
the check; changed inside four consecutive bytes behind the checksum field, inside the field, or
in one or two bits anywhere, it does not. -/
theorem rdtVerifyChecksum_detects (q p' : Packet) :
    rdtVerifyChecksum (rdtAddChecksum q) = true ∧
    (p' ≠ rdtAddChecksum q →
      (∃ off, 4 ≤ off ∧ off + 4 ≤ 128 ∧ (rdtAddChecksum q).AgreeOutside p' off 4) ∨
        (rdtAddChecksum q).AgreeOutside p' 0 4 ∨
        ((rdtAddChecksum q).differingBits p').card = 1 ∨
        ((rdtAddChecksum q).differingBits p').card = 2 →
      rdtVerifyChecksum p' = false) := by
  have hpass := rdtVerifyChecksum_rdtAddChecksum q
  refine ⟨hpass, ?_⟩
  intro hne herr
  by_contra hcheck
  rw [Bool.not_eq_false] at hcheck
  rcases herr with ⟨off, hoff, -, h⟩ | h | hcard
  · exact hne (eq_of_agreeOutside hpass hcheck h (Or.inr hoff)).symm
  · exact hne (eq_of_agreeOutside hpass hcheck h (Or.inl rfl)).symm
  · exact card_differingBits_ne hpass hcheck hcard

theorem rdtVerifyChecksum_detects_write :
    rdtVerifyChecksum ((rdtAddChecksum Packet.zero).write 9 [1, 0, 0, 0x80]) = false := by
  apply (rdtVerifyChecksum_detects Packet.zero _).2
  · decide +kernel
  · left
    exact ⟨9, by decide, by decide, Packet.agreeOutside_write _ 9 [1, 0, 0, 0x80]⟩

end NetLabs.Rdt
