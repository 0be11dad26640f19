import NetLabs.Lib.OnesComplement
import NetLabs.Udp.PacketTheorems

/-!
# The IPv4 header checksum

`initialize_ipv4_header` adds nine words in host order, folds the carries into the low half once
and then takes the remainder by 65536. When the fold itself carries, that remainder drops the
carry instead of bringing it around, and the header does not verify.
-/

namespace NetLabs.Udp

open NetLabs.Lib NetLabs.Lib.Bytes NetLabs.Lib.OnesComplement

/-! ## The words of a header -/

/-- A 16-bit value with its two bytes exchanged. -/
def swap16 (n : ℕ) : ℕ := 256 * (n % 256) + n / 256

lemma swap16_lt {n : ℕ} (hn : n < 65536) : swap16 n < 65536 := by
  unfold swap16
  omega

lemma toNat_rteCpuToBe16 (x : BitVec 16) : (rteCpuToBe16 x).toNat = swap16 x.toNat := by
  have hbytes := congrArg ofLeBytes (leBytes_rteCpuToBe16 x)
  rw [ofLeBytes_leBytes, Nat.mod_eq_of_lt (show _ < 256 ^ 2 from (rteCpuToBe16 x).isLt)] at hbytes
  have hx := x.isLt
  rw [hbytes, beBytes, swap16]
  simp only [leBytes, List.reverse_cons, List.reverse_nil, List.nil_append, List.cons_append,
    ofLeBytes, BitVec.toNat_ofNat, Nat.reducePow]
  omega

/-- An address lies in memory as its two halves, each with its bytes exchanged. -/
lemma toNat_rteCpuToBe32 (x : BitVec 32) :
    (rteCpuToBe32 x).toNat = swap16 (x.toNat / 65536) + 65536 * swap16 (x.toNat % 65536) := by
  have hbytes := congrArg ofLeBytes (leBytes_rteCpuToBe32 x)
  rw [ofLeBytes_leBytes, Nat.mod_eq_of_lt (show _ < 256 ^ 4 from (rteCpuToBe32 x).isLt)] at hbytes
  have hx := x.isLt
  have hthird : x.toNat / 256 % 256 = x.toNat % 65536 / 256 := by omega
  rw [hbytes, beBytes, swap16, swap16]
  simp only [leBytes, List.reverse_cons, List.reverse_nil, List.nil_append, List.cons_append,
    ofLeBytes, BitVec.toNat_ofNat, Nat.reducePow, Nat.div_div_eq_div_mul, Nat.reduceMul, hthird]
  omega

lemma hostWords_leBytes_two {v : ℕ} (hv : v < 65536) (bs : List Byte) :
    hostWords (leBytes 2 v ++ bs) = v :: hostWords bs := by
  have hword : v % 256 + 256 * (v / 256 % 256) = v := by omega
  simp only [leBytes, List.cons_append, List.nil_append, hostWords, BitVec.toNat_ofNat,
    Nat.reducePow, hword]

lemma hostWords_leBytes_four {v : ℕ} (hv : v < 2 ^ 32) (bs : List Byte) :
    hostWords (leBytes 4 v ++ bs) = v % 65536 :: v / 65536 :: hostWords bs := by
  have hlow : v % 256 + 256 * (v / 256 % 256) = v % 65536 := by omega
  have hhigh : v / 256 / 256 % 256 + 256 * (v / 256 / 256 / 256 % 256) = v / 65536 := by omega
  simp only [leBytes, List.cons_append, List.nil_append, hostWords, BitVec.toNat_ofNat,
    Nat.reducePow, hlow, hhigh]

lemma hostWords_bytes (hdr : Ipv4Hdr) :
    hostWords hdr.bytes = [hdr.versionIhl.toNat + 256 * hdr.typeOfService.toNat,
      hdr.totalLength.toNat, hdr.packetId.toNat, hdr.fragmentOffset.toNat,
      hdr.timeToLive.toNat + 256 * hdr.nextProtoId.toNat, hdr.hdrChecksum.toNat,
      hdr.srcAddr.toNat % 65536, hdr.srcAddr.toNat / 65536,
      hdr.dstAddr.toNat % 65536, hdr.dstAddr.toNat / 65536] := by
  have hlast := hostWords_leBytes_four hdr.dstAddr.isLt []
  rw [List.append_nil] at hlast
  simp only [Ipv4Hdr.bytes, List.append_assoc, List.cons_append, List.nil_append, hostWords,
    hostWords_leBytes_two hdr.totalLength.isLt, hostWords_leBytes_two hdr.packetId.isLt,
    hostWords_leBytes_two hdr.fragmentOffset.isLt, hostWords_leBytes_two hdr.hdrChecksum.isLt,
    hostWords_leBytes_four hdr.srcAddr.isLt, hlast]

lemma hostWords_getD (bs : List Byte) (i : ℕ) :
    ofLeBytes (slice bs (2 * i) 2) = (hostWords bs).getD i 0 := by
  induction bs using words.induct generalizing i with
  | case1 => simp [slice, hostWords, ofLeBytes]
  | case2 a => cases i <;> simp [slice, hostWords, ofLeBytes, Nat.mul_add]
  | case3 a b bs ih =>
    cases i with
    | zero => simp [slice, hostWords, ofLeBytes]
    | succ i =>
      rw [hostWords, List.getD_cons_succ, ← ih]
      simp [slice, Nat.mul_add]

/-! ## The sum and its reduction -/

lemma toNat_ptr16 (hdr : Ipv4Hdr) (i : ℕ) :
    (hdr.ptr16 i).toNat = (hostWords hdr.bytes).getD i 0 % 2 ^ 32 := by
  rw [Ipv4Hdr.ptr16, BitVec.toNat_ofNat, hostWords_getD]

/-- The 32-bit sum does not overflow. -/
lemma toNat_ipSum (hdr : Ipv4Hdr) :
    hdr.ipSum.toNat + hdr.hdrChecksum.toNat = (hostWords hdr.bytes).sum := by
  have h0 := hdr.versionIhl.isLt
  have h1 := hdr.typeOfService.isLt
  have h2 := hdr.totalLength.isLt
  have h3 := hdr.packetId.isLt
  have h4 := hdr.fragmentOffset.isLt
  have h5 := hdr.timeToLive.isLt
  have h6 := hdr.nextProtoId.isLt
  have h7 := hdr.srcAddr.isLt
  have h8 := hdr.dstAddr.isLt
  simp only [Ipv4Hdr.ipSum, BitVec.toNat_add, toNat_ptr16, hostWords_bytes, List.getD_cons_zero,
    List.getD_cons_succ, List.sum_cons, List.sum_nil, Nat.add_mod_mod, Nat.mod_add_mod]
  rw [Nat.mod_eq_of_lt (by omega)]
  ring

/-- The reduction of the code: fold once, drop a further carry, complement, avoid zero. -/
lemma toNat_ipCksum (sum : BitVec 32) :
    (ipCksum sum).toNat =
      if (sum.toNat / 65536 + sum.toNat % 65536) % 65536 = 65535 then 65535
      else 65535 - (sum.toNat / 65536 + sum.toNat % 65536) % 65536 := by
  have hs := sum.isLt
  have hhigh : ((sum &&& 0xFFFF0000) >>> 16).toNat = sum.toNat / 65536 := by
    rw [BitVec.toNat_ushiftRight, BitVec.toNat_and, Nat.shiftRight_and_distrib,
      show BitVec.toNat (0xFFFF0000 : BitVec 32) >>> 16 = 2 ^ 16 - 1 by rfl,
      Nat.and_two_pow_sub_one_eq_mod,
      Nat.shiftRight_eq_div_pow]
    omega
  have hlow : (sum &&& 0x0000FFFF).toNat = sum.toNat % 65536 := by
    rw [BitVec.toNat_and, show BitVec.toNat (0x0000FFFF : BitVec 32) = 2 ^ 16 - 1 by rfl,
      Nat.and_two_pow_sub_one_eq_mod]
  set reduced : BitVec 32 := (((sum &&& 0xFFFF0000) >>> 16) + (sum &&& 0x0000FFFF)) % 65536
    with hreduced
  have hr : reduced.toNat = (sum.toNat / 65536 + sum.toNat % 65536) % 65536 := by
    rw [hreduced, BitVec.toNat_umod, BitVec.toNat_add, hhigh, hlow,
      Nat.mod_eq_of_lt (show _ < 2 ^ 32 by omega)]
    rfl
  have hc : (~~~reduced &&& 0x0000FFFF).toNat = 65535 - reduced.toNat := by
    rw [BitVec.toNat_and, show BitVec.toNat (0x0000FFFF : BitVec 32) = 2 ^ 16 - 1 by rfl,
      Nat.and_two_pow_sub_one_eq_mod, BitVec.toNat_not]
    omega
  have hlt : reduced.toNat < 65536 := by omega
  have hzero : ~~~reduced &&& 0x0000FFFF = 0 ↔ reduced.toNat = 65535 := by
    rw [← BitVec.toNat_inj, hc]
    change 65535 - reduced.toNat = 0 ↔ _
    omega
  rw [← hr, ipCksum]
  simp only [← hreduced, hzero]
  split
  · rfl
  · rw [BitVec.toNat_setWidth, hc]
    omega

/-! ## When the header verifies -/

/-- The sum of the nine words of a header: the constant ones, the total length and the halves of
the two addresses, all as a little-endian host reads them. -/
def headerSum (srcAddr dstAddr : BitVec 32) (pktDataLen : BitVec 16) : ℕ :=
  0x1185 + swap16 (pktDataLen.toNat + 20) +
    swap16 (srcAddr.toNat / 65536) + swap16 (srcAddr.toNat % 65536) +
    swap16 (dstAddr.toNat / 65536) + swap16 (dstAddr.toNat % 65536)

/-- Folding the carries into the low half does not carry again. -/
def FoldsOnce (sum : ℕ) : Prop := sum / 65536 + sum % 65536 < 65536

instance (sum : ℕ) : Decidable (FoldsOnce sum) := inferInstanceAs (Decidable (_ < _))

/-- Adding the complement of the reduced sum gives a multiple of 65535 when no carry was
dropped, and one more than a multiple otherwise. -/
lemma dvd_add_ipCksum_iff (sum : BitVec 32) :
    65535 ∣ sum.toNat + (ipCksum sum).toNat ↔ FoldsOnce sum.toNat := by
  have hs := sum.isLt
  rw [toNat_ipCksum, FoldsOnce]
  set q := sum.toNat / 65536 with hq
  set r := sum.toNat % 65536 with hr
  have hsum : sum.toNat = 65535 * q + (q + r) := by omega
  rcases Nat.lt_or_ge (q + r) 65536 with hfold | hfold
  · rw [Nat.mod_eq_of_lt hfold, hsum]
    refine iff_of_true ?_ hfold
    split
    · exact ⟨q + 2, by omega⟩
    · exact ⟨q + 1, by omega⟩
  · have hmod : (q + r) % 65536 = q + r - 65536 := by omega
    rw [hmod, if_neg (by omega), hsum,
      show 65535 * q + (q + r) + (65535 - (q + r - 65536)) = 65535 * (q + 2) + 1 by omega]
    refine iff_of_false ?_ (by omega)
    omega

lemma halves_rteCpuToBe32 (x : BitVec 32) :
    (rteCpuToBe32 x).toNat % 65536 + (rteCpuToBe32 x).toNat / 65536 =
      swap16 (x.toNat / 65536) + swap16 (x.toNat % 65536) := by
  have hx := x.isLt
  have hhigh : swap16 (x.toNat / 65536) < 65536 := swap16_lt (by omega)
  rw [toNat_rteCpuToBe32]
  omega

section

variable (hdr : Ipv4Hdr) (srcAddr dstAddr : BitVec 32) {pktDataLen : BitVec 16}

/-- The function fills in all ten words; the last one depends on the other nine. -/
lemma sum_initializeIpv4Header (hlen : pktDataLen.toNat + 20 < 65536) :
    (hostWords (initializeIpv4Header hdr srcAddr dstAddr pktDataLen).1.bytes).sum =
      headerSum srcAddr dstAddr pktDataLen +
        (initializeIpv4Header hdr srcAddr dstAddr pktDataLen).1.hdrChecksum.toNat := by
  have hpkt : (pktDataLen + BitVec.ofNat 16 ipv4HdrSize).toNat = pktDataLen.toNat + 20 := by
    rw [BitVec.toNat_add, BitVec.toNat_ofNat, ipv4HdrSize]
    omega
  have hconst : ipVhlDef.toNat + 256 * (0#8).toNat + (ipDefttl.toNat + 256 * ipprotoUdp.toNat) =
      0x1185 := by decide
  have hsrc := halves_rteCpuToBe32 srcAddr
  have hdst := halves_rteCpuToBe32 dstAddr
  rw [hostWords_bytes, headerSum]
  simp only [initializeIpv4Header, List.sum_cons, List.sum_nil, toNat_rteCpuToBe16, hpkt]
  simp only [BitVec.ofNat_eq_ofNat, BitVec.toNat_zero] at hconst ⊢
  omega

lemma hdrChecksum_initializeIpv4Header (hlen : pktDataLen.toNat + 20 < 65536) :
    (initializeIpv4Header hdr srcAddr dstAddr pktDataLen).1.hdrChecksum =
      ipCksum (BitVec.ofNat 32 (headerSum srcAddr dstAddr pktDataLen)) := by
  have hsum := toNat_ipSum (initializeIpv4Header hdr srcAddr dstAddr pktDataLen).1
  rw [sum_initializeIpv4Header hdr srcAddr dstAddr hlen, Nat.add_right_cancel_iff] at hsum
  rw [← hsum, BitVec.ofNat_toNat, BitVec.setWidth_eq]
  -- the sum leaves the checksum word out
  rfl

/-- **The header verifies exactly when one fold is enough.** -/
theorem verifies_initializeIpv4Header_iff (hlen : pktDataLen.toNat + 20 < 65536) :
    Verifies (initializeIpv4Header hdr srcAddr dstAddr pktDataLen).1.bytes ↔
      FoldsOnce (headerSum srcAddr dstAddr pktDataLen) := by
  have hpos : 0x1185 ≤ headerSum srcAddr dstAddr pktDataLen := by
    unfold headerSum
    omega
  have hlt : headerSum srcAddr dstAddr pktDataLen < 2 ^ 32 := by
    have h0 := swap16_lt hlen
    have h1 := swap16_lt (show srcAddr.toNat / 65536 < 65536 by have := srcAddr.isLt; omega)
    have h2 := swap16_lt (Nat.mod_lt srcAddr.toNat (show 0 < 65536 by norm_num))
    have h3 := swap16_lt (show dstAddr.toNat / 65536 < 65536 by have := dstAddr.isLt; omega)
    have h4 := swap16_lt (Nat.mod_lt dstAddr.toNat (show 0 < 65536 by norm_num))
    unfold headerSum
    omega
  have hdvd := dvd_add_ipCksum_iff (BitVec.ofNat 32 (headerSum srcAddr dstAddr pktDataLen))
  rw [BitVec.toNat_ofNat, Nat.mod_eq_of_lt hlt] at hdvd
  rw [verifies_iff, sum_initializeIpv4Header hdr srcAddr dstAddr hlen,
    hdrChecksum_initializeIpv4Header hdr srcAddr dstAddr hlen, hdvd]
  exact and_iff_left (by omega)

theorem verifies_initializeIpv4Header_sendPkt :
    Verifies (initializeIpv4Header .zero (IPv4 10 115 0 24) (IPv4 10 222 0 21) 20).1.bytes := by
  apply (verifies_initializeIpv4Header_iff _ _ _ (by decide)).mpr
  decide

/-- The repository's own sender and length, and another address of the destination's network. -/
theorem not_verifies_initializeIpv4Header :
    ¬∀ (hdr : Ipv4Hdr) (srcAddr dstAddr : BitVec 32) (pktDataLen : BitVec 16),
      pktDataLen.toNat + 20 < 65536 →
      Verifies (initializeIpv4Header hdr srcAddr dstAddr pktDataLen).1.bytes := by
  intro h
  have hfails : ¬Verifies
      (initializeIpv4Header .zero (IPv4 10 115 0 24) (IPv4 10 222 102 93) 20).1.bytes := by
    decide
  exact hfails (h .zero (IPv4 10 115 0 24) (IPv4 10 222 102 93) 20 (by decide))

end

end NetLabs.Udp
