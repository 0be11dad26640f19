import NetLabs.Udp.Checksum

/-!
# The checksums of the library

`rte_ip.h` has its own checksums: a loop that adds four words a round, a reduction that folds
twice, and on top of these the checksum of an IPv4 header and that of UDP and TCP. For a block of
any length up to 131070 the loop and the reduction give the sum of RFC 1071, so that both checksums
verify, also where `initialize_ipv4_header` drops a carry.
-/

namespace NetLabs.Udp

open NetLabs.Lib NetLabs.Lib.Bytes NetLabs.Lib.OnesComplement

/-! ## The functions -/

/-- A word of the buffer, as a little-endian host loads it. -/
def u16 (a b : Byte) : BitVec 32 := BitVec.ofNat 32 (a.toNat + 256 * b.toNat)

/-- The first loop of `__rte_raw_cksum`, which adds four words a round: the rest of the buffer and
the sum. -/
def rawCksumFour : List Byte → BitVec 32 → List Byte × BitVec 32
  | a :: b :: c :: d :: e :: f :: g :: h :: buf, sum =>
    rawCksumFour buf (sum + u16 a b + u16 c d + u16 e f + u16 g h)
  | buf, sum => (buf, sum)

/-- The second loop, which adds one. -/
def rawCksumOne : List Byte → BitVec 32 → List Byte × BitVec 32
  | a :: b :: buf, sum => rawCksumOne buf (sum + u16 a b)
  | buf, sum => (buf, sum)

/-- `__rte_raw_cksum` -/
def rawCksum (buf : List Byte) (sum : BitVec 32) : BitVec 32 :=
  let four := rawCksumFour buf sum
  let one := rawCksumOne four.1 four.2
  match one.1 with
  | [a] => one.2 + a.setWidth 32
  | _ => one.2

/-- One of the two folds of `__rte_raw_cksum_reduce`. -/
def foldCarry (sum : BitVec 32) : BitVec 32 := ((sum &&& 0xFFFF0000) >>> 16) + (sum &&& 0x0000FFFF)

/-- `__rte_raw_cksum_reduce` -/
def rawCksumReduce (sum : BitVec 32) : BitVec 16 := (foldCarry (foldCarry sum)).setWidth 16

/-- `rte_raw_cksum` -/
def rteRawCksum (buf : List Byte) : BitVec 16 := rawCksumReduce (rawCksum buf 0)

/-- `rte_ipv4_cksum` -/
def rteIpv4Cksum (hdr : Ipv4Hdr) : BitVec 16 :=
  let cksum := rteRawCksum hdr.bytes
  if cksum = 0xFFFF then cksum else ~~~cksum

/-- The header with a checksum put in. -/
def Ipv4Hdr.withCksum (hdr : Ipv4Hdr) (cksum : BitVec 16) : Ipv4Hdr :=
  { hdr with hdrChecksum := cksum }

/-- `rte_be_to_cpu_16` -/
def rteBeToCpu16 (x : BitVec 16) : BitVec 16 := rteBswap16 x

/-- `PKT_TX_TCP_SEG` -/
def pktTxTcpSeg : BitVec 64 := 1 <<< 50

/-- The `struct ipv4_psd_header` of `rte_ipv4_phdr_cksum`, as it lies in memory. -/
def psdHdr (hdr : Ipv4Hdr) (olFlags : BitVec 64) : List Byte :=
  leBytes 4 hdr.srcAddr.toNat ++ leBytes 4 hdr.dstAddr.toNat ++ [0, hdr.nextProtoId] ++
    leBytes 2 (if olFlags &&& pktTxTcpSeg ≠ 0 then 0
      else rteCpuToBe16 (rteBeToCpu16 hdr.totalLength - BitVec.ofNat 16 ipv4HdrSize)).toNat

/-- `rte_ipv4_phdr_cksum` -/
def rteIpv4PhdrCksum (hdr : Ipv4Hdr) (olFlags : BitVec 64) : BitVec 16 :=
  rteRawCksum (psdHdr hdr olFlags)

/-- `rte_ipv4_udptcp_cksum`, where `l4Hdr` is the memory from the segment on; a length that exceeds
it would be read past its end. -/
def rteIpv4UdptcpCksum (hdr : Ipv4Hdr) (l4Hdr : List Byte) : BitVec 16 :=
  let l4Len := (rteBeToCpu16 hdr.totalLength).setWidth 32 - BitVec.ofNat 32 ipv4HdrSize
  let cksum := (rteRawCksum (l4Hdr.take l4Len.toNat)).setWidth 32 +
    (rteIpv4PhdrCksum hdr 0).setWidth 32
  let cksum := ~~~foldCarry cksum &&& 0x0000FFFF
  (if cksum = 0 then 0xFFFF else cksum).setWidth 16

/-! ## The loops -/

/-- What a loop has added and what it has left are together the sum of the words. -/
lemma rawCksumFour_spec (buf : List Byte) (sum : BitVec 32) :
    (rawCksumFour buf sum).2 + BitVec.ofNat 32 (hostWords (rawCksumFour buf sum).1).sum =
      sum + BitVec.ofNat 32 (hostWords buf).sum := by
  fun_induction rawCksumFour buf sum with
  | case1 a b c d e f g h buf sum ih =>
    rw [ih]
    simp only [hostWords, List.sum_cons, u16, BitVec.ofNat_add, BitVec.add_assoc]
  | case2 => rfl

lemma rawCksumOne_spec (buf : List Byte) (sum : BitVec 32) :
    (rawCksumOne buf sum).1.length ≤ 1 ∧
    (rawCksumOne buf sum).2 + BitVec.ofNat 32 (hostWords (rawCksumOne buf sum).1).sum =
      sum + BitVec.ofNat 32 (hostWords buf).sum := by
  fun_induction rawCksumOne buf sum with
  | case1 a b buf sum ih =>
    refine ⟨ih.1, ?_⟩
    rw [ih.2]
    simp only [hostWords, List.sum_cons, u16, BitVec.ofNat_add, BitVec.add_assoc]
  | case2 buf sum hshort =>
    refine ⟨?_, rfl⟩
    cases buf with
    | nil => exact Nat.zero_le _
    | cons a rest =>
      cases rest with
      | nil => exact le_refl _
      | cons b rest => exact absurd rfl (hshort a b rest)

/-- **The unrolled loop adds the words of the buffer**, the odd byte at the end included. -/
theorem rawCksum_eq (buf : List Byte) (sum : BitVec 32) :
    rawCksum buf sum = sum + BitVec.ofNat 32 (hostWords buf).sum := by
  obtain ⟨hlen, hone⟩ := rawCksumOne_spec (rawCksumFour buf sum).1 (rawCksumFour buf sum).2
  rw [rawCksumFour_spec] at hone
  rw [← hone, rawCksum]
  cases hrest : (rawCksumOne (rawCksumFour buf sum).1 (rawCksumFour buf sum).2).1 with
  | nil => simp [hostWords]
  | cons a rest =>
    rw [hrest, List.length_cons] at hlen
    obtain rfl : rest = [] := List.eq_nil_of_length_eq_zero (by omega)
    simp [hostWords]

lemma rawCksum_zero (buf : List Byte) :
    rawCksum buf 0 = BitVec.ofNat 32 (hostWords buf).sum := by
  rw [rawCksum_eq]
  exact BitVec.zero_add _

/-! ## The reduction -/

lemma toNat_foldCarry (sum : BitVec 32) :
    (foldCarry sum).toNat = sum.toNat / 65536 + sum.toNat % 65536 := by
  have hs := sum.isLt
  have hhigh : ((sum &&& 0xFFFF0000) >>> 16).toNat = sum.toNat / 65536 := by
    rw [BitVec.toNat_ushiftRight, BitVec.toNat_and, Nat.shiftRight_and_distrib,
      show BitVec.toNat (0xFFFF0000 : BitVec 32) >>> 16 = 2 ^ 16 - 1 by rfl,
      Nat.and_two_pow_sub_one_eq_mod, Nat.shiftRight_eq_div_pow]
    omega
  have hlow : (sum &&& 0x0000FFFF).toNat = sum.toNat % 65536 := by
    rw [BitVec.toNat_and, show BitVec.toNat (0x0000FFFF : BitVec 32) = 2 ^ 16 - 1 by rfl,
      Nat.and_two_pow_sub_one_eq_mod]
  rw [foldCarry, BitVec.toNat_add, hhigh, hlow, Nat.mod_eq_of_lt (by omega)]

/-- Two folds are enough. -/
lemma toNat_rawCksumReduce (sum : BitVec 32) : (rawCksumReduce sum).toNat =
    (sum.toNat / 65536 + sum.toNat % 65536) / 65536 +
      (sum.toNat / 65536 + sum.toNat % 65536) % 65536 := by
  have hs := sum.isLt
  have hsecond := toNat_foldCarry (foldCarry sum)
  rw [toNat_foldCarry sum] at hsecond
  rw [rawCksumReduce, BitVec.toNat_setWidth, Nat.mod_eq_of_lt (by omega), hsecond]

/-- A fold keeps the sum modulo 65535. -/
lemma fold_modEq (n : ℕ) : n / 65536 + n % 65536 ≡ n [MOD 65535] := by
  unfold Nat.ModEq
  omega

/-- **`rte_raw_cksum` is the sum of RFC 1071**, in the byte order of the host. -/
theorem toNat_rteRawCksum {buf : List Byte} (hlen : buf.length ≤ 131070) :
    (rteRawCksum buf).toNat = sum 65535 (hostWords buf) := by
  have hle := sum_hostWords_le buf
  have hsum : (rawCksum buf 0).toNat = (hostWords buf).sum := by
    rw [rawCksum_zero, BitVec.toNat_ofNat, Nat.mod_eq_of_lt (by omega)]
  have hlt := (rteRawCksum buf).isLt
  have hreduce := toNat_rawCksumReduce (rawCksum buf 0)
  rw [hsum] at hreduce
  change (rteRawCksum buf).toNat = _ at hreduce
  apply eq_sum (hostWords_le buf) (by omega)
  · rw [hreduce]
    exact (fold_modEq _).trans (fold_modEq _)
  · rw [hreduce]
    omega

/-- The same in the form the checksums need. -/
lemma rteRawCksum_spec {buf : List Byte} (hlen : buf.length ≤ 131070) :
    (rteRawCksum buf).toNat ≤ 65535 ∧
      (rteRawCksum buf).toNat ≡ (hostWords buf).sum [MOD 65535] := by
  obtain ⟨hle, hmod, -⟩ := sum_spec (hostWords_le buf)
  rw [toNat_rteRawCksum hlen]
  exact ⟨hle, hmod⟩

/-! ## The header checksum -/

/-- The complement that both checksums end with. -/
lemma complement_modEq {x : ℕ} {n : ℕ} (hx : x ≤ 65535) (hmod : x ≡ n [MOD 65535]) :
    65535 ∣ n + (if x = 65535 then 65535 else 65535 - x) := by
  have hsum : 65535 ∣ x + (if x = 65535 then 65535 else 65535 - x) := by
    split
    · exact ⟨2, by omega⟩
    · exact ⟨1, by omega⟩
  exact ((hmod.add_right _).dvd_iff (dvd_refl 65535)).mp hsum

lemma toNat_rteIpv4Cksum (hdr : Ipv4Hdr) :
    (rteIpv4Cksum hdr).toNat = if (rteRawCksum hdr.bytes).toNat = 65535 then 65535
      else 65535 - (rteRawCksum hdr.bytes).toNat := by
  have hiff : rteRawCksum hdr.bytes = 0xFFFF ↔ (rteRawCksum hdr.bytes).toNat = 65535 := by
    rw [← BitVec.toNat_inj]
    rfl
  unfold rteIpv4Cksum
  simp only [hiff]
  split
  · assumption
  · rw [BitVec.toNat_not]

lemma sum_hostWords_withCksum (hdr : Ipv4Hdr) (cksum : BitVec 16) :
    (hostWords (hdr.withCksum cksum).bytes).sum = hdr.ipSum.toNat + cksum.toNat :=
  (toNat_ipSum (hdr.withCksum cksum)).symm

/-- **The header checksum verifies**, of every header, and it is the one that
`initialize_ipv4_header` computes exactly when that drops no carry. -/
theorem ipv4_cksum_verifies (hdr : Ipv4Hdr) :
    Verifies (hdr.withCksum (rteIpv4Cksum (hdr.withCksum 0))).bytes ∧
    (ipCksum hdr.ipSum = rteIpv4Cksum (hdr.withCksum 0) ↔ FoldsOnce hdr.ipSum.toNat) := by
  have hsum : (hostWords (hdr.withCksum 0).bytes).sum = hdr.ipSum.toNat :=
    sum_hostWords_withCksum hdr 0
  have hlen : (hdr.withCksum 0).bytes.length ≤ 131070 := by
    rw [Ipv4Hdr.length_bytes, ipv4HdrSize]
    norm_num
  obtain ⟨hle, hmod⟩ := rteRawCksum_spec hlen
  rw [hsum] at hmod
  have hcksum := toNat_rteIpv4Cksum (hdr.withCksum 0)
  refine ⟨?_, ?_⟩
  · rw [verifies_iff, sum_hostWords_withCksum, hcksum]
    refine ⟨complement_modEq hle hmod, ?_⟩
    split <;> omega
  · have hraw : rawCksum (hdr.withCksum 0).bytes 0 = hdr.ipSum := by
      rw [rawCksum_zero, hsum, BitVec.ofNat_toNat, BitVec.setWidth_eq]
    have hreduce := toNat_rawCksumReduce (rawCksum (hdr.withCksum 0).bytes 0)
    change (rteRawCksum (hdr.withCksum 0).bytes).toNat = _ at hreduce
    rw [hraw] at hreduce
    have hs := hdr.ipSum.isLt
    rw [← BitVec.toNat_inj, hcksum, toNat_ipCksum, hreduce, FoldsOnce]
    split_ifs <;> omega

/-! ## The checksum of UDP and TCP -/

lemma length_psdHdr (hdr : Ipv4Hdr) (olFlags : BitVec 64) : (psdHdr hdr olFlags).length = 12 := by
  simp [psdHdr]

lemma toNat_rteIpv4UdptcpCksum (hdr : Ipv4Hdr) {l4Hdr : List Byte}
    (hlen : (rteBeToCpu16 hdr.totalLength).toNat = 20 + l4Hdr.length) :
    (rteIpv4UdptcpCksum hdr l4Hdr).toNat =
      let cksum := (rteRawCksum l4Hdr).toNat + (rteIpv4PhdrCksum hdr 0).toNat
      let cksum := cksum / 65536 + cksum % 65536
      if cksum = 65535 then 65535 else 65535 - cksum := by
  have htotal := (rteBeToCpu16 hdr.totalLength).isLt
  have htake : ((rteBeToCpu16 hdr.totalLength).setWidth 32 -
      BitVec.ofNat 32 ipv4HdrSize).toNat = l4Hdr.length := by
    rw [BitVec.toNat_sub, BitVec.toNat_setWidth, BitVec.toNat_ofNat, hlen, ipv4HdrSize]
    omega
  have hraw := (rteRawCksum l4Hdr).isLt
  have hphdr := (rteIpv4PhdrCksum hdr 0).isLt
  have hadd : ((rteRawCksum l4Hdr).setWidth 32 + (rteIpv4PhdrCksum hdr 0).setWidth 32).toNat =
      (rteRawCksum l4Hdr).toNat + (rteIpv4PhdrCksum hdr 0).toNat := by
    rw [BitVec.toNat_add, BitVec.toNat_setWidth, BitVec.toNat_setWidth]
    omega
  have hfold := toNat_foldCarry ((rteRawCksum l4Hdr).setWidth 32 +
    (rteIpv4PhdrCksum hdr 0).setWidth 32)
  rw [hadd] at hfold
  unfold rteIpv4UdptcpCksum
  simp only [htake, List.take_length]
  generalize foldCarry ((rteRawCksum l4Hdr).setWidth 32 +
    (rteIpv4PhdrCksum hdr 0).setWidth 32) = folded at hfold ⊢
  have hc : (~~~folded &&& 0x0000FFFF).toNat = 65535 - folded.toNat := by
    rw [BitVec.toNat_and, show BitVec.toNat (0x0000FFFF : BitVec 32) = 2 ^ 16 - 1 by rfl,
      Nat.and_two_pow_sub_one_eq_mod, BitVec.toNat_not]
    omega
  have hzero : ~~~folded &&& 0x0000FFFF = 0 ↔ folded.toNat = 65535 := by
    rw [← BitVec.toNat_inj, hc]
    change 65535 - folded.toNat = 0 ↔ _
    omega
  rw [← hfold]
  simp only [hzero]
  split
  · rfl
  · rw [BitVec.toNat_setWidth, hc]
    omega

/-- **The checksum of UDP and TCP verifies** over the pseudo-header and the segment, whatever the
segment holds and wherever in it, at an even offset, the checksum lies. It is never zero, which
would mean that there is none. -/
theorem udptcp_cksum_verifies (hdr : Ipv4Hdr) {front back : List Byte} (heven : 2 ∣ front.length)
    (hlen : (rteBeToCpu16 hdr.totalLength).toNat = 20 + (front ++ [0, 0] ++ back).length) :
    Verifies (psdHdr hdr 0 ++ (front ++
      leBytes 2 (rteIpv4UdptcpCksum hdr (front ++ [0, 0] ++ back)).toNat ++ back)) ∧
    rteIpv4UdptcpCksum hdr (front ++ [0, 0] ++ back) ≠ 0 := by
  have htotal := (rteBeToCpu16 hdr.totalLength).isLt
  have hcksum := toNat_rteIpv4UdptcpCksum hdr hlen
  obtain ⟨hraw, hrawMod⟩ := @rteRawCksum_spec (front ++ [0, 0] ++ back) (by omega)
  obtain ⟨hphdr, hphdrMod⟩ := @rteRawCksum_spec (psdHdr hdr 0) (by rw [length_psdHdr]; omega)
  change (rteIpv4PhdrCksum hdr 0).toNat ≤ _ at hphdr
  change (rteIpv4PhdrCksum hdr 0).toNat ≡ _ [MOD 65535] at hphdrMod
  have hpos : 0 < (rteIpv4UdptcpCksum hdr (front ++ [0, 0] ++ back)).toNat := by
    rw [hcksum]
    dsimp only
    split <;> omega
  have hlt := (rteIpv4UdptcpCksum hdr (front ++ [0, 0] ++ back)).isLt
  have hsegment : ∀ v < 65536, (hostWords (front ++ leBytes 2 v ++ back)).sum =
      v + ((hostWords front).sum + (hostWords back).sum) := by
    intro v hv
    rw [List.append_assoc, hostWords_append heven, hostWords_leBytes_two hv, List.sum_append,
      List.sum_cons]
    omega
  have hblank := hsegment 0 (by norm_num)
  rw [show leBytes 2 0 = [0, 0] from rfl] at hblank
  rw [hblank, zero_add] at hrawMod
  refine ⟨?_, fun hzero => ?_⟩
  · rw [verifies_iff, hostWords_append (by rw [length_psdHdr]; norm_num), List.sum_append,
      hsegment _ hlt]
    refine ⟨?_, by omega⟩
    have hfold := (fold_modEq ((rteRawCksum (front ++ [0, 0] ++ back)).toNat +
      (rteIpv4PhdrCksum hdr 0).toNat)).trans (hrawMod.add hphdrMod)
    have hdvd := complement_modEq (by omega) hfold
    dsimp only at hcksum
    rw [← hcksum] at hdvd
    rwa [show (hostWords (psdHdr hdr 0)).sum +
        ((rteIpv4UdptcpCksum hdr (front ++ [0, 0] ++ back)).toNat +
          ((hostWords front).sum + (hostWords back).sum)) =
      (hostWords front).sum + (hostWords back).sum + (hostWords (psdHdr hdr 0)).sum +
        (rteIpv4UdptcpCksum hdr (front ++ [0, 0] ++ back)).toNat by ring]
  · rw [hzero] at hpos
    exact absurd hpos (lt_irrefl 0)

/-- The datagram of `send_pkt`, with its length in network byte order. -/
theorem hello_world_udptcp_cksum :
    Verifies (psdHdr (ipHdr (IPv4 10 115 0 24) (IPv4 10 222 0 21) 12) 0 ++ ([0, 15, 0, 15, 0, 20] ++
      leBytes 2 (rteIpv4UdptcpCksum (ipHdr (IPv4 10 115 0 24) (IPv4 10 222 0 21) 12)
        ([0, 15, 0, 15, 0, 20] ++ [0, 0] ++ helloWorld)).toNat ++ helloWorld)) :=
  (udptcp_cksum_verifies _ (by decide) (by decide)).1

end NetLabs.Udp
