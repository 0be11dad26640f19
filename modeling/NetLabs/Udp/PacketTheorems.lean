import NetLabs.Lib.Inet
import NetLabs.Udp.Packet
import Mathlib.Tactic.IntervalCases

/-!
# What a receiver reads from a packet

The frame that `construct_pkt` builds is read back with the plain decoder of `Lib.Inet`. All
fields come out as they went in except the UDP length: it is stored in host byte order, so a
receiver reads it with its two bytes exchanged.
-/

namespace NetLabs.Udp

open NetLabs.Lib NetLabs.Lib.Bytes NetLabs.Lib.Inet

/-! ## Byte order -/

lemma leBytes_rteCpuToBe16 (x : BitVec 16) :
    leBytes 2 (rteCpuToBe16 x).toNat = beBytes 2 x.toNat := by
  simp only [beBytes, leBytes_toNat_succ, leBytes_zero, List.reverse_cons, List.reverse_nil,
    List.nil_append, List.cons_append, List.cons.injEq, and_true, rteCpuToBe16, rteBswap16]
  constructor
  all_goals
    ext i hi
    interval_cases i <;> simp

lemma leBytes_rteCpuToBe32 (x : BitVec 32) :
    leBytes 4 (rteCpuToBe32 x).toNat = beBytes 4 x.toNat := by
  simp only [beBytes, leBytes_toNat_succ, leBytes_zero, List.reverse_cons, List.reverse_nil,
    List.nil_append, List.cons_append, List.cons.injEq, and_true, rteCpuToBe32, rteBswap32]
  refine ⟨?_, ?_, ?_, ?_⟩
  all_goals
    ext i hi
    interval_cases i <;> simp

lemma ofBeBytes_rteCpuToBe16 (x : BitVec 16) :
    ofBeBytes (leBytes 2 (rteCpuToBe16 x).toNat) = x.toNat := by
  rw [leBytes_rteCpuToBe16, ofBeBytes_beBytes]
  exact Nat.mod_eq_of_lt x.isLt

lemma ofBeBytes_rteCpuToBe32 (x : BitVec 32) :
    ofBeBytes (leBytes 4 (rteCpuToBe32 x).toNat) = x.toNat := by
  rw [leBytes_rteCpuToBe32, ofBeBytes_beBytes]
  exact Nat.mod_eq_of_lt x.isLt

/-! ## Reading one header -/

lemma decode_ethHdr (sAddr : EtherAddr) (rest : List Byte) :
    EthernetFrame.decode ((ethHdr sAddr).bytes ++ rest) =
      some ⟨dAddr.toList, sAddr.toList, 0x0800, rest⟩ := by
  rw [EtherHdr.bytes, EthernetFrame.decode_append (by simp) (by simp) (by simp)]
  simp only [ethHdr, ofBeBytes_rteCpuToBe16]
  rfl

/-- The total length in the IPv4 header counts both headers and the data. -/
lemma decode_ipHdr (sIp dIp : BitVec 32) {datasize : BitVec 32} (hsize : datasize.toNat ≤ 1472)
    (rest : List Byte) :
    Ipv4Packet.decode ((ipHdr sIp dIp datasize).bytes ++ rest) = some {
      version := 4
      ihl := 5
      totalLength := 28 + datasize.toNat
      protocol := 17
      source := sIp.toNat
      destination := dIp.toNat
      payload := rest.take (8 + datasize.toNat) } := by
  -- 20 bytes of header are added to what `construct_pkt` passes
  have htotal : (BitVec.ofNat 16 (datasize.toNat + udpHdrSize) +
      BitVec.ofNat 16 ipv4HdrSize).toNat = 28 + datasize.toNat := by
    simp only [BitVec.toNat_add, BitVec.toNat_ofNat, udpHdrSize, ipv4HdrSize]
    omega
  have hihl : (ipHdr sIp dIp datasize).versionIhl.toNat % 16 = 5 := by
    rw [show (ipHdr sIp dIp datasize).versionIhl = ipVhlDef from rfl]
    decide
  rw [Ipv4Hdr.bytes, Ipv4Packet.decode_append (by simp) (by simp) (by simp) (by simp) (by simp)
    (by simp) _ _ _ _ hihl]
  simp only [ipHdr, initializeIpv4Header, ofBeBytes_rteCpuToBe16, ofBeBytes_rteCpuToBe32, htotal]
  rw [show 28 + datasize.toNat - 20 = 8 + datasize.toNat by omega]
  rfl

/-- What a receiver reads as the UDP length: the two bytes of `8 + n` exchanged. -/
def wireLength (n : ℕ) : ℕ := 256 * ((8 + n) % 256) + (8 + n) / 256

lemma decode_udpHdr {sPort dPort datasize : BitVec 32} (hs : sPort.toNat < 65536)
    (hd : dPort.toNat < 65536) (hsize : datasize.toNat ≤ 1472) (rest : List Byte) :
    UdpDatagram.decode ((udpHdr sPort dPort datasize).bytes ++ rest) =
      some ⟨sPort.toNat, dPort.toNat, wireLength datasize.toNat,
        rest.take (wireLength datasize.toNat - 8)⟩ := by
  -- the conversion to 16 bits loses nothing here
  have hlen : (BitVec.ofNat 16 (datasize.toNat + udpHdrSize)).toNat = 8 + datasize.toNat := by
    simp only [BitVec.toNat_ofNat, udpHdrSize]
    omega
  rw [UdpHdr.bytes, UdpDatagram.decode_append (by simp) (by simp) (by simp) (by simp)]
  simp only [udpHdr, ofBeBytes_rteCpuToBe16, BitVec.toNat_setWidth, Nat.reducePow,
    Nat.mod_eq_of_lt hs, Nat.mod_eq_of_lt hd, hlen]
  rw [ofBeBytes_leBytes_two (by omega), wireLength]

/-- Exchanging the bytes of the length changes nothing exactly for the multiples of 257. -/
lemma wireLength_eq_iff {n : ℕ} (hn : n ≤ 1472) : wireLength n = 8 + n ↔ 257 ∣ 8 + n := by
  rw [wireLength, Nat.dvd_iff_mod_eq_zero]
  omega

/-! ## The whole frame -/

section

variable {macaddrGet : BitVec 8 → EtherAddr} {mbuf : Mbuf} {sport : BitVec 32} {data : List Byte}
  {datasize sIp sPort dIp dPort : BitVec 32}

/-- Four writes, each behind the one before. -/
lemma take_four_writes {l eth ip udp data : List Byte} (hroom : l.length = dataRoom)
    (heth : eth.length = 14) (hip : ip.length = 20) (hudp : udp.length = 8)
    (hdata : 42 + data.length ≤ dataRoom) :
    (overwrite (overwrite (overwrite (overwrite l 0 eth) 14 ip) 34 udp) 42 data).take
      (42 + data.length) = eth ++ (ip ++ (udp ++ data)) := by
  rw [dataRoom] at hroom hdata
  rw [take_overwrite _ (by simpa only [length_overwrite, hroom] using hdata),
    take_overwrite_of_eq _ (by omega) (by simp only [length_overwrite]; omega),
    take_overwrite_of_eq _ (by omega) (by simp only [length_overwrite]; omega),
    take_overwrite_of_eq _ (by omega) (by omega)]
  simp only [List.take_zero, List.nil_append, List.append_assoc]

/-- `construct_pkt` leaves the three headers and the data one behind the other, and records the
length of all of them. -/
lemma constructPkt_spec (hdata : data.length = datasize.toNat) (hsize : datasize.toNat ≤ 1472) :
    ∃ m, constructPkt macaddrGet mbuf sport data datasize sIp sPort dIp dPort = some m ∧
      m.pktLen.toNat = 42 + datasize.toNat ∧ m.dataLen.toNat = 42 + datasize.toNat ∧
      m.frame = (ethHdr (macaddrGet (sport.setWidth 8))).bytes ++
        ((ipHdr sIp dIp datasize).bytes ++ ((udpHdr sPort dPort datasize).bytes ++ data)) := by
  have hfits : datasize.toNat ≤ data.length ∧
      etherHdrSize + ipv4HdrSize + udpHdrSize + datasize.toNat ≤ dataRoom := by
    simp only [etherHdrSize, ipv4HdrSize, udpHdrSize, dataRoom]
    omega
  have hlen : (BitVec.ofNat 32 (etherHdrSize + ipv4HdrSize + udpHdrSize + datasize.toNat)).toNat =
      42 + datasize.toNat := by
    simp only [BitVec.toNat_ofNat, etherHdrSize, ipv4HdrSize, udpHdrSize]
    omega
  have hlen16 : ((BitVec.ofNat 32
      (etherHdrSize + ipv4HdrSize + udpHdrSize + datasize.toNat)).setWidth 16).toNat =
      42 + datasize.toNat := by
    rw [BitVec.toNat_setWidth, hlen]
    omega
  refine ⟨_, by rw [constructPkt, if_pos hfits], hlen, hlen16, ?_⟩
  -- the copy takes all of `data`
  have htake : data.take datasize.toNat = data := List.take_of_length_le hdata.le
  rw [Mbuf.frame]
  show (overwrite _ 42 (data.take datasize.toNat)).take
    ((BitVec.ofNat 32 _).setWidth 16).toNat = _
  rw [hlen16, htake, ← hdata]
  exact take_four_writes mbuf.length_eq (EtherHdr.length_bytes _) (Ipv4Hdr.length_bytes _)
    (UdpHdr.length_bytes _) (by rw [dataRoom]; omega)

/-- What a receiver reads from the frame. -/
def received (sAddr : EtherAddr) (data : List Byte) (datasize sIp sPort dIp dPort : BitVec 32) :
    Headers where
  ethernet := ⟨dAddr.toList, sAddr.toList, 0x0800,
    (ipHdr sIp dIp datasize).bytes ++ ((udpHdr sPort dPort datasize).bytes ++ data)⟩
  ipv4 := ⟨4, 5, 28 + data.length, 17, sIp.toNat, dIp.toNat,
    (udpHdr sPort dPort datasize).bytes ++ data⟩
  udp := ⟨sPort.toNat, dPort.toNat, wireLength data.length,
    data.take (wireLength data.length - 8)⟩

lemma decode_frame {m : Mbuf} {sAddr : EtherAddr} (hdata : data.length = datasize.toNat)
    (hsize : datasize.toNat ≤ 1472) (hs : sPort.toNat < 65536) (hd : dPort.toNat < 65536)
    (hframe : m.frame = (ethHdr sAddr).bytes ++
      ((ipHdr sIp dIp datasize).bytes ++ ((udpHdr sPort dPort datasize).bytes ++ data))) :
    Headers.decode m.frame = some (received sAddr data datasize sIp sPort dIp dPort) := by
  -- the total length covers the datagram exactly
  have hall : ((udpHdr sPort dPort datasize).bytes ++ data).take (8 + datasize.toNat) =
      (udpHdr sPort dPort datasize).bytes ++ data := by
    apply List.take_of_length_le
    rw [List.length_append, UdpHdr.length_bytes, udpHdrSize, hdata]
  rw [hframe, Headers.decode, decode_ethHdr, received, hdata]
  simp only [Option.bind_eq_bind, Option.bind_some, decode_ipHdr sIp dIp hsize, hall,
    decode_udpHdr hs hd hsize]
  rfl

/-- `construct_pkt` followed by the decoder. -/
lemma decode_constructPkt (macaddrGet : BitVec 8 → EtherAddr) (mbuf : Mbuf) (sport : BitVec 32)
    (sIp dIp : BitVec 32) (hdata : data.length = datasize.toNat) (hsize : datasize.toNat ≤ 1472)
    (hs : sPort.toNat < 65536) (hd : dPort.toNat < 65536) :
    ∃ m, constructPkt macaddrGet mbuf sport data datasize sIp sPort dIp dPort = some m ∧
      m.pktLen.toNat = 42 + data.length ∧ m.dataLen.toNat = 42 + data.length ∧
      Headers.decode m.frame = some
        (received (macaddrGet (sport.setWidth 8)) data datasize sIp sPort dIp dPort) := by
  obtain ⟨m, hm, hpkt, hseg, hframe⟩ := constructPkt_spec hdata hsize
  exact ⟨m, hm, hdata ▸ hpkt, hdata ▸ hseg, decode_frame hdata hsize hs hd hframe⟩

end

/-! ## What comes back -/

/-- The fields of the three headers apart from the UDP length, for `n` bytes of data. -/
structure Addressed (h : Headers) (n : ℕ) (sIp sPort dIp dPort : BitVec 32) : Prop where
  etherType : h.ethernet.etherType = 0x0800
  version : h.ipv4.version = 4
  ihl : h.ipv4.ihl = 5
  protocol : h.ipv4.protocol = 17
  totalLength : h.ipv4.totalLength = 28 + n
  source : h.ipv4.source = sIp.toNat
  destination : h.ipv4.destination = dIp.toNat
  sourcePort : h.udp.sourcePort = sPort.toNat
  destinationPort : h.udp.destinationPort = dPort.toNat

/-- A decoder finds in the mbuf's frame what was to be sent, and the mbuf has the right length. -/
def Recovered (m : Mbuf) (data : List Byte) (sIp sPort dIp dPort : BitVec 32) : Prop :=
  m.pktLen.toNat = 42 + data.length ∧ m.dataLen.toNat = 42 + data.length ∧
    ∃ h, Headers.decode m.frame = some h ∧ Addressed h data.length sIp sPort dIp dPort ∧
      h.udp.length = 8 + data.length ∧ h.udp.payload = data

lemma addressed_received (sAddr : EtherAddr) (data : List Byte)
    (datasize sIp sPort dIp dPort : BitVec 32) :
    Addressed (received sAddr data datasize sIp sPort dIp dPort) data.length sIp sPort dIp dPort :=
  ⟨rfl, rfl, rfl, rfl, rfl, rfl, rfl, rfl, rfl⟩

/-- What decides whether the packet comes back is the UDP length alone. -/
lemma recovered_of_decode {m : Mbuf} {sAddr : EtherAddr} {data : List Byte}
    {datasize sIp sPort dIp dPort : BitVec 32} (hpkt : m.pktLen.toNat = 42 + data.length)
    (hseg : m.dataLen.toNat = 42 + data.length)
    (hdec : Headers.decode m.frame = some (received sAddr data datasize sIp sPort dIp dPort)) :
    Recovered m data sIp sPort dIp dPort ↔ wireLength data.length = 8 + data.length := by
  constructor
  · rintro ⟨-, -, h, hh, -, hlen, -⟩
    rw [hdec, Option.some_inj] at hh
    rwa [← hh] at hlen
  · intro hlen
    refine ⟨hpkt, hseg, _, hdec, addressed_received _ _ _ _ _ _ _, hlen, ?_⟩
    -- with the right length the decoder takes all of the data
    apply List.take_of_length_le
    omega

/-- **A receiver reads what was sent exactly if the two bytes of the UDP length are equal.** The
other fields are always right, and so is the data if its length is taken from the IPv4 header. -/
theorem recovered_iff (macaddrGet : BitVec 8 → EtherAddr) (mbuf : Mbuf) (sport : BitVec 32)
    (data : List Byte) (datasize sIp sPort dIp dPort : BitVec 32)
    (hdata : data.length = datasize.toNat) (hsize : datasize.toNat ≤ 1472)
    (hs : sPort.toNat < 65536) (hd : dPort.toNat < 65536) :
    ∃ m, constructPkt macaddrGet mbuf sport data datasize sIp sPort dIp dPort = some m ∧
      m.pktLen.toNat = 42 + data.length ∧ m.dataLen.toNat = 42 + data.length ∧
      (∃ h, Headers.decode m.frame = some h ∧ Addressed h data.length sIp sPort dIp dPort ∧
        h.ipv4.payload.drop 8 = data) ∧
      (Recovered m data sIp sPort dIp dPort ↔ 257 ∣ 8 + data.length) := by
  obtain ⟨m, hm, hpkt, hseg, hdec⟩ :=
    decode_constructPkt macaddrGet mbuf sport sIp dIp hdata hsize hs hd
  refine ⟨m, hm, hpkt, hseg, ⟨_, hdec, addressed_received _ _ _ _ _ _ _, ?_⟩, ?_⟩
  · exact List.drop_left' (UdpHdr.length_bytes _)
  · rw [recovered_of_decode hpkt hseg hdec, wireLength_eq_iff (by omega)]

/-- An mbuf as it comes from a fresh pool. -/
def freshMbuf : Mbuf := ⟨List.replicate dataRoom 0, 0, 0, List.length_replicate⟩

/-- 249 bytes of data have the length `0x0101`. -/
theorem recovered_249_bytes : ∃ m,
    constructPkt (fun _ => dAddr) freshMbuf 0 (List.replicate 249 0x61) 249 (IPv4 10 115 0 24) 15
      (IPv4 10 222 0 21) 15 = some m ∧
    Recovered m (List.replicate 249 0x61) (IPv4 10 115 0 24) 15 (IPv4 10 222 0 21) 15 := by
  obtain ⟨m, hm, -, -, -, hiff⟩ := recovered_iff (fun _ => dAddr) freshMbuf 0
    (List.replicate 249 0x61) 249 (IPv4 10 115 0 24) 15 (IPv4 10 222 0 21) 15
    List.length_replicate (by decide) (by decide) (by decide)
  exact ⟨m, hm, hiff.mpr (by rw [List.length_replicate])⟩

/-- **The packet of `send_pkt` is not read back.** Its datagram has 20 bytes and a receiver
reads the length 5120. -/
theorem hello_world_not_recovered : ∃ m h,
    sendPkt (fun _ => dAddr) freshMbuf = some m ∧ Headers.decode m.frame = some h ∧
      h.ipv4.totalLength = 40 ∧ h.udp.length = 5120 ∧
      ¬ Recovered m helloWorld (IPv4 10 115 0 24) 15 (IPv4 10 222 0 21) 15 := by
  obtain ⟨m, hm, hpkt, hseg, hdec⟩ := decode_constructPkt (fun _ => dAddr) freshMbuf 0
    (IPv4 10 115 0 24) (IPv4 10 222 0 21) (show helloWorld.length = (12 : BitVec 32).toNat from rfl)
    (by decide) (show (15 : BitVec 32).toNat < 65536 by decide)
    (show (15 : BitVec 32).toNat < 65536 by decide)
  refine ⟨m, _, hm, hdec, rfl, rfl, ?_⟩
  rw [recovered_of_decode hpkt hseg hdec]
  decide

end NetLabs.Udp
