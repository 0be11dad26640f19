import NetLabs.Lib.Bytes

/-!
# Building a UDP packet

`lab2/udp/main.c` fills an mbuf with one Ethernet frame. The headers are the packed structures
of `rte_ether.h`, `rte_ip.h` and `rte_udp.h`; the host is little-endian, so a field of more than
one byte lies in memory as `leBytes` of the value the code assigns to it.
-/

namespace NetLabs.Udp

open NetLabs.Lib NetLabs.Lib.Bytes

/-! ## `rte_byteorder.h` -/

/-- `rte_constant_bswap16` -/
def rteBswap16 (x : BitVec 16) : BitVec 16 :=
  ((x &&& 0x00ff) <<< 8) ||| ((x &&& 0xff00) >>> 8)

/-- `rte_constant_bswap32` -/
def rteBswap32 (x : BitVec 32) : BitVec 32 :=
  ((x &&& 0x000000ff) <<< 24) ||| ((x &&& 0x0000ff00) <<< 8) |||
    ((x &&& 0x00ff0000) >>> 8) ||| ((x &&& 0xff000000) >>> 24)

/-- `rte_cpu_to_be_16` on a little-endian host -/
def rteCpuToBe16 (x : BitVec 16) : BitVec 16 := rteBswap16 x

/-- `rte_cpu_to_be_32` on a little-endian host -/
def rteCpuToBe32 (x : BitVec 32) : BitVec 32 := rteBswap32 x

/-! ## The headers -/

/-- `struct ether_addr` -/
abbrev EtherAddr := Vector Byte 6

/-- `struct ether_hdr` -/
structure EtherHdr where
  dAddr : EtherAddr
  sAddr : EtherAddr
  etherType : BitVec 16

/-- `struct ipv4_hdr` -/
structure Ipv4Hdr where
  versionIhl : BitVec 8
  typeOfService : BitVec 8
  totalLength : BitVec 16
  packetId : BitVec 16
  fragmentOffset : BitVec 16
  timeToLive : BitVec 8
  nextProtoId : BitVec 8
  hdrChecksum : BitVec 16
  srcAddr : BitVec 32
  dstAddr : BitVec 32

/-- `struct udp_hdr` -/
structure UdpHdr where
  srcPort : BitVec 16
  dstPort : BitVec 16
  dgramLen : BitVec 16
  dgramCksum : BitVec 16

def EtherHdr.bytes (hdr : EtherHdr) : List Byte :=
  hdr.dAddr.toList ++ hdr.sAddr.toList ++ leBytes 2 hdr.etherType.toNat

def Ipv4Hdr.bytes (hdr : Ipv4Hdr) : List Byte :=
  [hdr.versionIhl, hdr.typeOfService] ++ leBytes 2 hdr.totalLength.toNat ++
    leBytes 2 hdr.packetId.toNat ++ leBytes 2 hdr.fragmentOffset.toNat ++
    [hdr.timeToLive, hdr.nextProtoId] ++ leBytes 2 hdr.hdrChecksum.toNat ++
    leBytes 4 hdr.srcAddr.toNat ++ leBytes 4 hdr.dstAddr.toNat

def UdpHdr.bytes (hdr : UdpHdr) : List Byte :=
  leBytes 2 hdr.srcPort.toNat ++ leBytes 2 hdr.dstPort.toNat ++
    leBytes 2 hdr.dgramLen.toNat ++ leBytes 2 hdr.dgramCksum.toNat

/-- `sizeof(struct ether_hdr)` -/
def etherHdrSize : ℕ := 14

/-- `sizeof(struct ipv4_hdr)` -/
def ipv4HdrSize : ℕ := 20

/-- `sizeof(struct udp_hdr)` -/
def udpHdrSize : ℕ := 8

@[simp] lemma EtherHdr.length_bytes (hdr : EtherHdr) : hdr.bytes.length = etherHdrSize := by
  simp [bytes, etherHdrSize]

@[simp] lemma Ipv4Hdr.length_bytes (hdr : Ipv4Hdr) : hdr.bytes.length = ipv4HdrSize := by
  simp [bytes, ipv4HdrSize]

@[simp] lemma UdpHdr.length_bytes (hdr : UdpHdr) : hdr.bytes.length = udpHdrSize := by
  simp [bytes, udpHdrSize]

/-- The header after `memset(ip_hdr, 0, ..)` -/
def Ipv4Hdr.zero : Ipv4Hdr := ⟨0, 0, 0, 0, 0, 0, 0, 0, 0, 0⟩

/-- The header after `memset(udp, 0, ..)` -/
def UdpHdr.zero : UdpHdr := ⟨0, 0, 0, 0⟩

/-! ## `initialize_ipv4_header` -/

/-- `IP_VHL_DEF` -/
def ipVhlDef : BitVec 8 := 0x40 ||| 0x05

/-- `IP_DEFTTL` -/
def ipDefttl : BitVec 8 := 64

/-- `IPPROTO_UDP` -/
def ipprotoUdp : BitVec 8 := 17

/-- `ptr16[i]` where `ptr16` points to the header -/
def Ipv4Hdr.ptr16 (hdr : Ipv4Hdr) (i : ℕ) : BitVec 32 :=
  BitVec.ofNat 32 (ofLeBytes (slice hdr.bytes (2 * i) 2))

/-- The 32-bit sum over the header without its checksum word. -/
def Ipv4Hdr.ipSum (hdr : Ipv4Hdr) : BitVec 32 :=
  hdr.ptr16 0 + hdr.ptr16 1 + hdr.ptr16 2 + hdr.ptr16 3 + hdr.ptr16 4 +
    hdr.ptr16 6 + hdr.ptr16 7 + hdr.ptr16 8 + hdr.ptr16 9

/-- Reduces the sum to 16 bits and complements it. -/
def ipCksum (sum : BitVec 32) : BitVec 16 :=
  let folded := ((sum &&& 0xFFFF0000) >>> 16) + (sum &&& 0x0000FFFF)
  let reduced := folded % 65536
  let complement := ~~~reduced &&& 0x0000FFFF
  (if complement = 0 then 0xFFFF else complement).setWidth 16

/-- `initialize_ipv4_header`: the header it leaves and the length it returns. -/
def initializeIpv4Header (hdr : Ipv4Hdr) (srcAddr dstAddr : BitVec 32) (pktDataLen : BitVec 16) :
    Ipv4Hdr × BitVec 16 :=
  let pktLen := pktDataLen + BitVec.ofNat 16 ipv4HdrSize
  let hdr := { hdr with
    versionIhl := ipVhlDef
    typeOfService := 0
    fragmentOffset := 0
    timeToLive := ipDefttl
    nextProtoId := ipprotoUdp
    packetId := 0
    totalLength := rteCpuToBe16 pktLen
    srcAddr := rteCpuToBe32 srcAddr
    dstAddr := rteCpuToBe32 dstAddr }
  ({ hdr with hdrChecksum := ipCksum hdr.ipSum }, pktLen)

/-! ## `construct_pkt` -/

/-- `RTE_MBUF_DEFAULT_DATAROOM` -/
def dataRoom : ℕ := 2048

/-- The part of `struct rte_mbuf` that is used here: the data room behind the headroom and the
two lengths. -/
structure Mbuf where
  data : List Byte
  pktLen : BitVec 32
  dataLen : BitVec 16
  length_eq : data.length = dataRoom

/-- `memcpy` into the data room -/
def Mbuf.write (m : Mbuf) (off : ℕ) (bs : List Byte) : Mbuf :=
  { m with
    data := overwrite m.data off bs
    length_eq := by rw [length_overwrite, m.length_eq] }

/-- The frame in the mbuf: the first `data_len` bytes of the data room. -/
def Mbuf.frame (m : Mbuf) : List Byte := m.data.take m.dataLen.toNat

/-- `ETHER_TYPE_IPv4` -/
def etherTypeIPv4 : BitVec 16 := 0x0800

/-- The hardware address all packets are sent to. -/
def dAddr : EtherAddr := #v[0xfa, 0x16, 0x3e, 0x9a, 0xc0, 0x49]

/-- The Ethernet header of a packet. -/
def ethHdr (sAddr : EtherAddr) : EtherHdr :=
  { dAddr := dAddr
    sAddr := sAddr
    etherType := rteCpuToBe16 etherTypeIPv4 }

/-- The IPv4 header of a packet. -/
def ipHdr (sIp dIp datasize : BitVec 32) : Ipv4Hdr :=
  (initializeIpv4Header .zero sIp dIp (BitVec.ofNat 16 (datasize.toNat + udpHdrSize))).1

/-- The UDP header of a packet. The length is assigned as it is, without `rte_cpu_to_be_16`. -/
def udpHdr (sPort dPort datasize : BitVec 32) : UdpHdr :=
  { UdpHdr.zero with
    srcPort := rteCpuToBe16 (sPort.setWidth 16)
    dstPort := rteCpuToBe16 (dPort.setWidth 16)
    dgramLen := BitVec.ofNat 16 (datasize.toNat + udpHdrSize)
    dgramCksum := 0 }

/-- `construct_pkt`. The mbuf is the one `rte_pktmbuf_alloc` returns, whatever its data room
holds; `macaddrGet` is `rte_eth_macaddr_get`. The result is `none` where the last `memcpy` would
read past `data` or write past the data room, which the code does not check. The checksum reads the
IPv4 header through its bytes, as the code writes it down; it does so through a `uint16_t *`, and
the makefile builds with `-O3` and without `-fno-strict-aliasing`, under which the compiler may
leave the two addresses that are stored after the `memset` out of the sum. -/
def constructPkt (macaddrGet : BitVec 8 → EtherAddr) (mbuf : Mbuf) (sport : BitVec 32)
    (data : List Byte) (datasize sIp sPort dIp dPort : BitVec 32) : Option Mbuf :=
  let mbuf := mbuf.write 0 (ethHdr (macaddrGet (sport.setWidth 8))).bytes
  let mbuf := mbuf.write etherHdrSize (ipHdr sIp dIp datasize).bytes
  let mbuf := mbuf.write (etherHdrSize + ipv4HdrSize) (udpHdr sPort dPort datasize).bytes
  let pktLen := BitVec.ofNat 32 (etherHdrSize + ipv4HdrSize + udpHdrSize + datasize.toNat)
  let mbuf := { mbuf with pktLen := pktLen, dataLen := pktLen.setWidth 16 }
  let buf := etherHdrSize + ipv4HdrSize + udpHdrSize
  if datasize.toNat ≤ data.length ∧ buf + datasize.toNat ≤ dataRoom then
    some (mbuf.write buf (data.take datasize.toNat))
  else none

/-! ## `send_pkt` -/

/-- `IPv4(a, b, c, d)` of `rte_ip.h` -/
def IPv4 (a b c d : BitVec 32) : BitVec 32 :=
  ((a &&& 0xff) <<< 24) ||| ((b &&& 0xff) <<< 16) ||| ((c &&& 0xff) <<< 8) ||| (d &&& 0xff)

/-- The string `"hello world"` with its terminating zero. -/
def helloWorld : List Byte :=
  [0x68, 0x65, 0x6c, 0x6c, 0x6f, 0x20, 0x77, 0x6f, 0x72, 0x6c, 0x64, 0x00]

/-- The one packet that `send_pkt` builds and sends. -/
def sendPkt (macaddrGet : BitVec 8 → EtherAddr) (mbuf : Mbuf) : Option Mbuf :=
  constructPkt macaddrGet mbuf 0 helloWorld 12 (IPv4 10 115 0 24) 15 (IPv4 10 222 0 21) 15

end NetLabs.Udp
