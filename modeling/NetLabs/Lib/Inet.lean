import NetLabs.Lib.Bytes

/-!
# Internet headers on the wire

A plain reader for Ethernet II frames that carry an IPv4 packet that carries a UDP datagram.
Every field of more than one byte is in network byte order. The reader does not judge what it
finds, it only needs the fixed part of each header to be there: a packet ends where its own
length field says, or where the bytes around it end.
-/

namespace NetLabs.Lib.Inet

open NetLabs.Lib.Bytes

/-! ## Ethernet -/

structure EthernetFrame where
  destination : List Byte
  source : List Byte
  etherType : ℕ
  payload : List Byte
deriving DecidableEq

def EthernetFrame.decode (bs : List Byte) : Option EthernetFrame :=
  if bs.length < 14 then none
  else some {
    destination := slice bs 0 6
    source := slice bs 6 6
    etherType := ofBeBytes (slice bs 12 2)
    payload := bs.drop 14 }

lemma EthernetFrame.decode_append {dst src type : List Byte} (hdst : dst.length = 6)
    (hsrc : src.length = 6) (htype : type.length = 2) (rest : List Byte) :
    decode (dst ++ src ++ type ++ rest) = some ⟨dst, src, ofBeBytes type, rest⟩ := by
  have hlen : ¬ (dst ++ src ++ type ++ rest).length < 14 := by
    simp only [List.length_append]; omega
  have h6 : (dst ++ (src ++ (type ++ rest))).drop 6 = src ++ (type ++ rest) :=
    List.drop_left' hdst
  have h12 : (dst ++ (src ++ (type ++ rest))).drop 12 = type ++ rest := by
    rw [show 12 = 6 + 6 from rfl, ← List.drop_drop, h6, List.drop_left' hsrc]
  have h14 : (dst ++ (src ++ (type ++ rest))).drop 14 = rest := by
    rw [show 14 = 12 + 2 from rfl, ← List.drop_drop, h12, List.drop_left' htype]
  rw [decode, if_neg hlen]
  simp only [slice, List.append_assoc, h6, h12, h14, List.drop_zero, List.take_left' hdst,
    List.take_left' hsrc, List.take_left' htype]

/-! ## IPv4 -/

structure Ipv4Packet where
  version : ℕ
  /-- header length in words of four bytes -/
  ihl : ℕ
  totalLength : ℕ
  protocol : ℕ
  source : ℕ
  destination : ℕ
  payload : List Byte
deriving DecidableEq

def Ipv4Packet.decode (bs : List Byte) : Option Ipv4Packet :=
  if bs.length < 20 then none
  else
    let versionIhl := ofBeBytes (slice bs 0 1)
    let ihl := versionIhl % 16
    let totalLength := ofBeBytes (slice bs 2 2)
    some {
      version := versionIhl / 16
      ihl := ihl
      totalLength := totalLength
      protocol := ofBeBytes (slice bs 9 1)
      source := ofBeBytes (slice bs 12 4)
      destination := ofBeBytes (slice bs 16 4)
      payload := slice bs (4 * ihl) (totalLength - 4 * ihl) }

/-- Reading a header without options. -/
lemma Ipv4Packet.decode_append {len ident frag ck src dst : List Byte}
    (hlen : len.length = 2) (hident : ident.length = 2) (hfrag : frag.length = 2)
    (hck : ck.length = 2) (hsrc : src.length = 4) (hdst : dst.length = 4)
    (versionIhl tos ttl protocol : Byte) (hihl : versionIhl.toNat % 16 = 5) (rest : List Byte) :
    decode ([versionIhl, tos] ++ len ++ ident ++ frag ++ [ttl, protocol] ++ ck ++ src ++ dst ++
      rest) = some {
        version := versionIhl.toNat / 16
        ihl := 5
        totalLength := ofBeBytes len
        protocol := protocol.toNat
        source := ofBeBytes src
        destination := ofBeBytes dst
        payload := rest.take (ofBeBytes len - 20) } := by
  obtain ⟨l₀, l₁, rfl⟩ := List.length_eq_two.mp hlen
  obtain ⟨i₀, i₁, rfl⟩ := List.length_eq_two.mp hident
  obtain ⟨f₀, f₁, rfl⟩ := List.length_eq_two.mp hfrag
  obtain ⟨c₀, c₁, rfl⟩ := List.length_eq_two.mp hck
  match src, hsrc with
  | [s₀, s₁, s₂, s₃], _ =>
    match dst, hdst with
    | [d₀, d₁, d₂, d₃], _ =>
      simp [decode, slice, hihl, ofBeBytes, ofLeBytes]

/-! ## UDP -/

structure UdpDatagram where
  sourcePort : ℕ
  destinationPort : ℕ
  length : ℕ
  payload : List Byte
deriving DecidableEq

def UdpDatagram.decode (bs : List Byte) : Option UdpDatagram :=
  if bs.length < 8 then none
  else
    let length := ofBeBytes (slice bs 4 2)
    some {
      sourcePort := ofBeBytes (slice bs 0 2)
      destinationPort := ofBeBytes (slice bs 2 2)
      length := length
      payload := slice bs 8 (length - 8) }

lemma UdpDatagram.decode_append {sport dport len ck : List Byte} (hsport : sport.length = 2)
    (hdport : dport.length = 2) (hlen : len.length = 2) (hck : ck.length = 2) (rest : List Byte) :
    decode (sport ++ dport ++ len ++ ck ++ rest) =
      some ⟨ofBeBytes sport, ofBeBytes dport, ofBeBytes len, rest.take (ofBeBytes len - 8)⟩ := by
  obtain ⟨s₀, s₁, rfl⟩ := List.length_eq_two.mp hsport
  obtain ⟨d₀, d₁, rfl⟩ := List.length_eq_two.mp hdport
  obtain ⟨l₀, l₁, rfl⟩ := List.length_eq_two.mp hlen
  obtain ⟨c₀, c₁, rfl⟩ := List.length_eq_two.mp hck
  simp [decode, slice]
/-! ## The three headers of a frame -/

structure Headers where
  ethernet : EthernetFrame
  ipv4 : Ipv4Packet
  udp : UdpDatagram
deriving DecidableEq

def Headers.decode (frame : List Byte) : Option Headers := do
  let ethernet ← EthernetFrame.decode frame
  let ipv4 ← Ipv4Packet.decode ethernet.payload
  let udp ← UdpDatagram.decode ipv4.payload
  return ⟨ethernet, ipv4, udp⟩

end NetLabs.Lib.Inet
