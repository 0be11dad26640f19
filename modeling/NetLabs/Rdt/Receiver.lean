import NetLabs.Lib.Ring
import NetLabs.Lib.While
import NetLabs.Rdt.Check

/-!
# The receiver

`rdt_receiver.cc`. As for the sender, the static variables are the fields of `Receiver`, and
what the source leaves open is an argument:

* `window` comes from `malloc`, so its first contents are an argument of `Receiver.init`;
* so do the blocks of `cur_msg->data`: `fresh e` are the bytes of the block that is allocated
  while packet number `e` is consumed (each number is consumed at most once);
* the local `packet pkt` of `Receiver_Ack` is not initialised, and all of it is transmitted.

A `memcpy` into `cur_msg->data` that would leave the block, or read past the packet, is cut off
at the end; `malloc` of a negative size gives an empty block. In `HeapReceiver` these are faults,
and a receiver without faults does what this one does (`HeapReceiver.fromLowerLayer_spec`).
-/

namespace NetLabs.Rdt

open NetLabs.Lib NetLabs.Lib.Bytes

/-- `WINDOWS_SIZE` -/
abbrev windowsSize : ℕ := 10

instance : NeZero windowsSize := ⟨by decide⟩

/-- The conversion from `int` to `size_t`. -/
def sizeT (n : ℤ) : ℕ := (n % 2 ^ 64).toNat

/-- `Receiver_Ack`: the packet it hands to the lower layer. -/
def receiverAck (junk : Packet) (ack : ℤ) : Packet :=
  rdtAddChecksum (junk.write checksumSize (intBytes ack))

/-! ## Reassembly -/

/-- The message under construction: `*cur_msg` and `cursor`. -/
structure Assembly where
  curMsg : Message
  cursor : ℤ
deriving DecidableEq

namespace Assembly

/-- The first packet of a message: read the size, allocate, copy what is behind the size. Of a copy
that is too long only the part that fits is made (`HeapAssembly.firstPacket` has the fault). -/
def firstPacket (fresh : ℕ → Byte) (pkt : Packet) (a : Assembly) : Assembly :=
  let size := readInt (slice pkt.data headerSize 4)
  -- what `malloc` returned, to be overwritten from its start
  let block := (List.range size.toNat).map fresh
  { curMsg := ⟨size, overwrite block 0
      (slice pkt.data (headerSize + 4) (sizeT (pkt.payloadSize - 4)))⟩
    cursor := a.cursor + (pkt.payloadSize - 4) }

/-- A later packet: copy behind the cursor, as much as fits (`HeapAssembly.laterPacket` has the
fault). -/
def laterPacket (pkt : Packet) (a : Assembly) : Assembly where
  curMsg := { a.curMsg with
    data := overwrite a.curMsg.data a.cursor.toNat
      (slice pkt.data headerSize (sizeT pkt.payloadSize)) }
  cursor := a.cursor + pkt.payloadSize

/-- The packet's part of the message; `cursor == 0` stands for a new message. -/
def copy (fresh : ℕ → Byte) (pkt : Packet) (a : Assembly) : Assembly :=
  if a.cursor = 0 then a.firstPacket fresh pkt else a.laterPacket pkt

/-- Hands the message to the upper layer if it is complete. -/
def deliver (a : Assembly) : Assembly × List Message :=
  if a.curMsg.size = a.cursor then ({ a with cursor := 0 }, [a.curMsg]) else (a, [])

/-- What the loop does with the contents of one packet. -/
def consume (fresh : ℕ → Byte) (pkt : Packet) (a : Assembly) : Assembly × List Message :=
  (a.copy fresh pkt).deliver

end Assembly

/-! ## `Receiver_FromLowerLayer` -/

/-- The static variables of `rdt_receiver.cc`. -/
structure Receiver extends Assembly where
  expected : ℤ
  window : Ring windowsSize Packet
  validChecks : Ring windowsSize Bool

namespace Receiver

/-- `Receiver_Init`, with the contents `malloc` returned for `window`. -/
def init (window : Ring windowsSize Packet) : Receiver where
  curMsg := ⟨0, []⟩
  cursor := 0
  expected := 0
  window := window
  validChecks := Ring.fill windowsSize false

/-- A packet that arrived early is stored, unless its slot is taken. -/
def store (pkt : Packet) (r : Receiver) : Receiver :=
  if r.validChecks.get pkt.seq then r
  else { r with
    window := r.window.set pkt.seq pkt
    validChecks := r.validChecks.set pkt.seq true }

/-- The variables of the consuming loop: the statics, the locals `pkt` and `packet_seq`,
whether the loop has not been left yet, the packets consumed and the messages handed to the
upper layer so far. -/
structure Consume where
  rcv : Receiver
  pkt : Packet
  packetSeq : ℤ
  running : Bool
  consumed : List Packet
  delivered : List Message

/-- One round of the loop. -/
def Consume.body (fresh : ℤ → ℕ → Byte) (c : Consume) : Consume :=
  let r := c.rcv.toAssembly.consume (fresh c.rcv.expected) c.pkt
  let next := c.rcv.expected + 1
  let rcv := { c.rcv with toAssembly := r.1, expected := next }
  let c' := { c with
    rcv := rcv
    consumed := c.consumed ++ [c.pkt]
    delivered := c.delivered ++ r.2 }
  -- a packet that came early is the next one to be consumed
  if rcv.validChecks.get next then
    { c' with
      pkt := rcv.window.get next
      packetSeq := (rcv.window.get next).seq
      rcv := { rcv with validChecks := rcv.validChecks.set next false } }
  else { c' with running := false }

/-- What the handler leaves behind: the statics, the packets it consumed, and the messages
and acks it handed on. -/
structure Outcome where
  rcv : Receiver
  consumed : List Packet
  delivered : List Message
  acks : List Packet

/-- `Receiver_FromLowerLayer`. Every round of the loop but the last clears one of the ten
entries of `valid_checks`, so `WINDOWS_SIZE + 1` rounds are always enough
(`fromLowerLayer_isSome`). -/
def fromLowerLayer (fresh : ℤ → ℕ → Byte) (junk : Packet) (pkt : Packet) (r : Receiver) :
    Option Outcome :=
  if !rdtVerifyChecksum pkt then some ⟨r, [], [], []⟩
  else if r.expected < pkt.seq ∧ pkt.seq < r.expected + windowsSize then
    some ⟨r.store pkt, [], [], [receiverAck junk (r.expected - 1)]⟩
  else if pkt.seq ≠ r.expected then some ⟨r, [], [], [receiverAck junk (r.expected - 1)]⟩
  else do
    let c ← While.run Consume.running (Consume.body fresh) (windowsSize + 1)
      ⟨r, pkt, pkt.seq, true, [], []⟩
    return ⟨c.rcv, c.consumed, c.delivered, [receiverAck junk c.packetSeq]⟩

end Receiver

/-! ## Runs of the receiver -/

/-- The receiver in its surroundings: the packets it consumed, the messages it handed to the
upper layer and the acks it handed to the lower layer, each in order. -/
structure ReceiverSys where
  rcv : Receiver
  consumed : List Packet
  delivered : List Message
  acks : List Packet

namespace ReceiverSys

/-- After `Receiver_Init`. -/
def init (window : Ring windowsSize Packet) : ReceiverSys := ⟨.init window, [], [], []⟩

/-- The state after a call that had `o` as its outcome. -/
def absorb (ρ : ReceiverSys) (o : Receiver.Outcome) : ReceiverSys where
  rcv := o.rcv
  consumed := ρ.consumed ++ o.consumed
  delivered := ρ.delivered ++ o.delivered
  acks := ρ.acks ++ o.acks

/-- One call of `Receiver_FromLowerLayer` with the packet `a.1`, where the local of
`Receiver_Ack` holds `a.2`. -/
def step (fresh : ℤ → ℕ → Byte) (ρ : ReceiverSys) (a : Packet × Packet) : Option ReceiverSys :=
  (ρ.rcv.fromLowerLayer fresh a.2 a.1).map ρ.absorb

/-- A sequence of calls. -/
def run (fresh : ℤ → ℕ → Byte) (ρ : ReceiverSys) (as : List (Packet × Packet)) :
    Option ReceiverSys :=
  as.foldlM (step fresh) ρ

end ReceiverSys
end NetLabs.Rdt
