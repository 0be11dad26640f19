import NetLabs.Rdt.HeapSender

/-!
# The receiver and its pointers

`rdt_receiver.cc` once more, with the one pointer that moves: `cur_msg->data`. The first packet of a
message frees the block of the message before, unless that was empty, and allocates another; the
packets are copied into it, and `Receiver_ToUpperLayer` reads it. A copy that leaves the packet is a
fault too.

`*cur_msg`, `window` and `valid_checks` are allocated once and released once by `Receiver_Final`,
which does nothing about `cur_msg->data`.
-/

namespace NetLabs.Rdt

open NetLabs.Lib NetLabs.Lib.Bytes

/-- `memcpy` out of a packet. -/
def Packet.read (pkt : Packet) (off n : ℕ) : Except Heap.Fault (List Byte) :=
  if off + n ≤ pktSize then .ok (slice pkt.data off n) else .error .read

/-! ## Reassembly -/

/-- `*cur_msg`, `cursor` and the heap. -/
structure HeapAssembly where
  curMsg : MessageRef
  cursor : ℤ
  heap : Heap Byte

namespace HeapAssembly

/-- The message under construction without the pointer. -/
def view (a : HeapAssembly) : Assembly := ⟨a.curMsg.view a.heap, a.cursor⟩

/-- `memcpy` to the start of the block that was allocated for `size` bytes. For a negative size, as
a `size_t` more than there is, `malloc` returned a null pointer. -/
def writeFirst (heap : Heap Byte) (addr : ℕ) (size : ℤ) (bytes : List Byte) :
    Except Heap.Fault (Heap Byte) :=
  if 0 ≤ size then heap.write addr 0 bytes else .error .write

/-- The first packet of a message. -/
def firstPacket (fresh : ℕ → Byte) (pkt : Packet) (a : HeapAssembly) :
    Except Heap.Fault HeapAssembly := do
  let heap ← a.curMsg.release a.heap
  let size := readInt (slice pkt.data headerSize 4)
  let r := heap.malloc ((List.range size.toNat).map fresh)
  let bytes ← pkt.read (headerSize + 4) (sizeT (pkt.payloadSize - 4))
  let heap ← writeFirst r.1 r.2 size bytes
  return ⟨⟨size, r.2⟩, a.cursor + (pkt.payloadSize - 4), heap⟩

/-- A later packet. -/
def laterPacket (pkt : Packet) (a : HeapAssembly) : Except Heap.Fault HeapAssembly := do
  let bytes ← pkt.read headerSize (sizeT pkt.payloadSize)
  let heap ← a.heap.write a.curMsg.data a.cursor bytes
  return { a with heap := heap, cursor := a.cursor + pkt.payloadSize }

/-- The packet's part of the message. -/
def copy (fresh : ℕ → Byte) (pkt : Packet) (a : HeapAssembly) : Except Heap.Fault HeapAssembly :=
  if a.cursor = 0 then a.firstPacket fresh pkt else a.laterPacket pkt

/-- `Receiver_ToUpperLayer` reads the whole message. -/
def deliver (a : HeapAssembly) : Except Heap.Fault (HeapAssembly × List Message) :=
  if a.curMsg.size = a.cursor then do
    let bytes ← a.heap.read a.curMsg.data 0 a.curMsg.size
    return ({ a with cursor := 0 }, [⟨a.curMsg.size, bytes⟩])
  else .ok (a, [])

/-- What the loop does with the contents of one packet. -/
def consume (fresh : ℕ → Byte) (pkt : Packet) (a : HeapAssembly) :
    Except Heap.Fault (HeapAssembly × List Message) := do
  let a ← a.copy fresh pkt
  a.deliver

end HeapAssembly

/-! ## `Receiver_FromLowerLayer` -/

/-- The static variables of `rdt_receiver.cc`, and the heap. -/
structure HeapReceiver extends HeapAssembly where
  expected : ℤ
  window : Ring windowsSize Packet
  validChecks : Ring windowsSize Bool

namespace HeapReceiver

/-- `Receiver_Init`: `memset` leaves a null pointer in `*cur_msg`. -/
def init (window : Ring windowsSize Packet) : HeapReceiver where
  curMsg := ⟨0, Heap.null⟩
  cursor := 0
  heap := .empty
  expected := 0
  window := window
  validChecks := Ring.fill windowsSize false

/-- The receiver without its pointers. -/
def view (r : HeapReceiver) : Receiver where
  toAssembly := r.toHeapAssembly.view
  expected := r.expected
  window := r.window
  validChecks := r.validChecks

/-- A packet that arrived early is stored, unless its slot is taken. -/
def store (pkt : Packet) (r : HeapReceiver) : HeapReceiver :=
  if r.validChecks.get pkt.seq then r
  else { r with
    window := r.window.set pkt.seq pkt
    validChecks := r.validChecks.set pkt.seq true }

/-- The variables of the consuming loop. -/
structure Consume where
  rcv : HeapReceiver
  pkt : Packet
  packetSeq : ℤ
  running : Bool
  consumed : List Packet
  delivered : List Message

/-- The variables without the pointers. -/
def Consume.view (c : Consume) : Receiver.Consume :=
  ⟨c.rcv.view, c.pkt, c.packetSeq, c.running, c.consumed, c.delivered⟩

/-- The end of a round: a packet that came early is the next one to be consumed. -/
def Consume.advance (c : Consume) (a : HeapAssembly) (delivered : List Message) : Consume :=
  let next := c.rcv.expected + 1
  let rcv := { c.rcv with toHeapAssembly := a, expected := next }
  let c' := { c with
    rcv := rcv
    consumed := c.consumed ++ [c.pkt]
    delivered := c.delivered ++ delivered }
  if rcv.validChecks.get next then
    { c' with
      pkt := rcv.window.get next
      packetSeq := (rcv.window.get next).seq
      rcv := { rcv with validChecks := rcv.validChecks.set next false } }
  else { c' with running := false }

/-- One round of the loop. -/
def Consume.body (fresh : ℤ → ℕ → Byte) (c : Consume) : Except Heap.Fault Consume := do
  let r ← c.rcv.toHeapAssembly.consume (fresh c.rcv.expected) c.pkt
  return c.advance r.1 r.2

/-- What the handler leaves behind. -/
structure Outcome where
  rcv : HeapReceiver
  consumed : List Packet
  delivered : List Message
  acks : List Packet

/-- The outcome without the pointers. -/
def Outcome.view (o : Outcome) : Receiver.Outcome := ⟨o.rcv.view, o.consumed, o.delivered, o.acks⟩

/-- `Receiver_FromLowerLayer` -/
def fromLowerLayer (fresh : ℤ → ℕ → Byte) (junk : Packet) (pkt : Packet) (r : HeapReceiver) :
    Except Heap.Fault (Option Outcome) :=
  if !rdtVerifyChecksum pkt then .ok (some ⟨r, [], [], []⟩)
  else if r.expected < pkt.seq ∧ pkt.seq < r.expected + windowsSize then
    .ok (some ⟨r.store pkt, [], [], [receiverAck junk (r.expected - 1)]⟩)
  else if pkt.seq ≠ r.expected then
    .ok (some ⟨r, [], [], [receiverAck junk (r.expected - 1)]⟩)
  else
    (While.runM Consume.running (Consume.body fresh) (windowsSize + 1)
      ⟨r, pkt, pkt.seq, true, [], []⟩).map (Option.map fun c =>
        ⟨c.rcv, c.consumed, c.delivered, [receiverAck junk c.packetSeq]⟩)

end HeapReceiver

/-! ## Runs -/

/-- The receiver in its surroundings, with its pointers. -/
structure HeapReceiverSys where
  rcv : HeapReceiver
  consumed : List Packet
  delivered : List Message
  acks : List Packet

namespace HeapReceiverSys

/-- The same without the pointers. -/
def view (ρ : HeapReceiverSys) : ReceiverSys := ⟨ρ.rcv.view, ρ.consumed, ρ.delivered, ρ.acks⟩

/-- After `Receiver_Init`. -/
def init (window : Ring windowsSize Packet) : HeapReceiverSys := ⟨.init window, [], [], []⟩

/-- The state after a call that had `o` as its outcome. -/
def absorb (ρ : HeapReceiverSys) (o : HeapReceiver.Outcome) : HeapReceiverSys where
  rcv := o.rcv
  consumed := ρ.consumed ++ o.consumed
  delivered := ρ.delivered ++ o.delivered
  acks := ρ.acks ++ o.acks

/-- One call of `Receiver_FromLowerLayer`, as in `ReceiverSys.step`; it may fault. -/
def step (fresh : ℤ → ℕ → Byte) (ρ : HeapReceiverSys) (a : Packet × Packet) :
    Except Heap.Fault (Option HeapReceiverSys) :=
  (ρ.rcv.fromLowerLayer fresh a.2 a.1).map (Option.map ρ.absorb)

/-- A sequence of calls. -/
def run (fresh : ℤ → ℕ → Byte) :
    HeapReceiverSys → List (Packet × Packet) → Except Heap.Fault (Option HeapReceiverSys)
  | ρ, [] => .ok (some ρ)
  | ρ, a :: as => do
    match ← ρ.step fresh a with
    | some ρ' => run fresh ρ' as
    | none => return none

end HeapReceiverSys
end NetLabs.Rdt
