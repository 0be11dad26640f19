import NetLabs.Lib.Heap
import NetLabs.Lib.Refine
import NetLabs.Rdt.Receiver
import NetLabs.Rdt.Sender

/-!
# The sender and its pointers

`rdt_sender.cc` once more, now with the pointers it keeps: an entry of `buffer` is a size and the
address of a block, `Sender_FromUpperLayer` frees the block of the entry it replaces and allocates
another, `Sender_ConstructPKT` copies payloads out of blocks, and `Sender_Final` frees what is left.
Freeing a block that is not live and copying from outside of a live block are faults.

The two arrays `buffer` and `windows` are allocated once and released once, and stay rings here.

`HeapSender.view` forgets the pointers. That the handlers are those of `Sender` seen through it, and
that they never fault, is proved in `HeapSenderTheorems`.
-/

namespace NetLabs.Rdt

open NetLabs.Lib NetLabs.Lib.Bytes

/-- `struct message`, with the address of its data. -/
structure MessageRef where
  size : ℤ
  data : ℕ

/-- The message an entry stands for. -/
def MessageRef.view (heap : Heap Byte) (m : MessageRef) : Message where
  size := m.size
  data := if m.size = 0 then [] else heap.contents m.data

/-- `if (m.size != 0) free(m.data);` -/
def MessageRef.release (heap : Heap Byte) (m : MessageRef) : Except Heap.Fault (Heap Byte) :=
  if m.size ≠ 0 then heap.free m.data else .ok heap

/-- The static variables of `rdt_sender.cc`, and the heap. -/
structure HeapSender where
  buffer : Ring maxBufferSize MessageRef
  nextMessageSeq : ℤ
  msgBufferNum : ℤ
  curMessageSeq : ℤ
  cursorSender : ℤ
  windows : Ring maxWindowSize Packet
  pktSeq : ℤ
  nextPacketToSend : ℤ
  ackExpected : ℤ
  pktWindowNum : ℤ
  heap : Heap Byte

namespace HeapSender

/-- `Sender_Init`: `memset` leaves null pointers in `buffer`. -/
def init (windows : Ring maxWindowSize Packet) : HeapSender where
  buffer := Ring.fill maxBufferSize ⟨0, Heap.null⟩
  nextMessageSeq := 0
  msgBufferNum := 0
  curMessageSeq := 0
  cursorSender := 0
  windows := windows
  pktSeq := 0
  nextPacketToSend := 0
  ackExpected := 0
  pktWindowNum := 0
  heap := .empty

/-- The sender without its pointers. -/
def view (s : HeapSender) : Sender where
  buffer := ⟨fun i => (s.buffer.cell i).view s.heap⟩
  nextMessageSeq := s.nextMessageSeq
  msgBufferNum := s.msgBufferNum
  curMessageSeq := s.curMessageSeq
  cursorSender := s.cursorSender
  windows := s.windows
  pktSeq := s.pktSeq
  nextPacketToSend := s.nextPacketToSend
  ackExpected := s.ackExpected
  pktWindowNum := s.pktWindowNum

/-! ## `Sender_ConstructPKT` -/

/-- The variables of `Sender_ConstructPKT`; its local `msg` is a copy of an entry, so its data are
those of the entry. -/
structure Construct where
  snd : HeapSender
  msg : MessageRef
  pkt : Packet
  built : List Packet

namespace Construct

/-- The loop condition. -/
def cond (c : Construct) : Bool :=
  c.snd.pktWindowNum < maxWindowSize && c.snd.curMessageSeq < c.snd.nextMessageSeq

/-- The first branch. -/
def cut (c : Construct) : Except Heap.Fault Construct := do
  let payload ← c.snd.heap.read c.msg.data c.snd.cursorSender maxPayloadSize
  let pkt := Sender.fillPkt c.pkt c.snd.pktSeq maxPayloadSize payload
  return { c with
    pkt := pkt
    built := c.built ++ [pkt]
    snd := { c.snd with
      windows := c.snd.windows.set c.snd.pktSeq pkt
      cursorSender := c.snd.cursorSender + maxPayloadSize
      pktSeq := c.snd.pktSeq + 1
      pktWindowNum := c.snd.pktWindowNum + 1 } }

/-- The second branch. -/
def cutLast (c : Construct) : Except Heap.Fault Construct := do
  let size := c.msg.size - c.snd.cursorSender
  let payload ← c.snd.heap.read c.msg.data c.snd.cursorSender size
  let pkt := Sender.fillPkt c.pkt c.snd.pktSeq size payload
  return { c with
    pkt := pkt
    built := c.built ++ [pkt]
    msg := if c.snd.curMessageSeq + 1 < c.snd.nextMessageSeq then
        c.snd.buffer.get (c.snd.curMessageSeq + 1)
      else c.msg
    snd := { c.snd with
      windows := c.snd.windows.set c.snd.pktSeq pkt
      msgBufferNum := c.snd.msgBufferNum - 1
      curMessageSeq := c.snd.curMessageSeq + 1
      cursorSender := 0
      pktSeq := c.snd.pktSeq + 1
      pktWindowNum := c.snd.pktWindowNum + 1 } }

/-- One round of the loop. -/
def body (c : Construct) : Except Heap.Fault Construct :=
  if c.msg.size - c.snd.cursorSender > maxPayloadSize then c.cut
  else if c.msg.size > c.snd.cursorSender then c.cutLast
  else .ok c

/-- The variables without the pointers. -/
def view (c : Construct) : Sender.Construct :=
  ⟨c.snd.view, c.msg.view c.snd.heap, c.pkt, c.built⟩

end Construct

/-- The state in which the loop of `Sender_ConstructPKT` starts. -/
def constructStart (junk : Packet) (s : HeapSender) : Construct :=
  ⟨s, s.buffer.get s.curMessageSeq, junk, []⟩

/-- `Sender_ConstructPKT` -/
def constructPKT (junk : Packet) (s : HeapSender) : Except Heap.Fault (Option Construct) :=
  While.runM Construct.cond Construct.body (maxWindowSize - s.pktWindowNum).toNat
    (s.constructStart junk)

/-! ## `Sender_SendPKT` -/

/-- The variables of `Sender_SendPKT`. -/
structure Sending where
  snd : HeapSender
  sent : List Packet

/-- The loop condition. -/
def Sending.cond (c : Sending) : Bool := c.snd.nextPacketToSend < c.snd.pktSeq

/-- One round of the loop. -/
def Sending.body (c : Sending) : Sending where
  snd := { c.snd with nextPacketToSend := c.snd.nextPacketToSend + 1 }
  sent := c.sent ++ [c.snd.windows.get c.snd.nextPacketToSend]

/-- `Sender_SendPKT` -/
def sendPKT (s : HeapSender) : Option Sending :=
  While.run Sending.cond Sending.body (s.pktSeq - s.nextPacketToSend).toNat ⟨s, []⟩

/-! ## The handlers -/

/-- What a handler leaves behind. -/
structure Outcome where
  snd : HeapSender
  calls : List SenderCall
  built : List Packet

/-- The outcome without the pointers. -/
def Outcome.view (o : Outcome) : Sender.Outcome := ⟨o.snd.view, o.calls, o.built⟩

/-- `Sender_StartTimer(TIMEOUT); Sender_ConstructPKT(); Sender_SendPKT();` -/
def constructAndSend (junk : Packet) (s : HeapSender) : Except Heap.Fault (Option Outcome) := do
  let c ← constructPKT junk s
  return c.bind fun c => (sendPKT c.snd).map fun d =>
    ⟨d.snd, .startTimer :: d.sent.map .toLowerLayer, c.built⟩

/-- The first half of `Sender_FromUpperLayer`; `fresh` are the bytes `malloc` finds. -/
def enqueue (fresh : ℕ → Byte) (msg : Message) (s : HeapSender) :
    Except Heap.Fault HeapSender := do
  let heap ← (s.buffer.get s.nextMessageSeq).release s.heap
  let r := heap.malloc ((List.range (sizeT (msg.size + 4))).map fresh)
  let heap ← r.1.write r.2 0 (intBytes msg.size)
  let heap ← heap.write r.2 4 (slice msg.data 0 msg.size.toNat)
  return { s with
    heap := heap
    buffer := s.buffer.set s.nextMessageSeq ⟨(BitVec.ofInt 32 (msg.size + 4)).toInt, r.2⟩
    nextMessageSeq := s.nextMessageSeq + 1
    msgBufferNum := s.msgBufferNum + 1 }

/-- `Sender_FromUpperLayer` -/
def fromUpperLayer (fresh : ℕ → Byte) (junk : Packet) (timerSet : Bool) (msg : Message)
    (s : HeapSender) : Except Heap.Fault (Option Outcome) := do
  let s ← s.enqueue fresh msg
  if timerSet then return some ⟨s, [], []⟩ else constructAndSend junk s

/-- The window slides up to an acknowledged packet. -/
def slide (ack : ℤ) (s : HeapSender) : HeapSender :=
  { s with
    pktWindowNum := s.pktWindowNum - (ack - s.ackExpected + 1)
    ackExpected := ack + 1 }

/-- The last lines of `Sender_FromLowerLayer`: the timer stops at the ack of the last packet. -/
def Outcome.stopAt (ack : ℤ) (o : Outcome) : Outcome :=
  if ack = o.snd.pktSeq - 1 then { o with calls := o.calls ++ [.stopTimer] } else o

/-- `Sender_FromLowerLayer` -/
def fromLowerLayer (junk : Packet) (pkt : Packet) (s : HeapSender) :
    Except Heap.Fault (Option Outcome) :=
  if !rdtVerifyChecksum pkt then .ok (some ⟨s, [], []⟩)
  else
    let ack := pkt.seq
    (if s.ackExpected ≤ ack ∧ ack < s.pktSeq then constructAndSend junk (s.slide ack)
      else .ok (some ⟨s, [], []⟩)).map (Option.map (Outcome.stopAt ack))

/-- The sender goes back to the first packet that is not acknowledged. -/
def rewind (s : HeapSender) : HeapSender := { s with nextPacketToSend := s.ackExpected }

/-- `Sender_Timeout` -/
def timeout (junk : Packet) (s : HeapSender) : Except Heap.Fault (Option Outcome) :=
  constructAndSend junk s.rewind

/-- The loop of `Sender_Final`: the heap after it. -/
def final (s : HeapSender) : Except Heap.Fault (Heap Byte) :=
  (List.finRange maxBufferSize).foldlM (fun heap i => (s.buffer.cell i).release heap) s.heap

end HeapSender

/-! ## Runs -/

/-- The sender in its surroundings, with its pointers. -/
structure HeapSenderSys where
  snd : HeapSender
  timer : Bool
  accepted : List UpperMessage
  built : List Packet
  sent : List Packet

namespace HeapSenderSys

/-- The same without the pointers. -/
def view (σ : HeapSenderSys) : SenderSys := ⟨σ.snd.view, σ.timer, σ.accepted, σ.built, σ.sent⟩

/-- The start of a run: after `Sender_Init`, with whatever `malloc` returned. -/
def Init (σ : HeapSenderSys) : Prop := ∃ windows, σ = ⟨.init windows, false, [], [], []⟩

/-- The outcome of the handler called by an event; `fresh n` are the bytes `malloc` finds for
message number `n`. -/
def handle (fresh : ℤ → ℕ → Byte) (σ : HeapSenderSys) :
    SenderEvent → Except Heap.Fault (Option HeapSender.Outcome)
  | .fromUpperLayer msg junk =>
    σ.snd.fromUpperLayer (fresh σ.snd.nextMessageSeq) junk σ.timer msg.toMessage
  | .fromLowerLayer pkt junk => σ.snd.fromLowerLayer junk pkt
  | .timeout junk => σ.snd.timeout junk

/-- The state after the handler of an event, with its outcome. -/
def after (σ : HeapSenderSys) (e : SenderEvent) (o : HeapSender.Outcome) : HeapSenderSys where
  snd := o.snd
  timer := o.view.timer (SenderSys.timerBefore σ.timer e)
  accepted := σ.accepted ++ SenderSys.accepts e
  built := σ.built ++ o.built
  sent := σ.sent ++ o.view.sent

/-- One call into the sender: it may fault, and it may never return. -/
def call (fresh : ℤ → ℕ → Byte) (σ : HeapSenderSys) (e : SenderEvent) :
    Except Heap.Fault (Option HeapSenderSys) :=
  (σ.handle fresh e).map (Option.map (σ.after e))

/-- One call that returns. -/
def step (fresh : ℤ → ℕ → Byte) (σ : HeapSenderSys) (e : SenderEvent) : Option HeapSenderSys :=
  (σ.call fresh e).toOption.join

end HeapSenderSys
end NetLabs.Rdt
