import NetLabs.Lib.Ring
import NetLabs.Lib.While
import NetLabs.Rdt.Check

/-!
# The sender

`rdt_sender.cc`. The static variables of the file are the fields of `Sender`; a handler is a
function from the state before the call to the state after it and the calls it makes into the
simulator, in order. Two things the source leaves open are arguments here:

* the local `packet pkt` of `Sender_ConstructPKT` is not initialised, so its first contents
  are an argument (`junk`); the bytes behind a short payload are never written and are
  transmitted as they are found;
* `windows` comes from `malloc`, so its first contents are an argument of `Sender.init`.

`Sender_ConstructPKT` has no `else` for a message whose size is not above the cursor: such a
round changes nothing and the loop never ends. A handler that does not return is `none`.

The `int` variables are integers. They stay far from the ends of their type as long as fewer
than `2 ^ 31 - 10` packets and messages are numbered; the one conversion that can lose bits,
from `size_t` back to `int` in `Sender_FromUpperLayer`, is spelled out.
-/

namespace NetLabs.Rdt

open NetLabs.Lib NetLabs.Lib.Bytes

/-- `MAX_BUFFER_SIZE` -/
abbrev maxBufferSize : ℕ := 1000

/-- `MAX_WINDOW_SIZE` -/
abbrev maxWindowSize : ℕ := 10

instance : NeZero maxBufferSize := ⟨by decide⟩

instance : NeZero maxWindowSize := ⟨by decide⟩

/-- The static variables of `rdt_sender.cc`. -/
structure Sender where
  buffer : Ring maxBufferSize Message
  nextMessageSeq : ℤ
  msgBufferNum : ℤ
  curMessageSeq : ℤ
  cursorSender : ℤ
  windows : Ring maxWindowSize Packet
  pktSeq : ℤ
  nextPacketToSend : ℤ
  ackExpected : ℤ
  pktWindowNum : ℤ

/-- The calls a handler makes into the simulator. -/
inductive SenderCall
  | startTimer
  | stopTimer
  | toLowerLayer (pkt : Packet)
deriving DecidableEq

namespace Sender

/-- `Sender_Init`, with the contents `malloc` returned for `windows`. -/
def init (windows : Ring maxWindowSize Packet) : Sender where
  buffer := Ring.fill maxBufferSize ⟨0, []⟩
  nextMessageSeq := 0
  msgBufferNum := 0
  curMessageSeq := 0
  cursorSender := 0
  windows := windows
  pktSeq := 0
  nextPacketToSend := 0
  ackExpected := 0
  pktWindowNum := 0

/-! ## `Sender_ConstructPKT` -/

/-- The lines both branches of the loop share: number the packet, store the payload size and
the payload, add the checksum. -/
def fillPkt (pkt : Packet) (pktSeq : ℤ) (size : ℤ) (payload : List Byte) : Packet :=
  rdtAddChecksum
    (((pkt.write checksumSize (intBytes pktSeq)).write (headerSize - 1)
      [BitVec.ofInt 8 size]).write headerSize payload)

/-- The variables of `Sender_ConstructPKT`: the statics, its two locals, and the packets it
has copied into `windows` so far. -/
structure Construct where
  snd : Sender
  msg : Message
  pkt : Packet
  built : List Packet

namespace Construct

/-- The loop condition. -/
def cond (c : Construct) : Bool :=
  c.snd.pktWindowNum < maxWindowSize && c.snd.curMessageSeq < c.snd.nextMessageSeq

/-- The packet the loop fills next, with `size` bytes of payload from the cursor on. -/
def nextPkt (c : Construct) (size : ℤ) : Packet :=
  fillPkt c.pkt c.snd.pktSeq size (slice c.msg.data c.snd.cursorSender.toNat size.toNat)

/-- The first branch: a full packet, and the message goes on behind it. -/
def cut (c : Construct) : Construct :=
  let pkt := c.nextPkt maxPayloadSize
  { c with
    pkt := pkt
    built := c.built ++ [pkt]
    snd := { c.snd with
      windows := c.snd.windows.set c.snd.pktSeq pkt
      cursorSender := c.snd.cursorSender + maxPayloadSize
      pktSeq := c.snd.pktSeq + 1
      pktWindowNum := c.snd.pktWindowNum + 1 } }

/-- The second branch: the last packet of the current message. The local `msg` moves on only
if another message is buffered. -/
def cutLast (c : Construct) : Construct :=
  let pkt := c.nextPkt (c.msg.size - c.snd.cursorSender)
  { c with
    pkt := pkt
    built := c.built ++ [pkt]
    msg := if c.snd.curMessageSeq + 1 < c.snd.nextMessageSeq then
        c.snd.buffer.get (c.snd.curMessageSeq + 1)
      else c.msg
    snd := { c.snd with
      windows := c.snd.windows.set c.snd.pktSeq pkt
      msgBufferNum := c.snd.msgBufferNum - 1
      curMessageSeq := c.snd.curMessageSeq + 1
      cursorSender := 0
      pktSeq := c.snd.pktSeq + 1
      pktWindowNum := c.snd.pktWindowNum + 1 } }

/-- One round of the loop. The source has no third branch. -/
def body (c : Construct) : Construct :=
  if c.msg.size - c.snd.cursorSender > maxPayloadSize then c.cut
  else if c.msg.size > c.snd.cursorSender then c.cutLast
  else c

/-- The rounds left before the window is full. Every round that does anything uses one, so
this budget decides the loop (`constructPKT_eq_none`). -/
def room (c : Construct) : ℕ := (maxWindowSize - c.snd.pktWindowNum).toNat

end Construct

/-- The state in which the loop of `Sender_ConstructPKT` starts. -/
def constructStart (junk : Packet) (s : Sender) : Construct :=
  ⟨s, s.buffer.get s.curMessageSeq, junk, []⟩

/-- `Sender_ConstructPKT` -/
def constructPKT (junk : Packet) (s : Sender) : Option Construct :=
  While.run Construct.cond Construct.body (constructStart junk s).room (constructStart junk s)

/-! ## `Sender_SendPKT` -/

/-- The variables of `Sender_SendPKT`: the statics, and the packets it has handed to the lower
layer so far. -/
structure Sending where
  snd : Sender
  sent : List Packet

/-- The loop condition. -/
def Sending.cond (c : Sending) : Bool := c.snd.nextPacketToSend < c.snd.pktSeq

/-- One round of the loop. -/
def Sending.body (c : Sending) : Sending where
  snd := { c.snd with nextPacketToSend := c.snd.nextPacketToSend + 1 }
  sent := c.sent ++ [c.snd.windows.get c.snd.nextPacketToSend]

/-- `Sender_SendPKT` -/
def sendPKT (s : Sender) : Option Sending :=
  While.run Sending.cond Sending.body (s.pktSeq - s.nextPacketToSend).toNat ⟨s, []⟩

/-! ## The handlers -/

/-- What a handler leaves behind: the statics, its calls into the simulator, and the packets
it built. -/
structure Outcome where
  snd : Sender
  calls : List SenderCall
  built : List Packet

/-- `Sender_StartTimer(TIMEOUT); Sender_ConstructPKT(); Sender_SendPKT();`, the lines all
three handlers share. -/
def constructAndSend (junk : Packet) (s : Sender) : Option Outcome := do
  let c ← constructPKT junk s
  let d ← sendPKT c.snd
  return ⟨d.snd, .startTimer :: d.sent.map .toLowerLayer, c.built⟩

/-- The entry `Sender_FromUpperLayer` stores for a message: the size in front of the data. -/
def stored (msg : Message) : Message :=
  ⟨(BitVec.ofInt 32 (msg.size + 4)).toInt, intBytes msg.size ++ slice msg.data 0 msg.size.toNat⟩

/-- The first half of `Sender_FromUpperLayer`: put the message into the buffer. -/
def enqueue (msg : Message) (s : Sender) : Sender :=
  { s with
    buffer := s.buffer.set s.nextMessageSeq (stored msg)
    nextMessageSeq := s.nextMessageSeq + 1
    msgBufferNum := s.msgBufferNum + 1 }

/-- `Sender_FromUpperLayer`, where `timerSet` is the answer of `Sender_isTimerSet`. -/
def fromUpperLayer (junk : Packet) (timerSet : Bool) (msg : Message) (s : Sender) :
    Option Outcome :=
  -- with the timer set the message waits for an ack or an expiry
  if timerSet then some ⟨s.enqueue msg, [], []⟩
  else constructAndSend junk (s.enqueue msg)

/-- The window slides up to an acknowledged packet. -/
def slide (ack : ℤ) (s : Sender) : Sender :=
  { s with
    pktWindowNum := s.pktWindowNum - (ack - s.ackExpected + 1)
    ackExpected := ack + 1 }

/-- `Sender_FromLowerLayer` -/
def fromLowerLayer (junk : Packet) (pkt : Packet) (s : Sender) : Option Outcome :=
  if !rdtVerifyChecksum pkt then some ⟨s, [], []⟩
  else do
    let ack := pkt.seq
    let o ← if s.ackExpected ≤ ack ∧ ack < s.pktSeq then constructAndSend junk (s.slide ack)
      else some ⟨s, [], []⟩
    -- tested against the `pkt_seq` after the construction
    return if ack = o.snd.pktSeq - 1 then { o with calls := o.calls ++ [.stopTimer] } else o

/-- The sender goes back to the first packet that is not acknowledged. -/
def rewind (s : Sender) : Sender := { s with nextPacketToSend := s.ackExpected }

/-- `Sender_Timeout` -/
def timeout (junk : Packet) (s : Sender) : Option Outcome := constructAndSend junk s.rewind

/-- The timer after a handler's calls. -/
def Outcome.timer (o : Outcome) (timer : Bool) : Bool :=
  o.calls.foldl (fun t call => match call with
    | .startTimer => true
    | .stopTimer => false
    | .toLowerLayer _ => t) timer

/-- The packets a handler handed to the lower layer. -/
def Outcome.sent (o : Outcome) : List Packet :=
  o.calls.filterMap fun call => match call with
    | .toLowerLayer pkt => some pkt
    | _ => none

end Sender

/-! ## Runs of the sender -/

/-- A call into `rdt_sender.cc`, with the contents its local `pkt` happens to have. -/
inductive SenderEvent
  | fromUpperLayer (msg : UpperMessage) (junk : Packet)
  | fromLowerLayer (pkt : Packet) (junk : Packet)
  | timeout (junk : Packet)

/-- The sender in its surroundings: whether its timer is set, the messages it was handed, the
packets it built and those it handed to the lower layer, each in order. -/
structure SenderSys where
  snd : Sender
  timer : Bool
  accepted : List UpperMessage
  built : List Packet
  sent : List Packet

namespace SenderSys

/-- After `Sender_Init`. -/
def init (windows : Ring maxWindowSize Packet) : SenderSys := ⟨.init windows, false, [], [], []⟩

/-- The state after a handler that had `o` as its outcome, with the timer as it was. -/
def absorb (σ : SenderSys) (o : Sender.Outcome) : SenderSys :=
  { σ with
    snd := o.snd
    built := σ.built ++ o.built
    sent := σ.sent ++ o.sent }

/-- Whether the timer is set when the handler of an event is called: the main loop clears
`sender_timer` before it calls `Sender_Timeout`. -/
def timerBefore (timer : Bool) : SenderEvent → Bool
  | .timeout _ => false
  | _ => timer

/-- The outcome of the handler called by an event. -/
def handle (σ : SenderSys) : SenderEvent → Option Sender.Outcome
  | .fromUpperLayer msg junk => σ.snd.fromUpperLayer junk σ.timer msg.toMessage
  | .fromLowerLayer pkt junk => σ.snd.fromLowerLayer junk pkt
  | .timeout junk => σ.snd.timeout junk

/-- The messages an event hands to the sender. -/
def accepts : SenderEvent → List UpperMessage
  | .fromUpperLayer msg _ => [msg]
  | _ => []

/-- The state after the handler of an event, with its outcome. -/
def after (σ : SenderSys) (e : SenderEvent) (o : Sender.Outcome) : SenderSys :=
  { σ.absorb o with
    timer := o.timer (timerBefore σ.timer e)
    accepted := σ.accepted ++ accepts e }

/-- One call into the sender; `none` if it never returns. -/
def step (σ : SenderSys) (e : SenderEvent) : Option SenderSys := (σ.handle e).map (σ.after e)

/-- The start of a run: after `Sender_Init`, with whatever `malloc` returned. -/
def Init (σ : SenderSys) : Prop := ∃ windows, σ = init windows

end SenderSys
end NetLabs.Rdt
