import Mathlib.Algebra.Field.Defs
import Mathlib.Algebra.Order.Floor.Defs
import Mathlib.Algebra.Order.Monoid.Defs
import Mathlib.Data.List.Sort
import NetLabs.Rdt.Receiver
import NetLabs.Rdt.Sender

/-!
# The simulator

`rdt_sim.cc`: the event chain, the sender's timer as an event in that chain, the lossy link,
the upper layer and the main loop. Times are taken in any linearly ordered additive group `T`.
What the source draws from `rand()` is an argument of a step (`Choice`): whether a packet is
lost, how it is altered, how long it takes, the size of the next message and the time until
the one after it. A step allows the link any fate for a packet; which of them the rates given to
`main` can lead to is `Link.fate`.

A pointer to an event is the number of the call of `schedule` that put it into the chain. The
simulator holds the two endpoints with their logs (`SenderSys`, `ReceiverSys`); of the sender's
the field `timer` is not read, the answer of `Sender_isTimerSet` comes from `sender_timer`.
-/

namespace NetLabs.Rdt

open NetLabs.Lib NetLabs.Lib.Bytes

/-! ## The event chain -/

/-- The event types, with the packet that two of the event classes carry. -/
inductive EventType
  | senderFromUpperLayer
  | senderFromLowerLayer (pkt : Packet)
  | senderTimeout
  | receiverFromLowerLayer (pkt : Packet)
deriving DecidableEq

/-- `class Event` -/
structure Event (T : Type*) where
  id : ℕ
  schedTime : T
  eventType : EventType

/-- `class EventChain` -/
structure EventChain (T : Type*) where
  simTime : T
  chain : List (Event T)

namespace EventChain

variable {T : Type*} [LinearOrder T]

/-- `EventChain::schedule`: behind all the events that are not later. An event scheduled for
the past is dropped. -/
def schedule (e : Event T) (c : EventChain T) : EventChain T :=
  if e.schedTime < c.simTime then c
  else { c with chain := c.chain.orderedInsert (fun a b => a.schedTime < b.schedTime) e }

/-- `EventChain::cancel` -/
def cancel (id : ℕ) (c : EventChain T) : EventChain T :=
  { c with chain := c.chain.eraseP fun e => e.id == id }

/-- `EventChain::next_event` -/
def nextEvent (c : EventChain T) : Option (Event T × EventChain T) :=
  match c.chain with
  | [] => none
  | e :: rest => some (e, ⟨e.schedTime, rest⟩)

end EventChain

/-! ## The upper layers -/

/-- The statistics, the verdict on the messages, and the two variables `cnt`, one of the upper
layer at the sender and one at the receiver. The totals of the source are `int`s, so that they are
these numbers as long as these stay below `2 ^ 31`. -/
structure Stats where
  totCharsSent : ℤ
  totCharsDelivered : ℤ
  totPktsPassed : ℤ
  messageVerificationPassed : Bool
  generateCnt : ℕ
  deliverCnt : ℕ

namespace Stats

def init : Stats := ⟨0, 0, 0, true, 0, 0⟩

/-- The loop of `generate_msg`: `n` digits from `cnt` on, and `cnt` afterwards. -/
def digits : ℕ → ℕ → List Byte × ℕ
  | 0, cnt => ([], cnt)
  | n + 1, cnt =>
    let r := digits n ((cnt + 1) % 10)
    (BitVec.ofNat 8 (0x30 + cnt) :: r.1, r.2)

lemma length_digits : ∀ n cnt : ℕ, (digits n cnt).1.length = n := by
  intro n
  induction n with
  | zero => intro cnt; rfl
  | succ n ih => intro cnt; rw [digits, List.length_cons, ih]

/-- `generate_msg`, where `size` is the random size before the test for zero. -/
def generateMsg (size : Fin (2 ^ 31)) (s : Stats) : UpperMessage × Stats :=
  let n := if size.val = 0 then 1 else size.val
  (⟨(digits n s.generateCnt).1, by
      have := size.isLt
      rw [length_digits]
      dsimp only [n]
      split
      · norm_num
      · exact this⟩,
    { s with
      totCharsSent := s.totCharsSent + n
      generateCnt := (digits n s.generateCnt).2 })

/-- One round of the loop of `Receiver_ToUpperLayer`. -/
def checkChar (s : Stats) (b : Byte) : Stats :=
  { s with
    messageVerificationPassed :=
      s.messageVerificationPassed && (b.toInt == 0x30 + (s.deliverCnt : ℤ))
    deliverCnt := (s.deliverCnt + 1) % 10 }

/-- `Receiver_ToUpperLayer` -/
def receiverToUpperLayer (s : Stats) (msg : Message) : Stats :=
  let s' := (slice msg.data 0 msg.size.toNat).foldl checkChar s
  { s' with totCharsDelivered := s'.totCharsDelivered + msg.size }

end Stats

/-! ## The link -/

/-- What the link does with a packet: it is lost, or it arrives after a delay, possibly with
noise, one number from `0` to `20` for each byte. -/
inductive Fate (T : Type*)
  | lost
  | passed (noise : Option (ℕ → ℕ)) (delay : T)

/-- `e->pkt.data[i] = e->pkt.data[i] + (char)(myrandom()*20) - 10` for every byte. -/
def corrupt (noise : ℕ → ℕ) (pkt : Packet) : Packet :=
  ⟨pkt.data.mapIdx fun i b => b + BitVec.ofNat 8 (noise i) - 10, by
    rw [List.length_mapIdx, pkt.length_eq]⟩

/-- A number between `0` and `1`: what `myrandom` returns, and the rates that `main` accepts. -/
abbrev Rate (K : Type*) [Zero K] [One K] [LE K] : Type _ := {u : K // 0 ≤ u ∧ u ≤ 1}

/-- The link: the arguments of `main` about it, and `pkt_latency`. -/
structure Link (K : Type*) [Zero K] [One K] [LE K] where
  pktLatency : K
  outoforderRate : Rate K
  lossRate : Rate K
  corruptRate : Rate K
  latency_nonneg : 0 ≤ pktLatency

/-- What `myrandom` returns for one packet. -/
structure Draws (K : Type*) [Zero K] [One K] [LE K] where
  loss : Rate K
  corrupt : Rate K
  noise : ℕ → Rate K
  outoforder : Rate K
  delay : Rate K

/-- The random part of `Sender_ToLowerLayer` and `Receiver_ToLowerLayer`. -/
def Link.fate {K : Type*} [Field K] [LinearOrder K] [FloorSemiring K] (l : Link K) (u : Draws K) :
    Fate K :=
  if u.loss.val < l.lossRate.val then .lost
  else .passed
    (if u.corrupt.val < l.corruptRate.val then some fun i => ⌊(u.noise i).val * 20⌋₊ else none)
    (if u.outoforder.val < l.outoforderRate.val then l.pktLatency * 2 * u.delay.val
      else l.pktLatency)

/-- What is drawn at random, or left open by the source, in one round of the main loop: the
contents of the local packet of the handler, the fate of each packet it hands to the lower
layer, the size of the message and the time until the next one. -/
structure Choice (T : Type*) where
  junk : Packet
  fates : ℕ → Fate T
  size : Fin (2 ^ 31)
  arrival : T

/-- The constants of a simulation: `sim_time` and `TIMEOUT`. -/
structure Params (T : Type*) where
  simTime : T
  timeout : T

/-- The global variables of the simulator, with the two endpoints. `altered` lists the packets
that the link has really altered. -/
structure Sim (T : Type*) where
  core : EventChain T
  senderTimer : Option ℕ
  nextId : ℕ
  src : SenderSys
  dst : ReceiverSys
  stats : Stats
  altered : List Packet

namespace Sim

variable {T : Type*} [LinearOrder T] [AddCommGroup T]

/-- `new` and `schedule` for an event that occurs after `delay`. -/
def scheduleAfter (delay : T) (type : EventType) (σ : Sim T) : Sim T :=
  { σ with
    core := σ.core.schedule ⟨σ.nextId, σ.core.simTime + delay, type⟩
    nextId := σ.nextId + 1 }

/-- `Sender_StopTimer`, and the first half of `Sender_StartTimer`. -/
def stopTimer (σ : Sim T) : Sim T :=
  match σ.senderTimer with
  | none => σ
  | some id => { σ with core := σ.core.cancel id, senderTimer := none }

/-- `Sender_StartTimer` -/
def startTimer (timeout : T) (σ : Sim T) : Sim T :=
  { σ.stopTimer.scheduleAfter timeout .senderTimeout with senderTimer := some σ.nextId }

/-- `Sender_ToLowerLayer` and `Receiver_ToLowerLayer`, which differ in the class of the event
for the other side. -/
def toLowerLayer (arrival : Packet → EventType) (fate : Fate T) (pkt : Packet) (σ : Sim T) :
    Sim T :=
  match fate with
  | .lost => σ
  | .passed noise delay =>
    let pkt' := noise.elim pkt (corrupt · pkt)
    let σ' := σ.scheduleAfter delay (arrival pkt')
    { σ' with
      stats := { σ'.stats with totPktsPassed := σ'.stats.totPktsPassed + 1 }
      altered := if pkt' = pkt then σ'.altered else σ'.altered ++ [pkt'] }

/-- `Sender_ToLowerLayer` -/
def senderToLowerLayer : Fate T → Packet → Sim T → Sim T := toLowerLayer .receiverFromLowerLayer

/-- `Receiver_ToLowerLayer` -/
def receiverToLowerLayer : Fate T → Packet → Sim T → Sim T := toLowerLayer .senderFromLowerLayer

/-- A call from the sender into the simulator. -/
def senderCall (timeout : T) (σ : Sim T) (call : SenderCall × Fate T) : Sim T :=
  match call.1 with
  | .startTimer => σ.startTimer timeout
  | .stopTimer => σ.stopTimer
  | .toLowerLayer pkt => σ.senderToLowerLayer call.2 pkt

/-- A call from the receiver into the simulator. -/
def receiverCall (σ : Sim T) (a : Packet × Fate T) : Sim T := σ.receiverToLowerLayer a.2 a.1

/-- The sender as its handlers see it: its timer is set if `sender_timer` is not null. -/
def sender (σ : Sim T) : SenderSys := { σ.src with timer := σ.senderTimer.isSome }

/-- Pairs what a handler hands on with its fate. -/
def withFates {α : Type*} (fates : ℕ → Fate T) (l : List α) : List (α × Fate T) :=
  l.mapIdx fun i x => (x, fates i)

/-- Calls a handler of the sender. -/
def callSender (timeout : T) (c : Choice T) (e : SenderEvent) (σ : Sim T) : Option (Sim T) :=
  (σ.sender.handle e).map fun o =>
    (withFates c.fates o.calls).foldl (senderCall timeout) { σ with src := σ.sender.after e o }

/-- Calls the handler of the receiver. -/
def callReceiver (fresh : ℤ → ℕ → Byte) (c : Choice T) (pkt : Packet) (σ : Sim T) :
    Option (Sim T) :=
  (σ.dst.rcv.fromLowerLayer fresh c.junk pkt).map fun o =>
    (withFates c.fates o.acks).foldl receiverCall
      { σ with
        dst := σ.dst.absorb o
        stats := o.delivered.foldl Stats.receiverToUpperLayer σ.stats }

/-- The case `EVENT_SENDER_FROMUPPERLAYER` of the main loop. The event recurs until `sim_time`
has passed. -/
def upperLayer (p : Params T) (c : Choice T) (σ : Sim T) : Option (Sim T) := do
  let r := σ.stats.generateMsg c.size
  let σ' ← callSender p.timeout c (.fromUpperLayer r.1 c.junk) { σ with stats := r.2 }
  return if σ'.core.simTime < p.simTime then σ'.scheduleAfter c.arrival .senderFromUpperLayer
    else σ'

/-- One round of the main loop; `none` if the chain is empty, or a handler never returns. -/
def step (p : Params T) (fresh : ℤ → ℕ → Byte) (σ : Sim T) (c : Choice T) : Option (Sim T) := do
  let (e, core) ← σ.core.nextEvent
  let σ := { σ with core := core }
  match e.eventType with
  | .senderFromUpperLayer => σ.upperLayer p c
  | .senderFromLowerLayer pkt => σ.callSender p.timeout c (.fromLowerLayer pkt c.junk)
  | .senderTimeout => callSender p.timeout c (.timeout c.junk) { σ with senderTimer := none }
  | .receiverFromLowerLayer pkt => σ.callReceiver fresh c pkt

/-- The state in which the main loop starts. -/
def init (windows : Ring maxWindowSize Packet) (window : Ring windowsSize Packet) : Sim T :=
  scheduleAfter 0 .senderFromUpperLayer
    ⟨⟨0, []⟩, none, 0, .init windows, .init window, .init, []⟩

/-- The start of a run, with whatever `malloc` returned. -/
def Init (σ : Sim T) : Prop := ∃ windows window, σ = init windows window

end Sim
end NetLabs.Rdt
