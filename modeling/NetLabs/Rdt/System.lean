import Mathlib.Data.Multiset.AddSub
import NetLabs.Rdt.Receiver
import NetLabs.Rdt.Sender

/-!
# Two endpoints and the network between them

The sender, the receiver, and what is in flight in each direction. A handler's packets go
into the multiset of its direction, from which the network delivers any packet at any time; it
may also lose one, deliver it twice, or alter it. The one assumption about the network is
that an altered packet fails `RDT_VerifyChecksum`.

`Sys.step_cases` says what one step can do; the theorems about whole runs are in
`SystemTheorems`.
-/

namespace NetLabs.Rdt

open NetLabs.Lib NetLabs.Lib.Bytes

/-- What the network does with a packet in flight, besides delivering it. -/
inductive NetEvent
  | lose (pkt : Packet)
  | duplicate (pkt : Packet)
  | alter (pkt pkt' : Packet)

/-- The packets in flight afterwards. An altered packet has a wrong checksum. -/
def NetEvent.apply (flight : Multiset Packet) : NetEvent → Option (Multiset Packet)
  | lose pkt => if pkt ∈ flight then some (flight.erase pkt) else none
  | duplicate pkt => if pkt ∈ flight then some (pkt ::ₘ flight) else none
  | alter pkt pkt' =>
    if pkt ∈ flight ∧ rdtVerifyChecksum pkt' = false then some (pkt' ::ₘ flight.erase pkt)
    else none

/-- The network adds no packet with a valid checksum that was not in flight. -/
lemma NetEvent.mem_of_apply {e : NetEvent} {flight flight' : Multiset Packet}
    (h : e.apply flight = some flight') {p : Packet} (hp : p ∈ flight')
    (hver : rdtVerifyChecksum p = true) : p ∈ flight := by
  cases e with
  | lose pkt =>
    simp only [NetEvent.apply, Option.ite_none_right_eq_some, Option.some.injEq] at h
    obtain ⟨-, rfl⟩ := h
    exact Multiset.mem_of_mem_erase hp
  | duplicate pkt =>
    simp only [NetEvent.apply, Option.ite_none_right_eq_some, Option.some.injEq] at h
    obtain ⟨hmem, rfl⟩ := h
    rcases Multiset.mem_cons.mp hp with rfl | hp
    · exact hmem
    · exact hp
  | alter pkt pkt' =>
    simp only [NetEvent.apply, Option.ite_none_right_eq_some, Option.some.injEq] at h
    obtain ⟨⟨-, hbad⟩, rfl⟩ := h
    rcases Multiset.mem_cons.mp hp with rfl | hp
    · rw [hver] at hbad; cases hbad
    · exact Multiset.mem_of_mem_erase hp

/-- A step of the whole system. -/
inductive SysEvent
  | fromUpperLayer (msg : UpperMessage) (junk : Packet)
  | timeout (junk : Packet)
  | deliverData (pkt : Packet) (junk : Packet)
  | deliverAck (pkt : Packet) (junk : Packet)
  | onData (e : NetEvent)
  | onAcks (e : NetEvent)

/-- The two endpoints, the data packets in flight and the acks in flight. -/
structure Sys where
  src : SenderSys
  dst : ReceiverSys
  data : Multiset Packet
  acks : Multiset Packet

namespace Sys

/-- After `Sender_Init` and `Receiver_Init`, with whatever `malloc` returned. -/
def Init (σ : Sys) : Prop :=
  ∃ windows window, σ = ⟨.init windows, .init window, 0, 0⟩

/-- A call into the sender: what it hands to the lower layer is in flight afterwards. -/
def send (σ : Sys) (e : SenderEvent) : Option Sys :=
  (σ.src.handle e).map fun o => { σ with src := σ.src.after e o, data := σ.data + o.sent }

/-- A call into the receiver: its acks are in flight afterwards. -/
def receive (fresh : ℤ → ℕ → Byte) (σ : Sys) (pkt junk : Packet) : Option Sys :=
  (σ.dst.rcv.fromLowerLayer fresh junk pkt).map fun o =>
    { σ with dst := σ.dst.absorb o, acks := σ.acks + o.acks }

/-- One step; `none` if the step cannot be taken or its handler never returns. -/
def step (fresh : ℤ → ℕ → Byte) (σ : Sys) : SysEvent → Option Sys
  | .fromUpperLayer msg junk => σ.send (.fromUpperLayer msg junk)
  | .timeout junk => if σ.src.timer then σ.send (.timeout junk) else none
  | .deliverData pkt junk =>
    if pkt ∈ σ.data then { σ with data := σ.data.erase pkt }.receive fresh pkt junk else none
  | .deliverAck pkt junk =>
    if pkt ∈ σ.acks then { σ with acks := σ.acks.erase pkt }.send (.fromLowerLayer pkt junk)
    else none
  | .onData e => (e.apply σ.data).map fun d => { σ with data := d }
  | .onAcks e => (e.apply σ.acks).map fun d => { σ with acks := d }

/-! ## Everything one step can do -/

lemma send_eq_some {σ σ' : Sys} {e : SenderEvent} (h : σ.send e = some σ') :
    ∃ src new, σ.src.step e = some src ∧ src.sent = σ.src.sent ++ new ∧
      σ' = { σ with src := src, data := σ.data + new } := by
  unfold send at h
  rw [Option.map_eq_some_iff] at h
  obtain ⟨o, ho, rfl⟩ := h
  exact ⟨σ.src.after e o, o.sent, by rw [SenderSys.step, ho]; rfl, rfl, rfl⟩

lemma receive_eq_some {fresh : ℤ → ℕ → Byte} {σ σ' : Sys} {pkt junk : Packet}
    (h : σ.receive fresh pkt junk = some σ') :
    ∃ dst new, σ.dst.step fresh (pkt, junk) = some dst ∧ dst.acks = σ.dst.acks ++ new ∧
      σ' = { σ with dst := dst, acks := σ.acks + new } := by
  unfold receive at h
  rw [Option.map_eq_some_iff] at h
  obtain ⟨o, ho, rfl⟩ := h
  exact ⟨σ.dst.absorb o, o.acks, by rw [ReceiverSys.step, ho]; rfl, rfl, rfl⟩

/-- A packet in flight can be delivered whenever the receiver returns. -/
lemma step_deliverData {fresh : ℤ → ℕ → Byte} {σ : Sys} {a : Packet × Packet} {dst : ReceiverSys}
    (hmem : a.1 ∈ σ.data) (h : σ.dst.step fresh a = some dst) :
    ∃ new, dst.acks = σ.dst.acks ++ new ∧
      σ.step fresh (.deliverData a.1 a.2) =
        some { σ with dst := dst, data := σ.data.erase a.1, acks := σ.acks + new } := by
  obtain ⟨o, ho, rfl⟩ := Option.map_eq_some_iff.mp h
  refine ⟨o.acks, rfl, ?_⟩
  simp only [step, if_pos hmem, receive, ho, Option.map_some]

/-- **Everything one step can do**: a call into the sender, a delivery to the receiver, or
something the network does by itself. -/
theorem step_cases {fresh : ℤ → ℕ → Byte} {σ σ' : Sys} {e : SysEvent}
    (h : σ.step fresh e = some σ') :
    (∃ e' src new acks, σ.src.step e' = some src ∧ src.sent = σ.src.sent ++ new ∧
      σ' = { σ with src := src, data := σ.data + new, acks := acks } ∧
      (∀ p ∈ acks, p ∈ σ.acks) ∧
      (∀ msg junk, e' = .fromUpperLayer msg junk → e = .fromUpperLayer msg junk) ∧
      (∀ pkt junk, e' = .fromLowerLayer pkt junk → pkt ∈ σ.acks) ∧
      (∀ junk, e' = .timeout junk → σ.src.timer = true)) ∨
    (∃ pkt junk dst new, e = .deliverData pkt junk ∧ pkt ∈ σ.data ∧
      σ.dst.step fresh (pkt, junk) = some dst ∧ dst.acks = σ.dst.acks ++ new ∧
      σ' = { σ with dst := dst, data := σ.data.erase pkt, acks := σ.acks + new }) ∨
    (∃ data acks, σ' = { σ with data := data, acks := acks } ∧
      (∀ p ∈ data, rdtVerifyChecksum p = true → p ∈ σ.data) ∧
      (∀ p ∈ acks, rdtVerifyChecksum p = true → p ∈ σ.acks)) := by
  cases e with
  | fromUpperLayer msg junk =>
    left
    obtain ⟨src, new, hsrc, hsent, rfl⟩ := send_eq_some h
    exact ⟨_, src, new, σ.acks, hsrc, hsent, rfl, fun _ hp => hp, fun _ _ heq => (by cases heq; rfl),
      fun _ _ heq => (by cases heq), fun _ heq => (by cases heq)⟩
  | timeout junk =>
    left
    simp only [step, Option.ite_none_right_eq_some] at h
    obtain ⟨src, new, hsrc, hsent, rfl⟩ := send_eq_some h.2
    exact ⟨_, src, new, σ.acks, hsrc, hsent, rfl, fun _ hp => hp, fun _ _ heq => (by cases heq),
      fun _ _ heq => (by cases heq), fun _ _ => h.1⟩
  | deliverData pkt junk =>
    right; left
    simp only [step, Option.ite_none_right_eq_some] at h
    obtain ⟨dst, new, hdst, hacks, rfl⟩ := receive_eq_some h.2
    exact ⟨pkt, junk, dst, new, rfl, h.1, hdst, hacks, rfl⟩
  | deliverAck pkt junk =>
    left
    simp only [step, Option.ite_none_right_eq_some] at h
    obtain ⟨src, new, hsrc, hsent, rfl⟩ := send_eq_some h.2
    exact ⟨_, src, new, σ.acks.erase pkt, hsrc, hsent, rfl, fun _ hp => Multiset.mem_of_mem_erase hp,
      fun _ _ heq => (by cases heq), fun _ _ heq => (by cases heq; exact h.1),
      fun _ heq => (by cases heq)⟩
  | onData e =>
    right; right
    simp only [step, Option.map_eq_some_iff] at h
    obtain ⟨d, hd, rfl⟩ := h
    exact ⟨d, σ.acks, rfl, fun _ hp hver => e.mem_of_apply hd hp hver, fun _ hp _ => hp⟩
  | onAcks e =>
    right; right
    simp only [step, Option.map_eq_some_iff] at h
    obtain ⟨d, hd, rfl⟩ := h
    exact ⟨σ.data, d, rfl, fun _ hp _ => hp, fun _ hp hver => e.mem_of_apply hd hp hver⟩

end Sys
end NetLabs.Rdt
