import NetLabs.Rdt.Sim
import NetLabs.Rdt.SystemTheorems

/-!
# The simulator runs the system

`abs` forgets the times: what is left of the event chain are the packets in flight. Every
round of the main loop is then a step of `Sys`, followed by what the link did to the packets
that were handed to it (`reached_of_run`). The timer of `Sys` is the timeout event in the chain,
which `TimerChain` keeps in step with `sender_timer`.
-/

namespace NetLabs.Rdt

open NetLabs.Lib NetLabs.Lib.Bytes UpperMessage

/-- The delay of a packet that is not lost. -/
def Fate.delay {T : Type*} [Zero T] : Fate T → T
  | .lost => 0
  | .passed _ delay => delay

namespace EventType

/-- The data packet that an event delivers. -/
def dataPacket : EventType → Option Packet
  | receiverFromLowerLayer pkt => some pkt
  | _ => none

/-- The ack that an event delivers. -/
def ackPacket : EventType → Option Packet
  | senderFromLowerLayer pkt => some pkt
  | _ => none

end EventType

/-- The packets that the events of a chain deliver. -/
def inFlight {T : Type*} (sel : EventType → Option Packet) (l : List (Event T)) :
    Multiset Packet :=
  l.filterMap fun e => sel e.eventType

section
variable {T : Type*} {sel : EventType → Option Packet}

lemma inFlight_cons (e : Event T) (l : List (Event T)) :
    inFlight sel (e :: l) = (sel e.eventType).toList + inFlight sel l := by
  simp only [inFlight, List.filterMap_cons]
  cases sel e.eventType with
  | none => simp
  | some p => rfl

lemma inFlight_perm {l l' : List (Event T)} (h : l.Perm l') : inFlight sel l = inFlight sel l' :=
  Multiset.coe_eq_coe.mpr (h.filterMap _)

/-- Cancelling a timeout leaves the packets alone. -/
lemma inFlight_eraseP (hsel : sel .senderTimeout = none) {id : ℕ} : ∀ {l : List (Event T)},
    (∀ e ∈ l, e.id = id → e.eventType = .senderTimeout) →
    inFlight sel (l.eraseP fun e => e.id == id) = inFlight sel l := by
  intro l
  induction l with
  | nil => intro _; rfl
  | cons e l ih =>
    intro h
    have hrest := ih fun x hx => h x (List.mem_cons_of_mem _ hx)
    by_cases hid : e.id = id
    · rw [List.eraseP_cons_of_pos (by simpa using hid), inFlight_cons,
        h e (List.mem_cons_self ..) hid, hsel]
      simp
    · rw [List.eraseP_cons_of_neg (by simpa using hid), inFlight_cons, inFlight_cons, hrest]

end

namespace Sim

/-! ## The chain and the timer -/

section
variable {T : Type*}

/-- The events in the chain are different objects, and `sender_timer` points to the only
timeout among them, if there is one. -/
structure TimerChain (σ : Sim T) : Prop where
  id_lt : ∀ e ∈ σ.core.chain, e.id < σ.nextId
  nodup : (σ.core.chain.map Event.id).Nodup
  timer_mem : ∀ id, σ.senderTimer = some id →
    ∃ e ∈ σ.core.chain, e.id = id ∧ e.eventType = .senderTimeout
  mem_timer : ∀ e ∈ σ.core.chain, e.eventType = .senderTimeout → σ.senderTimer = some e.id

namespace TimerChain

/-- The parts of the simulator that matter here. -/
lemma congr {σ τ : Sim T} (h : TimerChain σ) (hchain : τ.core.chain = σ.core.chain)
    (hid : τ.nextId = σ.nextId) (htimer : τ.senderTimer = σ.senderTimer) : TimerChain τ := by
  refine ⟨?_, ?_, ?_, ?_⟩
  · rw [hchain, hid]; exact h.id_lt
  · rw [hchain]; exact h.nodup
  · rw [hchain, htimer]; exact h.timer_mem
  · rw [hchain, htimer]; exact h.mem_timer

/-- The event of the timer is the only one with its number. -/
lemma eq_timeout {σ : Sim T} (h : TimerChain σ) {id : ℕ} (hid : σ.senderTimer = some id) :
    ∀ e ∈ σ.core.chain, e.id = id → e.eventType = .senderTimeout := by
  intro e he heq
  obtain ⟨e', he', hid', htime⟩ := h.timer_mem id hid
  have : e = e' := List.inj_on_of_nodup_map h.nodup he he' (heq.trans hid'.symm)
  rw [this]
  exact htime

/-- After `Sender_StopTimer` the chain holds no timeout. -/
lemma stopTimer {σ : Sim T} (h : TimerChain σ) :
    TimerChain σ.stopTimer ∧ σ.stopTimer.senderTimer = none := by
  unfold Sim.stopTimer
  cases hid : σ.senderTimer with
  | none => exact ⟨h, hid⟩
  | some id =>
    have hsub : (σ.core.cancel id).chain.Sublist σ.core.chain := List.eraseP_sublist
    refine ⟨⟨fun e he => h.id_lt e (hsub.subset he), h.nodup.sublist (hsub.map _), by simp, ?_⟩, rfl⟩
    -- the timeout was the event with this number, and it is gone
    intro e he htime
    exfalso
    have heq : σ.senderTimer = some e.id := h.mem_timer e (hsub.subset he) htime
    obtain rfl : id = e.id := Option.some.inj (hid.symm.trans heq)
    -- what is erased is an event with this number, and no other has it
    have hcount := h.nodup
    obtain ⟨a, l₁, l₂, hl₁, ha, hchain, herase⟩ :=
      List.exists_of_eraseP (p := fun x : Event T => x.id == e.id) (hsub.subset he) (by simp)
    rw [hchain, List.map_append, List.map_cons, List.nodup_append, List.nodup_cons] at hcount
    change e ∈ σ.core.chain.eraseP _ at he
    rw [herase] at he
    have ha' : a.id = e.id := by simpa using ha
    rcases List.mem_append.mp he with he | he
    · exact hl₁ e he (by simp)
    · exact hcount.2.1.1 (by rw [ha']; exact List.mem_map_of_mem he)

/-- The first event of the chain is taken out. A timeout takes the timer with it. -/
lemma pop {σ : Sim T} (h : TimerChain σ) {e : Event T} {rest : List (Event T)}
    (hchain : σ.core.chain = e :: rest) (timer : Option ℕ)
    (htimer : timer = if e.eventType = .senderTimeout then none else σ.senderTimer) :
    TimerChain { σ with core := ⟨e.schedTime, rest⟩, senderTimer := timer } := by
  have hmem : ∀ x ∈ rest, x ∈ σ.core.chain := by
    intro x hx; rw [hchain]; exact List.mem_cons_of_mem _ hx
  have hnodup := h.nodup
  rw [hchain, List.map_cons, List.nodup_cons] at hnodup
  refine ⟨fun x hx => h.id_lt x (hmem x hx), hnodup.2, fun id hid => ?_, fun x hx htime => ?_⟩
  · change timer = some id at hid
    by_cases he : e.eventType = .senderTimeout
    · rw [htimer, if_pos he] at hid; cases hid
    · rw [htimer, if_neg he] at hid
      obtain ⟨x, hx, hprop⟩ := h.timer_mem id hid
      rw [hchain] at hx
      rcases List.mem_cons.mp hx with rfl | hx
      · exact absurd hprop.2 he
      · exact ⟨x, hx, hprop⟩
  · show timer = some x.id
    have hx' := h.mem_timer x (hmem x hx) htime
    by_cases he : e.eventType = .senderTimeout
    · -- two timeouts would be the same event
      exfalso
      have he' := h.mem_timer e (by rw [hchain]; exact List.mem_cons_self ..) he
      have hid : x.id = e.id := Option.some.inj (hx'.symm.trans he')
      exact hnodup.1 (hid ▸ List.mem_map_of_mem hx)
    · rw [htimer, if_neg he]; exact hx'

end TimerChain

/-- Stopping the timer leaves the packets in flight alone. -/
lemma inFlight_stopTimer {sel : EventType → Option Packet} (hsel : sel .senderTimeout = none)
    {σ : Sim T} (h : TimerChain σ) :
    inFlight sel σ.stopTimer.core.chain = inFlight sel σ.core.chain := by
  unfold stopTimer
  cases hid : σ.senderTimer with
  | none => rfl
  | some id => exact inFlight_eraseP hsel (h.eq_timeout hid)

lemma map_fst_withFates {α : Type*} (fates : ℕ → Fate T) (l : List α) :
    (withFates fates l).map Prod.fst = l := by
  apply List.ext_getElem?
  intro i
  rw [withFates, List.getElem?_map, List.getElem?_mapIdx, Option.map_map]
  exact Option.map_id'

lemma delay_withFates [Zero T] [LE T] {α : Type*} {fates : ℕ → Fate T}
    (h : ∀ i, 0 ≤ (fates i).delay) {l : List α} {c : α × Fate T} (hc : c ∈ withFates fates l) :
    0 ≤ c.2.delay := by
  obtain ⟨i, -, rfl⟩ := List.mem_mapIdx.mp hc
  exact h i

lemma stopTimer_frame (σ : Sim T) : σ.stopTimer.nextId = σ.nextId ∧ σ.stopTimer.src = σ.src ∧
    σ.stopTimer.dst = σ.dst ∧ σ.stopTimer.altered = σ.altered := by
  unfold stopTimer
  split
  · exact ⟨rfl, rfl, rfl, rfl⟩
  · exact ⟨rfl, rfl, rfl, rfl⟩

end

variable {T : Type*} [LinearOrder T] [AddCommGroup T] [IsOrderedAddMonoid T]

/-- An event that is not scheduled for the past enters the chain. -/
lemma chain_scheduleAfter {delay : T} (hd : 0 ≤ delay) (ty : EventType) (σ : Sim T) :
    (σ.scheduleAfter delay ty).core.chain.Perm
      (⟨σ.nextId, σ.core.simTime + delay, ty⟩ :: σ.core.chain) := by
  have hpast : ¬ σ.core.simTime + delay < σ.core.simTime :=
    not_lt.mpr (le_add_of_nonneg_right hd)
  simp only [scheduleAfter, EventChain.schedule, if_neg hpast]
  exact List.perm_orderedInsert _ _ _

lemma inFlight_scheduleAfter (sel : EventType → Option Packet) {delay : T} (hd : 0 ≤ delay)
    (ty : EventType) (σ : Sim T) :
    inFlight sel (σ.scheduleAfter delay ty).core.chain =
      (sel ty).toList + inFlight sel σ.core.chain := by
  rw [inFlight_perm (chain_scheduleAfter hd ty σ), inFlight_cons]

namespace TimerChain

/-- A new event, whose number becomes that of the timer if it is a timeout. -/
lemma scheduleAfter {σ : Sim T} (h : TimerChain σ) {delay : T} (hd : 0 ≤ delay) (ty : EventType)
    (timer : Option ℕ) (htimer : ty ≠ .senderTimeout ∧ timer = σ.senderTimer ∨
      ty = .senderTimeout ∧ σ.senderTimer = none ∧ timer = some σ.nextId) :
    TimerChain { σ.scheduleAfter delay ty with senderTimer := timer } := by
  -- up to its place the chain has one more event
  have hperm := chain_scheduleAfter hd ty σ
  refine ⟨fun e he => ?_, ?_, fun id hid => ?_, fun e he htime => ?_⟩
  · show e.id < σ.nextId + 1
    rcases List.mem_cons.mp (hperm.mem_iff.mp he) with rfl | he
    · exact Nat.lt_succ_self _
    · exact Nat.lt_succ_of_lt (h.id_lt e he)
  · show ((σ.scheduleAfter delay ty).core.chain.map Event.id).Nodup
    rw [(hperm.map Event.id).nodup_iff, List.map_cons, List.nodup_cons]
    refine ⟨fun hmem => ?_, h.nodup⟩
    obtain ⟨e, he, hid⟩ := List.mem_map.mp hmem
    exact absurd hid (ne_of_lt (h.id_lt e he))
  · change timer = some id at hid
    rcases htimer with ⟨-, hsame⟩ | ⟨hty, -, hnew⟩
    · obtain ⟨e, he, hprop⟩ := h.timer_mem id (hsame.symm.trans hid)
      exact ⟨e, hperm.mem_iff.mpr (List.mem_cons_of_mem _ he), hprop⟩
    · obtain rfl : σ.nextId = id := Option.some.inj (hnew.symm.trans hid)
      exact ⟨_, hperm.mem_iff.mpr (List.mem_cons_self ..), rfl, hty⟩
  · show timer = some e.id
    rcases List.mem_cons.mp (hperm.mem_iff.mp he) with rfl | he
    · rcases htimer with ⟨hty, -⟩ | ⟨-, -, hnew⟩
      · exact absurd htime hty
      · exact hnew
    · have hold := h.mem_timer e he htime
      rcases htimer with ⟨-, hsame⟩ | ⟨-, hnone, -⟩
      · exact hsame.trans hold
      · rw [hnone] at hold; cases hold

/-- After `Sender_StartTimer` the chain holds the timeout that was scheduled. -/
lemma startTimer {σ : Sim T} (h : TimerChain σ) {timeout : T} (ht : 0 ≤ timeout) :
    TimerChain (σ.startTimer timeout) := by
  obtain ⟨hstop, hnone⟩ := h.stopTimer
  refine hstop.scheduleAfter ht .senderTimeout _ (Or.inr ⟨rfl, hnone, ?_⟩)
  rw [(stopTimer_frame σ).1]

end TimerChain

/-! ## The link -/

omit [IsOrderedAddMonoid T] in
/-- What handing a packet to the link leaves alone. -/
lemma toLowerLayer_frame (arrival : Packet → EventType) (fate : Fate T) (pkt : Packet)
    (σ : Sim T) : (toLowerLayer arrival fate pkt σ).src = σ.src ∧
      (toLowerLayer arrival fate pkt σ).dst = σ.dst ∧
      (toLowerLayer arrival fate pkt σ).senderTimer = σ.senderTimer ∧
      (∀ q ∈ σ.altered, q ∈ (toLowerLayer arrival fate pkt σ).altered) := by
  cases fate with
  | lost => exact ⟨rfl, rfl, rfl, fun _ hq => hq⟩
  | passed noise delay =>
    refine ⟨rfl, rfl, rfl, fun q hq => ?_⟩
    simp only [toLowerLayer, scheduleAfter]
    split
    · exact hq
    · exact List.mem_append_left _ hq

lemma TimerChain.toLowerLayer {σ : Sim T} (h : TimerChain σ) {arrival : Packet → EventType}
    (harr : ∀ pkt, arrival pkt ≠ .senderTimeout) {fate : Fate T} (hd : 0 ≤ fate.delay)
    (pkt : Packet) : TimerChain (toLowerLayer arrival fate pkt σ) := by
  cases fate with
  | lost => exact h
  | passed noise delay =>
    have h' := h.scheduleAfter hd (arrival (noise.elim pkt (corrupt · pkt))) _
      (Or.inl ⟨harr _, rfl⟩)
    exact h'.congr rfl rfl rfl

/-- A packet that is handed to the link is lost, arrives as it is, or arrives altered. -/
lemma inFlight_toLowerLayer (sel : EventType → Option Packet) {arrival : Packet → EventType}
    {fate : Fate T} (hd : 0 ≤ fate.delay) (pkt : Packet) (σ : Sim T)
    (hbad : ∀ q ∈ (toLowerLayer arrival fate pkt σ).altered, rdtVerifyChecksum q = false) :
    inFlight sel (toLowerLayer arrival fate pkt σ).core.chain = inFlight sel σ.core.chain ∧
      fate = .lost ∨
    ∃ pkt', (pkt' = pkt ∨ rdtVerifyChecksum pkt' = false) ∧
      inFlight sel (toLowerLayer arrival fate pkt σ).core.chain =
        (sel (arrival pkt')).toList + inFlight sel σ.core.chain := by
  cases fate with
  | lost => exact Or.inl ⟨rfl, rfl⟩
  | passed noise delay =>
    right
    refine ⟨noise.elim pkt (corrupt · pkt), ?_, inFlight_scheduleAfter sel hd _ σ⟩
    by_cases hsame : noise.elim pkt (corrupt · pkt) = pkt
    · exact Or.inl hsame
    · right
      apply hbad
      simp [toLowerLayer, hsame]

end Sim

/-! ## Rounds of the main loop are steps of the system -/

namespace Sys

variable {fresh : ℤ → ℕ → Byte} {src : SenderSys} {dst : ReceiverSys} {data acks : Multiset Packet}

/-- The runs of the system that the simulator follows. -/
abbrev Reached (fresh : ℤ → ℕ → Byte) (σ : Sys) : Prop := Run (step fresh) Bounded Init σ

lemma Reached.onData {σ : Sys} (h : Reached fresh σ) {e : NetEvent} {d : Multiset Packet}
    (he : e.apply σ.data = some d) : Reached fresh { σ with data := d } := by
  have hfew : σ.src.snd.pktSeq < 2 ^ 31 - 10 := few_packets (fun _ _ _ hok => hok.1) h
  exact h.next (e := .onData e) (by simp [step, he]) ⟨hfew, fun _ _ heq => by cases heq⟩

lemma Reached.onAcks {σ : Sys} (h : Reached fresh σ) {e : NetEvent} {d : Multiset Packet}
    (he : e.apply σ.acks = some d) : Reached fresh { σ with acks := d } := by
  have hfew : σ.src.snd.pktSeq < 2 ^ 31 - 10 := few_packets (fun _ _ _ hok => hok.1) h
  exact h.next (e := .onAcks e) (by simp [step, he]) ⟨hfew, fun _ _ heq => by cases heq⟩

lemma Reached.fromUpperLayer (h : Reached fresh ⟨src, dst, data, acks⟩) {msg : UpperMessage}
    {junk : Packet} {o : Sender.Outcome}
    (ho : src.handle (.fromUpperLayer msg junk) = some o) (hfew : o.snd.pktSeq < 2 ^ 31 - 10)
    (hfits : src.snd.msgBufferNum + 1 ≤ maxBufferSize) :
    Reached fresh ⟨src.after (.fromUpperLayer msg junk) o, dst, data + o.sent, acks⟩ :=
  h.next (e := .fromUpperLayer msg junk) (by simp [step, send, ho]) ⟨hfew, fun _ _ _ => hfits⟩

lemma Reached.timeout (h : Reached fresh ⟨src, dst, data, acks⟩) {junk : Packet}
    {o : Sender.Outcome} (ho : src.handle (.timeout junk) = some o)
    (hfew : o.snd.pktSeq < 2 ^ 31 - 10) (hset : src.timer = true) :
    Reached fresh ⟨src.after (.timeout junk) o, dst, data + o.sent, acks⟩ :=
  h.next (e := .timeout junk) (by simp [step, send, ho, hset])
    ⟨hfew, fun _ _ heq => by cases heq⟩

lemma Reached.deliverAck {pkt : Packet} (h : Reached fresh ⟨src, dst, data, pkt ::ₘ acks⟩)
    {junk : Packet} {o : Sender.Outcome} (ho : src.handle (.fromLowerLayer pkt junk) = some o)
    (hfew : o.snd.pktSeq < 2 ^ 31 - 10) :
    Reached fresh ⟨src.after (.fromLowerLayer pkt junk) o, dst, data + o.sent, acks⟩ :=
  h.next (e := .deliverAck pkt junk) (by simp [step, send, ho])
    ⟨hfew, fun _ _ heq => by cases heq⟩

lemma Reached.deliverData {pkt : Packet} (h : Reached fresh ⟨src, dst, pkt ::ₘ data, acks⟩)
    {junk : Packet} {o : Receiver.Outcome}
    (ho : dst.rcv.fromLowerLayer fresh junk pkt = some o) :
    Reached fresh ⟨src, dst.absorb o, data, acks + o.acks⟩ := by
  have hfew : src.snd.pktSeq < 2 ^ 31 - 10 := few_packets (fun _ _ _ hok => hok.1) h
  exact h.next (e := .deliverData pkt junk) (by simp [step, receive, ho])
    ⟨hfew, fun _ _ heq => by cases heq⟩

lemma apply_lose (p : Packet) (D : Multiset Packet) :
    (NetEvent.lose p).apply (p ::ₘ D) = some D := by
  simp [NetEvent.apply]

lemma apply_alter {p' : Packet} (hbad : rdtVerifyChecksum p' = false) (p : Packet)
    (D : Multiset Packet) : (NetEvent.alter p p').apply (p ::ₘ D) = some (p' ::ₘ D) := by
  simp [NetEvent.apply, hbad]

end Sys

namespace Sim

variable {T : Type*} [LinearOrder T] [AddCommGroup T] [IsOrderedAddMonoid T]
variable {fresh : ℤ → ℕ → Byte}

/-- The data packets in flight. -/
def data (σ : Sim T) : Multiset Packet := inFlight EventType.dataPacket σ.core.chain

/-- The acks in flight. -/
def acks (σ : Sim T) : Multiset Packet := inFlight EventType.ackPacket σ.core.chain

/-- The link takes a packet from the sender. -/
lemma reached_senderToLowerLayer {σ : Sim T} {fate : Fate T} (hd : 0 ≤ fate.delay) {pkt : Packet}
    (hbad : ∀ q ∈ (σ.senderToLowerLayer fate pkt).altered, rdtVerifyChecksum q = false)
    {src : SenderSys} {dst : ReceiverSys} {D : Multiset Packet}
    (h : Sys.Reached fresh ⟨src, dst, pkt ::ₘ (σ.data + D), σ.acks⟩) :
    Sys.Reached fresh ⟨src, dst, (σ.senderToLowerLayer fate pkt).data + D,
      (σ.senderToLowerLayer fate pkt).acks⟩ := by
  -- the event for the receiver is no ack
  have hacks : (σ.senderToLowerLayer fate pkt).acks = σ.acks := by
    rcases inFlight_toLowerLayer EventType.ackPacket hd pkt σ hbad with ⟨heq, -⟩ | ⟨pkt', -, heq⟩
    · exact heq
    · rw [acks, senderToLowerLayer, heq]
      simp [EventType.ackPacket, acks]
  rw [hacks]
  rcases inFlight_toLowerLayer EventType.dataPacket hd pkt σ hbad with ⟨heq, -⟩ | ⟨pkt', hpkt, heq⟩
  · rw [data, senderToLowerLayer, heq]
    exact h.onData (Sys.apply_lose pkt _)
  · rw [data, senderToLowerLayer, heq]
    have hone : ((EventType.receiverFromLowerLayer pkt').dataPacket.toList : Multiset Packet) +
        inFlight EventType.dataPacket σ.core.chain + D = pkt' ::ₘ (σ.data + D) := by
      simp [EventType.dataPacket, data]
    rw [hone]
    rcases hpkt with rfl | hdam
    · exact h
    · exact h.onData (Sys.apply_alter hdam pkt _)

/-- The link takes an ack from the receiver. -/
lemma reached_receiverToLowerLayer {σ : Sim T} {fate : Fate T} (hd : 0 ≤ fate.delay)
    {pkt : Packet}
    (hbad : ∀ q ∈ (σ.receiverToLowerLayer fate pkt).altered, rdtVerifyChecksum q = false)
    {src : SenderSys} {dst : ReceiverSys} {D : Multiset Packet}
    (h : Sys.Reached fresh ⟨src, dst, σ.data, pkt ::ₘ (σ.acks + D)⟩) :
    Sys.Reached fresh ⟨src, dst, (σ.receiverToLowerLayer fate pkt).data,
      (σ.receiverToLowerLayer fate pkt).acks + D⟩ := by
  -- the event for the sender is no data packet
  have hdata : (σ.receiverToLowerLayer fate pkt).data = σ.data := by
    rcases inFlight_toLowerLayer EventType.dataPacket hd pkt σ hbad with ⟨heq, -⟩ | ⟨pkt', -, heq⟩
    · exact heq
    · rw [data, receiverToLowerLayer, heq]
      simp [EventType.dataPacket, data]
  rw [hdata]
  rcases inFlight_toLowerLayer EventType.ackPacket hd pkt σ hbad with ⟨heq, -⟩ | ⟨pkt', hpkt, heq⟩
  · rw [acks, receiverToLowerLayer, heq]
    exact h.onAcks (Sys.apply_lose pkt _)
  · rw [acks, receiverToLowerLayer, heq]
    have hone : ((EventType.senderFromLowerLayer pkt').ackPacket.toList : Multiset Packet) +
        inFlight EventType.ackPacket σ.core.chain + D = pkt' ::ₘ (σ.acks + D) := by
      simp [EventType.ackPacket, acks]
    rw [hone]
    rcases hpkt with rfl | hdam
    · exact h
    · exact h.onAcks (Sys.apply_alter hdam pkt _)

/-! ## A handler's calls -/

/-- The packets among a handler's calls. -/
def sentOf (calls : List SenderCall) : List Packet :=
  calls.filterMap fun call => match call with
    | .toLowerLayer pkt => some pkt
    | _ => none

/-- The timer after a call. -/
def timerAfter (timer : Bool) (call : SenderCall) : Bool :=
  match call with
  | .startTimer => true
  | .stopTimer => false
  | .toLowerLayer _ => timer

omit [IsOrderedAddMonoid T] in
lemma senderCall_frame (timeout : T) (σ : Sim T) (c : SenderCall × Fate T) :
    (senderCall timeout σ c).src = σ.src ∧ (senderCall timeout σ c).dst = σ.dst ∧
      (∀ q ∈ σ.altered, q ∈ (senderCall timeout σ c).altered) := by
  obtain ⟨-, hsrc, hdst, halt⟩ := stopTimer_frame σ
  obtain ⟨call, fate⟩ := c
  cases call with
  | startTimer => exact ⟨hsrc, hdst, fun q hq => by rw [← halt] at hq; exact hq⟩
  | stopTimer => exact ⟨hsrc, hdst, fun q hq => by rw [← halt] at hq; exact hq⟩
  | toLowerLayer pkt =>
    obtain ⟨h₁, h₂, -, h₃⟩ := toLowerLayer_frame .receiverFromLowerLayer fate pkt σ
    exact ⟨h₁, h₂, h₃⟩

/-- One call: the timer, and what the link does with the packet. -/
lemma reached_senderCall {timeout : T} (ht : 0 ≤ timeout) {σ : Sim T} (h : TimerChain σ)
    {call : SenderCall} {fate : Fate T} (hd : 0 ≤ fate.delay)
    (hbad : ∀ q ∈ (senderCall timeout σ (call, fate)).altered, rdtVerifyChecksum q = false)
    {src : SenderSys} {dst : ReceiverSys} {D : Multiset Packet}
    (hr : Sys.Reached fresh ⟨src, dst, σ.data + (sentOf [call] + D), σ.acks⟩) :
    TimerChain (senderCall timeout σ (call, fate)) ∧
      (senderCall timeout σ (call, fate)).senderTimer.isSome =
        timerAfter σ.senderTimer.isSome call ∧
      Sys.Reached fresh ⟨src, dst, (senderCall timeout σ (call, fate)).data + D,
        (senderCall timeout σ (call, fate)).acks⟩ := by
  cases call with
  | startTimer =>
    -- neither the old timeout nor the new one delivers a packet
    have hflight : ∀ sel : EventType → Option Packet, sel .senderTimeout = none →
        inFlight sel (σ.startTimer timeout).core.chain = inFlight sel σ.core.chain := by
      intro sel hsel
      show inFlight sel (σ.stopTimer.scheduleAfter timeout .senderTimeout).core.chain = _
      rw [inFlight_scheduleAfter sel ht, hsel, inFlight_stopTimer hsel h]
      simp
    refine ⟨h.startTimer ht, rfl, ?_⟩
    simp only [senderCall, data, acks, hflight EventType.dataPacket rfl,
      hflight EventType.ackPacket rfl]
    simpa [sentOf, data, acks] using hr
  | stopTimer =>
    refine ⟨h.stopTimer.1, ?_, ?_⟩
    · simp only [senderCall, h.stopTimer.2, timerAfter, Option.isSome_none]
    · have hdata : σ.stopTimer.data = σ.data := inFlight_stopTimer rfl h
      have hacks : σ.stopTimer.acks = σ.acks := inFlight_stopTimer rfl h
      simp only [senderCall, hdata, hacks]
      simpa [sentOf] using hr
  | toLowerLayer pkt =>
    refine ⟨h.toLowerLayer (by simp) hd pkt, ?_, ?_⟩
    · simp only [senderCall, senderToLowerLayer,
        (toLowerLayer_frame .receiverFromLowerLayer fate pkt σ).2.2.1, timerAfter]
    · apply reached_senderToLowerLayer hd hbad
      rw [show pkt ::ₘ (σ.data + D) = σ.data + (sentOf [.toLowerLayer pkt] + D) by
        simp [sentOf]]
      exact hr

omit [IsOrderedAddMonoid T] in
lemma senderCalls_frame (timeout : T) : ∀ (cs : List (SenderCall × Fate T)) (σ : Sim T),
    (cs.foldl (senderCall timeout) σ).src = σ.src ∧
      (cs.foldl (senderCall timeout) σ).dst = σ.dst ∧
      (∀ q ∈ σ.altered, q ∈ (cs.foldl (senderCall timeout) σ).altered) := by
  intro cs
  induction cs with
  | nil => intro σ; exact ⟨rfl, rfl, fun _ hq => hq⟩
  | cons c cs ih =>
    intro σ
    obtain ⟨hsrc, hdst, halt⟩ := senderCall_frame timeout σ c
    obtain ⟨hsrc', hdst', halt'⟩ := ih (senderCall timeout σ c)
    exact ⟨hsrc'.trans hsrc, hdst'.trans hdst, fun q hq => halt' q (halt q hq)⟩

/-- All the calls of a handler, in order. -/
lemma reached_senderCalls {timeout : T} (ht : 0 ≤ timeout) {src : SenderSys} {dst : ReceiverSys} :
    ∀ (cs : List (SenderCall × Fate T)) {σ : Sim T}, TimerChain σ → (∀ c ∈ cs, 0 ≤ c.2.delay) →
    (∀ q ∈ (cs.foldl (senderCall timeout) σ).altered, rdtVerifyChecksum q = false) →
    Sys.Reached fresh ⟨src, dst, σ.data + sentOf (cs.map Prod.fst), σ.acks⟩ →
    TimerChain (cs.foldl (senderCall timeout) σ) ∧
      (cs.foldl (senderCall timeout) σ).senderTimer.isSome =
        (cs.map Prod.fst).foldl timerAfter σ.senderTimer.isSome ∧
      Sys.Reached fresh ⟨src, dst, (cs.foldl (senderCall timeout) σ).data,
        (cs.foldl (senderCall timeout) σ).acks⟩ := by
  intro cs
  induction cs with
  | nil =>
    intro σ h _ _ hr
    exact ⟨h, rfl, by simpa [sentOf] using hr⟩
  | cons c cs ih =>
    intro σ h hd hbad hr
    obtain ⟨call, fate⟩ := c
    -- the packets that are still to be handed on count as in flight
    have hsplit : (sentOf (((call, fate) :: cs).map Prod.fst) : Multiset Packet) =
        sentOf [call] + sentOf (cs.map Prod.fst) := by
      rw [Multiset.coe_add, sentOf, sentOf, sentOf, ← List.filterMap_append]
      rfl
    rw [hsplit] at hr
    obtain ⟨h₁, htimer, hr₁⟩ := reached_senderCall ht h (hd _ (List.mem_cons_self ..))
      (fun q hq => hbad q ((senderCalls_frame timeout cs _).2.2 q hq)) hr
    obtain ⟨h₂, htimer₂, hr₂⟩ := ih h₁ (fun x hx => hd x (List.mem_cons_of_mem _ hx)) hbad hr₁
    rw [htimer] at htimer₂
    exact ⟨h₂, htimer₂, hr₂⟩

omit [IsOrderedAddMonoid T] in
lemma receiverCalls_frame : ∀ (cs : List (Packet × Fate T)) (σ : Sim T),
    (cs.foldl receiverCall σ).src = σ.src ∧ (cs.foldl receiverCall σ).dst = σ.dst ∧
      (cs.foldl receiverCall σ).senderTimer = σ.senderTimer ∧
      (∀ q ∈ σ.altered, q ∈ (cs.foldl receiverCall σ).altered) := by
  intro cs
  induction cs with
  | nil => intro σ; exact ⟨rfl, rfl, rfl, fun _ hq => hq⟩
  | cons c cs ih =>
    intro σ
    obtain ⟨hsrc, hdst, htimer, halt⟩ := toLowerLayer_frame .senderFromLowerLayer c.2 c.1 σ
    obtain ⟨hsrc', hdst', htimer', halt'⟩ := ih (receiverCall σ c)
    exact ⟨hsrc'.trans hsrc, hdst'.trans hdst, htimer'.trans htimer,
      fun q hq => halt' q (halt q hq)⟩

/-- All the acks of the receiver, in order. -/
lemma reached_receiverCalls {src : SenderSys} {dst : ReceiverSys} :
    ∀ (cs : List (Packet × Fate T)) {σ : Sim T}, TimerChain σ → (∀ c ∈ cs, 0 ≤ c.2.delay) →
    (∀ q ∈ (cs.foldl receiverCall σ).altered, rdtVerifyChecksum q = false) →
    Sys.Reached fresh ⟨src, dst, σ.data, σ.acks + cs.map Prod.fst⟩ →
    TimerChain (cs.foldl receiverCall σ) ∧
      Sys.Reached fresh ⟨src, dst, (cs.foldl receiverCall σ).data,
        (cs.foldl receiverCall σ).acks⟩ := by
  intro cs
  induction cs with
  | nil =>
    intro σ h _ _ hr
    exact ⟨h, by simpa using hr⟩
  | cons c cs ih =>
    intro σ h hd hbad hr
    have hsplit : σ.acks + ((c :: cs).map Prod.fst : List Packet) =
        c.1 ::ₘ (σ.acks + (cs.map Prod.fst : List Packet)) := by
      rw [List.map_cons, ← Multiset.cons_coe, Multiset.add_cons]
    rw [hsplit] at hr
    have hr₁ := reached_receiverToLowerLayer (hd _ (List.mem_cons_self ..))
      (fun q hq => hbad q ((receiverCalls_frame cs _).2.2.2 q hq)) hr
    exact ih (h.toLowerLayer (by simp) (hd _ (List.mem_cons_self ..)) c.1)
      (fun x hx => hd x (List.mem_cons_of_mem _ hx)) hbad hr₁

/-! ## Whole runs -/

/-- The simulator without its times. -/
def abs (σ : Sim T) : Sys := ⟨σ.sender, σ.dst, σ.data, σ.acks⟩

/-- A round as it is assumed to go: no delay is negative, what the link alters is detected,
fewer than `2 ^ 31 - 10` packets are numbered, and the message buffer is never overfull. -/
structure Sound (σ : Sim T) (c : Choice T) (σ' : Sim T) : Prop where
  arrival_nonneg : 0 ≤ c.arrival
  delay_nonneg : ∀ i, 0 ≤ (c.fates i).delay
  detected : ∀ q ∈ σ'.altered, rdtVerifyChecksum q = false
  few : σ'.src.snd.pktSeq < 2 ^ 31 - 10
  fits : ∀ e rest, σ.core.chain = e :: rest → e.eventType = .senderFromUpperLayer →
    σ.src.snd.msgBufferNum + 1 ≤ maxBufferSize

/-- A handler of the sender: a call into the sender of the system, and what the link does. -/
lemma reached_callSender {timeout : T} (ht : 0 ≤ timeout) {σ σ' : Sim T} {c : Choice T}
    {e : SenderEvent} (h : TimerChain σ) (hd : ∀ i, 0 ≤ (c.fates i).delay)
    (hbad : ∀ q ∈ σ'.altered, rdtVerifyChecksum q = false)
    (hbefore : SenderSys.timerBefore σ.sender.timer e = σ.sender.timer)
    (he : callSender timeout c e σ = some σ')
    (hr : ∀ o, σ.sender.handle e = some o → σ'.src = σ.sender.after e o →
      Sys.Reached fresh ⟨σ.sender.after e o, σ.dst, σ.data + o.sent, σ.acks⟩) :
    TimerChain σ' ∧ Sys.Reached fresh σ'.abs := by
  unfold callSender at he
  rw [Option.map_eq_some_iff] at he
  obtain ⟨o, ho, rfl⟩ := he
  obtain ⟨hsrc, hdst, -⟩ := senderCalls_frame timeout (withFates c.fates o.calls)
    { σ with src := σ.sender.after e o }
  have h' : TimerChain { σ with src := σ.sender.after e o } :=
    h.congr rfl rfl rfl
  have hstart : Sys.Reached fresh ⟨σ.sender.after e o, σ.dst,
      σ.data + sentOf ((withFates c.fates o.calls).map Prod.fst), σ.acks⟩ := by
    rw [map_fst_withFates]; exact hr o ho hsrc
  obtain ⟨hchain, htimer, hreach⟩ := reached_senderCalls ht
    (withFates c.fates o.calls) h' (fun _ hc => delay_withFates hd hc) hbad hstart
  refine ⟨hchain, ?_⟩
  rw [map_fst_withFates] at htimer
  -- the timer in the chain is the one the log of calls says
  have hsender : ((withFates c.fates o.calls).foldl (senderCall timeout)
      { σ with src := σ.sender.after e o }).sender = σ.sender.after e o := by
    rw [sender, hsrc, htimer, SenderSys.after, hbefore]
    rfl
  rw [abs, hsender, hdst]
  exact hreach

omit [IsOrderedAddMonoid T] in
/-- The first event of a chain that is not empty, with the rest of the simulator. -/
lemma step_eq_some {p : Params T} {σ σ' : Sim T} {c : Choice T}
    (h : σ.step p fresh c = some σ') : ∃ e rest, σ.core.chain = e :: rest ∧
      (match e.eventType with
        | .senderFromUpperLayer => upperLayer p c { σ with core := ⟨e.schedTime, rest⟩ }
        | .senderFromLowerLayer pkt => callSender p.timeout c (.fromLowerLayer pkt c.junk)
            { σ with core := ⟨e.schedTime, rest⟩ }
        | .senderTimeout => callSender p.timeout c (.timeout c.junk)
            { σ with core := ⟨e.schedTime, rest⟩, senderTimer := none }
        | .receiverFromLowerLayer pkt => callReceiver fresh c pkt
            { σ with core := ⟨e.schedTime, rest⟩ }) = some σ' := by
  unfold step EventChain.nextEvent at h
  cases hchain : σ.core.chain with
  | nil => simp [hchain] at h
  | cons e rest =>
    simp only [hchain] at h
    exact ⟨e, rest, rfl, h⟩

/-- A message from the upper layer. -/
lemma reached_upperLayer {p : Params T} (ht : 0 ≤ p.timeout) {σ σ' : Sim T} {c : Choice T}
    (h : TimerChain σ) (hr : Sys.Reached fresh σ.abs) (harr : 0 ≤ c.arrival)
    (hd : ∀ i, 0 ≤ (c.fates i).delay) (hbad : ∀ q ∈ σ'.altered, rdtVerifyChecksum q = false)
    (hfew : σ'.src.snd.pktSeq < 2 ^ 31 - 10)
    (hfits : σ.src.snd.msgBufferNum + 1 ≤ maxBufferSize)
    (he : upperLayer p c σ = some σ') : TimerChain σ' ∧ Sys.Reached fresh σ'.abs := by
  unfold upperLayer at he
  simp only [Option.bind_eq_bind, Option.bind_eq_some_iff, Option.pure_def, Option.some.injEq] at he
  obtain ⟨σ₁, hcall, rfl⟩ := he
  -- the recurring event delivers no packet
  have hsame : ∀ τ : Sim T, TimerChain τ →
      TimerChain (τ.scheduleAfter c.arrival .senderFromUpperLayer) ∧
      (τ.scheduleAfter c.arrival .senderFromUpperLayer).abs = τ.abs := by
    intro τ hτ
    refine ⟨hτ.scheduleAfter harr _ _ (Or.inl ⟨by simp, rfl⟩), ?_⟩
    simp only [abs, data, acks, inFlight_scheduleAfter _ harr]
    simp [EventType.dataPacket, EventType.ackPacket, sender, scheduleAfter]
  have hsrc : σ₁.altered = (if σ₁.core.simTime < p.simTime then
      σ₁.scheduleAfter c.arrival .senderFromUpperLayer else σ₁).altered ∧ σ₁.src =
      (if σ₁.core.simTime < p.simTime then
        σ₁.scheduleAfter c.arrival .senderFromUpperLayer else σ₁).src := by
    split <;> exact ⟨rfl, rfl⟩
  rw [← hsrc.1] at hbad
  rw [← hsrc.2] at hfew
  have h₀ : TimerChain { σ with stats := (σ.stats.generateMsg c.size).2 } :=
    h.congr rfl rfl rfl
  obtain ⟨h₁, hr₁⟩ := reached_callSender ht h₀ hd hbad rfl hcall fun o ho hafter =>
    Sys.Reached.fromUpperLayer hr ho (by rw [hafter] at hfew; exact hfew) hfits
  split
  · rw [(hsame σ₁ h₁).2]
    exact ⟨(hsame σ₁ h₁).1, hr₁⟩
  · exact ⟨h₁, hr₁⟩

/-- A packet reaches the receiver. -/
lemma reached_callReceiver {σ σ' : Sim T} {c : Choice T} {pkt : Packet} (h : TimerChain σ)
    (hd : ∀ i, 0 ≤ (c.fates i).delay) (hbad : ∀ q ∈ σ'.altered, rdtVerifyChecksum q = false)
    (he : callReceiver fresh c pkt σ = some σ')
    (hr : Sys.Reached fresh ⟨σ.sender, σ.dst, pkt ::ₘ σ.data, σ.acks⟩) :
    TimerChain σ' ∧ Sys.Reached fresh σ'.abs := by
  unfold callReceiver at he
  rw [Option.map_eq_some_iff] at he
  obtain ⟨o, ho, rfl⟩ := he
  obtain ⟨hsrc, hdst, htimer, -⟩ := receiverCalls_frame (withFates c.fates o.acks)
    { σ with
      dst := σ.dst.absorb o
      stats := o.delivered.foldl Stats.receiverToUpperLayer σ.stats }
  have h' : TimerChain { σ with
      dst := σ.dst.absorb o
      stats := o.delivered.foldl Stats.receiverToUpperLayer σ.stats } :=
    h.congr rfl rfl rfl
  have hstart : Sys.Reached fresh ⟨σ.sender, σ.dst.absorb o, σ.data,
      σ.acks + (withFates c.fates o.acks).map Prod.fst⟩ := by
    rw [map_fst_withFates]
    exact hr.deliverData ho
  obtain ⟨hchain, hreach⟩ := reached_receiverCalls (withFates c.fates o.acks) h'
    (fun _ hc => delay_withFates hd hc) hbad hstart
  refine ⟨hchain, ?_⟩
  rw [abs, sender, hsrc, hdst, htimer]
  exact hreach

/-- **One round of the main loop** takes the system from one reachable state to another. -/
theorem reached_step {p : Params T} (ht : 0 ≤ p.timeout) {σ σ' : Sim T} {c : Choice T}
    (h : TimerChain σ) (hr : Sys.Reached fresh σ.abs) (hs : Sound σ c σ')
    (he : σ.step p fresh c = some σ') : TimerChain σ' ∧ Sys.Reached fresh σ'.abs := by
  obtain ⟨e, rest, hchain, hcase⟩ := step_eq_some he
  have hdata : σ.data = (e.eventType.dataPacket.toList : Multiset Packet) +
      inFlight EventType.dataPacket rest := by rw [data, hchain, inFlight_cons]
  have hacks : σ.acks = (e.eventType.ackPacket.toList : Multiset Packet) +
      inFlight EventType.ackPacket rest := by rw [acks, hchain, inFlight_cons]
  rw [abs, hdata, hacks] at hr
  cases htype : e.eventType with
  | senderFromUpperLayer =>
    rw [htype] at hcase hr
    have h₀ := h.pop hchain σ.senderTimer (by rw [htype]; rfl)
    refine reached_upperLayer ht h₀ ?_ hs.arrival_nonneg hs.delay_nonneg hs.detected hs.few
      (hs.fits e rest hchain htype) hcase
    simpa [abs, sender, data, acks, EventType.dataPacket, EventType.ackPacket] using hr
  | senderFromLowerLayer pkt =>
    rw [htype] at hcase hr
    have h₀ := h.pop hchain σ.senderTimer (by rw [htype]; rfl)
    refine reached_callSender ht h₀ hs.delay_nonneg hs.detected rfl hcase fun o ho hafter => ?_
    have hfew := hs.few
    rw [hafter] at hfew
    have hr' : Sys.Reached fresh ⟨σ.sender, σ.dst, inFlight EventType.dataPacket rest,
        pkt ::ₘ inFlight EventType.ackPacket rest⟩ := by
      simpa [EventType.dataPacket, EventType.ackPacket] using hr
    exact hr'.deliverAck ho hfew
  | senderTimeout =>
    rw [htype] at hcase hr
    have h₀ := h.pop hchain none (by rw [htype]; rfl)
    have hset : σ.senderTimer = some e.id :=
      h.mem_timer e (by rw [hchain]; exact List.mem_cons_self ..) htype
    refine reached_callSender ht h₀ hs.delay_nonneg hs.detected rfl hcase fun o ho hafter => ?_
    have hfew := hs.few
    rw [hafter] at hfew
    have hr' : Sys.Reached fresh ⟨σ.sender, σ.dst, inFlight EventType.dataPacket rest,
        inFlight EventType.ackPacket rest⟩ := by
      simpa [EventType.dataPacket, EventType.ackPacket] using hr
    exact hr'.timeout ho hfew (by simp [sender, hset])
  | receiverFromLowerLayer pkt =>
    rw [htype] at hcase hr
    have h₀ := h.pop hchain σ.senderTimer (by rw [htype]; rfl)
    refine reached_callReceiver h₀ hs.delay_nonneg hs.detected hcase ?_
    simpa [abs, sender, data, acks, EventType.dataPacket, EventType.ackPacket] using hr

/-- **The simulator runs the system.** -/
theorem reached_of_run {p : Params T} (ht : 0 ≤ p.timeout) {σ : Sim T}
    (h : Run (step p fresh) Sound Init σ) : TimerChain σ ∧ Sys.Reached fresh σ.abs := by
  refine Run.invariant (I := fun σ : Sim T => TimerChain σ ∧ Sys.Reached fresh σ.abs) ?_ ?_ h
  · rintro σ ⟨windows, window, rfl⟩
    have hempty : TimerChain (⟨⟨0, []⟩, none, 0, .init windows, .init window, .init, []⟩ : Sim T) :=
      ⟨by simp, List.nodup_nil, by simp, by simp⟩
    refine ⟨hempty.scheduleAfter (le_refl 0) _ _ (Or.inl ⟨by simp, rfl⟩), .start ⟨windows, window, ?_⟩⟩
    simp only [abs, init, data, acks, inFlight_scheduleAfter _ (le_refl (0 : T))]
    rfl
  · rintro σ c σ' - ⟨hchain, hr⟩ he hs
    exact reached_step ht hchain hr hs he

/-- When the event chain is empty the timer is not set, so nothing is missing. -/
lemma delivered_of_nextEvent_none {p : Params T} (ht : 0 ≤ p.timeout) {σ : Sim T}
    (h : Run (step p fresh) Sound Init σ) (hnone : σ.core.nextEvent = none) :
    σ.dst.delivered = σ.src.accepted.map toMessage := by
  obtain ⟨hchain, hr⟩ := reached_of_run ht h
  have hempty : σ.core.chain = [] := by
    cases hc : σ.core.chain with
    | nil => rfl
    | cons e rest => simp [EventChain.nextEvent, hc] at hnone
  -- a timer that is set has its event in the chain
  have hoff : σ.senderTimer = none := by
    cases hid : σ.senderTimer with
    | none => rfl
    | some id =>
      obtain ⟨e, he, -⟩ := hchain.timer_mem id hid
      rw [hempty] at he
      cases he
  exact Sys.delivered_of_timer_off hr (by simp [abs, sender, hoff])

/-- A round in which the link passes everything at once and the upper layer has one byte. -/
def calm : Choice ℤ := ⟨.zero, fun _ => .passed none 0, 1, 1⟩

/-- The message finds room, the numbers stay small, and nothing is altered. -/
def soundTest (σ : Sim T) (_ : Choice T) (τ : Sim T) : Bool :=
  σ.src.snd.msgBufferNum + 1 ≤ maxBufferSize ∧ τ.src.snd.pktSeq < 2 ^ 31 - 10 ∧ τ.altered = []

omit [IsOrderedAddMonoid T] in
lemma sound_of_test {σ τ : Sim T} {c : Choice T}
    (hc : 0 ≤ c.arrival ∧ ∀ i, 0 ≤ (c.fates i).delay) (h : soundTest σ c τ = true) :
    Sound σ c τ := by
  obtain ⟨hfits, hfew, halt⟩ := of_decide_eq_true h
  refine ⟨hc.1, hc.2, ?_, hfew, fun _ _ _ _ => hfits⟩
  rw [halt]
  exact fun _ hmem => absurd hmem List.not_mem_nil

/-- Rounds like that from zeroed memory. -/
def calmRounds (n : ℕ) : Option (Sim ℤ) :=
  play (step ⟨1, 3⟩ fun _ _ => 0) soundTest (init (Ring.fill _ .zero) (Ring.fill _ .zero))
    (List.replicate n fun _ => calm)

lemma run_calmRounds (n : ℕ) {σ : Sim ℤ} (h : calmRounds n = some σ) :
    Run (step ⟨1, 3⟩ fun _ _ => 0) Sound Init σ := by
  refine Run.play (fun _ _ _ => sound_of_test) ?_ (.start ⟨_, _, rfl⟩) h
  intro f hf σ
  obtain rfl := List.eq_of_mem_replicate hf
  exact ⟨Int.one_nonneg, fun _ => le_refl 0⟩

/-- **A silent sender has delivered everything.** In every state of every run of the system in
which the sender's timer is not set, the messages handed to the upper layer of the receiver are
exactly those the sender was handed. In particular nothing is missing when the main loop of the
simulator finds the event chain empty. -/
theorem silent_sender_delivered_all (p : Params T) (ht : 0 ≤ p.timeout) :
    (∀ σ : Sys, Run (Sys.step fresh) Sys.Bounded Sys.Init σ → σ.src.timer = false →
      σ.dst.delivered = σ.src.accepted.map toMessage) ∧
    (∀ σ : Sim T, Run (step p fresh) Sound Init σ → σ.core.nextEvent = none →
      σ.dst.delivered = σ.src.accepted.map toMessage) := by
  refine ⟨fun σ h hoff => ?_, fun σ h hnone => ?_⟩
  · exact Sys.delivered_of_timer_off h hoff
  · exact delivered_of_nextEvent_none ht h hnone

/-- Six such rounds send and acknowledge two messages, and then the chain is empty. -/
theorem calm_simulation_delivers : ∃ σ : Sim ℤ, Run (step ⟨1, 3⟩ fun _ _ => 0) Sound Init σ ∧
    σ.core.nextEvent = none ∧ σ.dst.delivered.length = 2 ∧
    σ.dst.delivered = σ.src.accepted.map toMessage := by
  have heval : (calmRounds 6).map (fun σ =>
      (σ.core.nextEvent.isNone, σ.dst.delivered.length)) = some (true, 2) := by decide +kernel
  obtain ⟨σ, hσ, hend⟩ := Option.map_eq_some_iff.mp heval
  rw [Prod.mk.injEq, Option.isNone_iff_eq_none] at hend
  have hrun := run_calmRounds 6 hσ
  exact ⟨σ, hrun, hend.1, hend.2,
    (silent_sender_delivered_all ⟨1, 3⟩ (by decide)).2 σ hrun hend.1⟩

end Sim
end NetLabs.Rdt
