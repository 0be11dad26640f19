import Mathlib.Data.Prod.Lex
import Mathlib.Data.Rat.Floor
import NetLabs.Rdt.Recovery
import NetLabs.Rdt.SimArrivals

/-!
# Every simulation can come to its end

The main loop ends when the event chain is empty. Once the upper layer has stopped, and from the
moment on from which the link passes everything on as it is and with its normal latency, the loop
ends by itself, whatever the link has done before. Three numbers show it, the first of which counts
most: the packets that are not acknowledged; whether the first of them is about to be, which a
timeout brings about (`Moving`); and what the chain holds (`load`). Every round lowers them
(`Stopped.exists_lower`).

The link does that for a while if the right numbers are drawn, whatever rates `main` was given
(`Link.fate_one`).
-/

namespace NetLabs.Rdt

open NetLabs.Lib NetLabs.Lib.Bytes UpperMessage

/-- A round in which the link alters nothing. -/
structure Choice.Noiseless {T : Type*} [Zero T] [LE T] (c : Choice T) : Prop where
  arrival_nonneg : 0 ≤ c.arrival
  delay_nonneg : ∀ i, 0 ≤ (c.fates i).delay
  noise : ∀ i, c.fates i = .lost ∨ ∃ delay, c.fates i = .passed none delay

/-- A round in which the link passes everything on as it is, with its normal latency. -/
structure Choice.Clean {T : Type*} [Zero T] [LE T] (latency : T) (c : Choice T) : Prop where
  arrival_nonneg : 0 ≤ c.arrival
  fates_eq : c.fates = fun _ => .passed none latency

lemma Choice.Clean.noiseless {T : Type*} [Zero T] [LE T] {latency : T} (hl : 0 ≤ latency)
    {c : Choice T} (hc : c.Clean latency) : c.Noiseless := by
  refine ⟨hc.arrival_nonneg, fun i => ?_, fun i => Or.inr ⟨latency, ?_⟩⟩
  · rw [hc.fates_eq]
    exact hl
  · rw [hc.fates_eq]

namespace Sim

/-! ## Rounds without noise -/

section
variable {T : Type*} [LinearOrder T] [AddCommGroup T]
variable {p : Params T} {fresh : ℤ → ℕ → Byte} {σ τ : Sim T}

lemma detected_of_run (h : Run (step p fresh) Sound Init σ) :
    ∀ pkt ∈ σ.altered, rdtVerifyChecksum pkt = false := by
  cases h with
  | start hs =>
    obtain ⟨windows, window, rfl⟩ := hs
    exact fun _ hmem => absurd hmem List.not_mem_nil
  | next _ _ hs => exact hs.detected

lemma altered_toLowerLayer {arrival : Packet → EventType} {fate : Fate T}
    (hfate : fate = .lost ∨ ∃ delay, fate = .passed none delay) (pkt : Packet) (σ : Sim T) :
    (σ.toLowerLayer arrival fate pkt).altered = σ.altered := by
  obtain rfl | ⟨delay, rfl⟩ := hfate
  · rfl
  · exact if_pos rfl

lemma altered_callSender {timeout : T} {c : Choice T} (hc : c.Noiseless) {e : SenderEvent}
    (he : σ.callSender timeout c e = some τ) : τ.altered = σ.altered := by
  unfold callSender at he
  rw [Option.map_eq_some_iff] at he
  obtain ⟨o, -, rfl⟩ := he
  have hstart : Sim.altered { σ with src := σ.sender.after e o } = σ.altered := rfl
  refine (scanl_inv (I := fun τ : Sim T => τ.altered = σ.altered) ?_ hstart).2
  intro a ha τ hτ
  obtain ⟨i, -, rfl⟩ := List.mem_mapIdx.mp ha
  unfold senderCall
  cases o.calls[i] with
  | startTimer => exact (stopTimer_frame τ).2.2.2.trans hτ
  | stopTimer => exact (stopTimer_frame τ).2.2.2.trans hτ
  | toLowerLayer pkt => exact (altered_toLowerLayer (hc.noise i) pkt τ).trans hτ

lemma altered_callReceiver {c : Choice T} (hc : c.Noiseless) {pkt : Packet}
    (he : σ.callReceiver fresh c pkt = some τ) : τ.altered = σ.altered := by
  unfold callReceiver at he
  rw [Option.map_eq_some_iff] at he
  obtain ⟨o, -, rfl⟩ := he
  have hstart : Sim.altered { σ with
      dst := σ.dst.absorb o
      stats := o.delivered.foldl Stats.receiverToUpperLayer σ.stats } = σ.altered := rfl
  refine (scanl_inv (I := fun τ : Sim T => τ.altered = σ.altered) ?_ hstart).2
  intro a ha τ hτ
  obtain ⟨i, -, rfl⟩ := List.mem_mapIdx.mp ha
  exact (altered_toLowerLayer (hc.noise i) _ τ).trans hτ

lemma exists_callSender {e : SenderEvent} {o : Sender.Outcome} (ho : σ.sender.handle e = some o)
    (timeout : T) (c : Choice T) :
    ∃ τ, σ.callSender timeout c e = some τ ∧ τ.src = σ.sender.after e o := by
  refine ⟨(withFates c.fates o.calls).foldl (senderCall timeout)
    { σ with src := σ.sender.after e o }, ?_, (senderCalls_frame timeout _ _).1⟩
  unfold callSender
  rw [ho]
  rfl

lemma exists_callReceiver (c : Choice T) (pkt : Packet) :
    ∃ τ, σ.callReceiver fresh c pkt = some τ ∧ τ.src = σ.src := by
  obtain ⟨o, ho⟩ := Receiver.fromLowerLayer_isSome fresh c.junk pkt σ.dst.rcv
  unfold callReceiver
  rw [ho]
  exact ⟨_, rfl, (receiverCalls_frame _ _).1⟩

/-- The round that the first event of the chain leads to. -/
lemma step_of_chain {c : Choice T} {e : Event T} {rest : List (Event T)}
    (hchain : σ.core.chain = e :: rest) : σ.step p fresh c =
      match e.eventType with
        | .senderFromUpperLayer => upperLayer p c { σ with core := ⟨e.schedTime, rest⟩ }
        | .senderFromLowerLayer pkt => callSender p.timeout c (.fromLowerLayer pkt c.junk)
            { σ with core := ⟨e.schedTime, rest⟩ }
        | .senderTimeout => callSender p.timeout c (.timeout c.junk)
            { σ with core := ⟨e.schedTime, rest⟩, senderTimer := none }
        | .receiverFromLowerLayer pkt => callReceiver fresh c pkt
            { σ with core := ⟨e.schedTime, rest⟩ } := by
  unfold step EventChain.nextEvent
  rw [hchain]
  rfl

end

variable {T : Type*} [LinearOrder T] [AddCommGroup T] [IsOrderedAddMonoid T]
variable {p : Params T} {fresh : ℤ → ℕ → Byte} {σ τ : Sim T}

omit [LinearOrder T] [AddCommGroup T] [IsOrderedAddMonoid T] in
lemma withFates_const {α : Type*} (fate : Fate T) (l : List α) :
    withFates (fun _ => fate) l = l.map fun x => (x, fate) := by
  apply List.ext_getElem?
  intro i
  rw [withFates, List.getElem?_mapIdx, List.getElem?_map]

/-- The messages are small enough to be sent. -/
structure Sendable (σ : Sim T) : Prop where
  size_le : ∀ m ∈ σ.src.accepted, m.data.length ≤ 2 ^ 31 - 5
  total_lt : (σ.src.accepted.flatMap segment).length < 2 ^ 31 - 10

omit [LinearOrder T] [AddCommGroup T] [IsOrderedAddMonoid T] in
/-- The handlers of the sender return, and have few packets to number. -/
lemma Sendable.exists_handle (hm : Sendable σ) (hr : Sys.Reached fresh σ.abs) (e : SenderEvent)
    (hno : ∀ msg junk, e ≠ .fromUpperLayer msg junk) (a : SysEvent) (hclean : a.isClean = true)
    (hstep : ∀ o, σ.sender.handle e = some o →
      ∃ sys : Sys, σ.abs.step fresh a = some sys ∧ sys.src.snd = o.snd) :
    ∃ o, σ.sender.handle e = some o ∧ o.snd.pktSeq < 2 ^ 31 - 10 := by
  have hsrc := Sys.run_src_orderly (Sys.bufferFits_of_bounded hr)
  obtain ⟨src, hsome⟩ := SenderSys.exists_step_of_sizes hsrc hm.size_le hno
  obtain ⟨o, ho, -⟩ := Option.map_eq_some_iff.mp hsome
  obtain ⟨sys, hsys, hsnd⟩ := hstep o ho
  refine ⟨o, ho, ?_⟩
  rw [← hsnd]
  exact Sys.few_packets (fun _ _ _ hok => hok.1) (Sys.run_clean_step hr hm.total_lt hclean hsys).1

/-- **A round without noise is always possible**, unless it asks for a message. -/
lemma exists_step (ht : 0 ≤ p.timeout) (h : Run (step p fresh) Sound Init σ) (hm : Sendable σ)
    {c : Choice T} (hc : c.Noiseless) {e : Event T} {rest : List (Event T)}
    (hchain : σ.core.chain = e :: rest) (hno : e.eventType ≠ .senderFromUpperLayer) :
    ∃ τ, σ.step p fresh c = some τ ∧ Sound σ c τ := by
  obtain ⟨htimer, hr⟩ := reached_of_run ht h
  have hdetected := detected_of_run h
  have hfits : ∀ e' rest', σ.core.chain = e' :: rest' → e'.eventType = .senderFromUpperLayer →
      σ.src.snd.msgBufferNum + 1 ≤ maxBufferSize := by
    intro e' rest' hchain' htype
    obtain ⟨rfl, -⟩ := List.cons.inj (hchain.symm.trans hchain')
    exact absurd htype hno
  rw [step_of_chain hchain]
  cases htype : e.eventType with
  | senderFromUpperLayer => exact absurd htype hno
  | senderFromLowerLayer pkt =>
    have hmem : pkt ∈ σ.acks := by
      rw [acks, hchain, inFlight_cons, htype]
      exact Multiset.mem_add.mpr (Or.inl (Multiset.mem_coe.mpr List.mem_cons_self))
    obtain ⟨o, ho, hfew⟩ := hm.exists_handle hr (.fromLowerLayer pkt c.junk)
      (fun _ _ => SenderEvent.noConfusion) (.deliverAck pkt c.junk) rfl
      (fun o ho => by simp [Sys.step, abs, hmem, Sys.send, ho, SenderSys.after, SenderSys.absorb])
    obtain ⟨τ, hτ, hsrc⟩ := exists_callSender (σ := { σ with core := ⟨e.schedTime, rest⟩ }) ho
      p.timeout c
    refine ⟨τ, hτ, hc.arrival_nonneg, hc.delay_nonneg, ?_, by rw [hsrc]; exact hfew, hfits⟩
    rw [altered_callSender hc hτ]
    exact hdetected
  | senderTimeout =>
    have hset : σ.senderTimer = some e.id :=
      htimer.mem_timer e (by rw [hchain]; exact List.mem_cons_self) htype
    have hon : σ.abs.src.timer = true := by
      show σ.senderTimer.isSome = true
      rw [hset]
      rfl
    obtain ⟨o, ho, hfew⟩ := hm.exists_handle hr (.timeout c.junk)
      (fun _ _ => SenderEvent.noConfusion) (.timeout c.junk) rfl
      (fun o ho => by
        rw [Sys.step, if_pos hon, Sys.send, show σ.abs.src.handle _ = some o from ho]
        exact ⟨_, rfl, rfl⟩)
    obtain ⟨τ, hτ, hsrc⟩ := exists_callSender
      (σ := { σ with core := ⟨e.schedTime, rest⟩, senderTimer := none }) (e := .timeout c.junk) ho
      p.timeout c
    refine ⟨τ, hτ, hc.arrival_nonneg, hc.delay_nonneg, ?_, by rw [hsrc]; exact hfew, hfits⟩
    rw [altered_callSender hc hτ]
    exact hdetected
  | receiverFromLowerLayer pkt =>
    obtain ⟨τ, hτ, hsrc⟩ := exists_callReceiver (σ := { σ with core := ⟨e.schedTime, rest⟩ }) c pkt
    refine ⟨τ, hτ, hc.arrival_nonneg, hc.delay_nonneg, ?_, ?_, hfits⟩
    · rw [altered_callReceiver hc hτ]
      exact hdetected
    · rw [hsrc]
      exact Sys.few_packets (fun _ _ _ hok => hok.1) hr

/-! ## After the last message -/

/-- The rounds lead from one state to another. -/
abbrev Continues (p : Params T) (fresh : ℤ → ℕ → Byte) (σ τ : Sim T) : Prop :=
  Run (step p fresh) Sound (· = σ) τ

/-- A run after the last message was handed over. -/
structure Stopped (p : Params T) (fresh : ℤ → ℕ → Byte) (σ : Sim T) : Prop where
  run : Run (step p fresh) Sound Init σ
  sendable : Sendable σ
  arrivals_nil : σ.arrivals = []

lemma Stopped.continues (ht : 0 ≤ p.timeout) (h : Stopped p fresh σ) (hτ : Continues p fresh σ τ) :
    Stopped p fresh τ ∧ τ.src.accepted = σ.src.accepted := by
  obtain ⟨hnone, hsame⟩ := accepted_of_arrivals_nil ht (delayed_of_sound h.run) h.arrivals_nil
    (hτ.mono fun _ _ _ _ hs => ⟨hs.arrival_nonneg, hs.delay_nonneg⟩)
  refine ⟨⟨h.run.trans hτ, ⟨?_, ?_⟩, hnone⟩, hsame⟩
  · rw [hsame]
    exact h.sendable.size_le
  · rw [hsame]
    exact h.sendable.total_lt

omit [IsOrderedAddMonoid T] in
lemma Stopped.not_arrival (h : Stopped p fresh σ) {e : Event T} (he : e ∈ σ.core.chain) :
    e.eventType ≠ .senderFromUpperLayer := by
  intro htype
  have hmem : e ∈ σ.arrivals := List.mem_filter.mpr ⟨he, beq_iff_eq.mpr htype⟩
  rw [h.arrivals_nil] at hmem
  cases hmem

/-- The next round, whatever is thrown without noise. -/
lemma Stopped.exists_next (ht : 0 ≤ p.timeout) (h : Stopped p fresh σ) {c : Choice T}
    (hc : c.Noiseless) {e : Event T} {rest : List (Event T)} (hchain : σ.core.chain = e :: rest) :
    ∃ τ, σ.step p fresh c = some τ ∧ Continues p fresh σ τ := by
  have hno := h.not_arrival (show e ∈ σ.core.chain by rw [hchain]; exact List.mem_cons_self)
  obtain ⟨τ, hτ, hs⟩ := exists_step ht h.run h.sendable hc hchain hno
  have hstart : Continues p fresh σ σ := .start rfl
  exact ⟨τ, hτ, hstart.next hτ hs⟩

/-! ## What a clean round puts into the chain -/

variable {latency timeout : T} {c : Choice T}

/-- Packets that are handed to the link arrive after the latency; what is in the chain stays. -/
lemma chain_of_sent (hl : 0 ≤ latency) (timeout : T) : ∀ (pkts : List Packet) (σ : Sim T),
    (∀ e ∈ σ.core.chain, e ∈ ((pkts.map fun pkt =>
      (SenderCall.toLowerLayer pkt, Fate.passed none latency)).foldl
        (senderCall timeout) σ).core.chain) ∧
    ∀ pkt ∈ pkts, ∃ e ∈ ((pkts.map fun pkt =>
      (SenderCall.toLowerLayer pkt, Fate.passed none latency)).foldl
        (senderCall timeout) σ).core.chain,
      e.eventType = .receiverFromLowerLayer pkt ∧ e.schedTime = σ.core.simTime + latency := by
  intro pkts
  induction pkts with
  | nil => exact fun σ => ⟨fun _ he => he, fun _ hpkt => absurd hpkt List.not_mem_nil⟩
  | cons pkt pkts ih =>
    intro σ
    have hperm := chain_scheduleAfter hl (.receiverFromLowerLayer pkt) σ
    obtain ⟨hold, hnew⟩ := ih (senderCall timeout σ (.toLowerLayer pkt, .passed none latency))
    refine ⟨fun e he => hold e (hperm.mem_iff.mpr (List.mem_cons_of_mem _ he)), ?_⟩
    intro x hx
    obtain rfl | hx := List.mem_cons.mp hx
    · exact ⟨_, hold _ (hperm.mem_iff.mpr List.mem_cons_self), rfl, rfl⟩
    · obtain ⟨e, he, htype, htime⟩ := hnew x hx
      exact ⟨e, he, htype, htime.trans
        (congrArg (· + latency) (simTime_scheduleAfter latency (.receiverFromLowerLayer pkt) σ))⟩

/-- What the receiver puts into the chain is an ack, or nothing. -/
lemma chain_callReceiver (hl : 0 ≤ latency) (hc : c.Clean latency) {pkt : Packet}
    (he : σ.callReceiver fresh c pkt = some τ) : τ.src = σ.src ∧
    ∃ o, σ.dst.rcv.fromLowerLayer fresh c.junk pkt = some o ∧
      (o.acks = [] ∧ τ.core.chain = σ.core.chain ∨ ∃ ack, o.acks = [ack] ∧ τ.core.chain.Perm
        (⟨σ.nextId, σ.core.simTime + latency, .senderFromLowerLayer ack⟩ :: σ.core.chain)) := by
  unfold callReceiver at he
  rw [Option.map_eq_some_iff] at he
  obtain ⟨o, ho, rfl⟩ := he
  refine ⟨(receiverCalls_frame _ _).1, o, ho, ?_⟩
  rw [hc.fates_eq, withFates_const]
  cases hver : rdtVerifyChecksum pkt with
  | false =>
    left
    unfold Receiver.fromLowerLayer at ho
    rw [hver, if_pos (by decide)] at ho
    obtain rfl := Option.some.inj ho
    exact ⟨rfl, rfl⟩
  | true =>
    right
    obtain ⟨ack, hack⟩ := Receiver.acks_of_verified hver ho
    rw [hack]
    exact ⟨ack, rfl, chain_scheduleAfter hl (.senderFromLowerLayer ack) { σ with
      dst := σ.dst.absorb o
      stats := o.delivered.foldl Stats.receiverToUpperLayer σ.stats }⟩

/-! ## What the chain holds -/

/-- What an event costs: a packet also costs its ack. -/
def weight : EventType → ℕ
  | .receiverFromLowerLayer _ => 2
  | .senderFromLowerLayer _ => 1
  | _ => 0

/-- What the chain holds. -/
def load (σ : Sim T) : ℕ := (σ.core.chain.map fun e => weight e.eventType).sum

omit [LinearOrder T] [AddCommGroup T] [IsOrderedAddMonoid T] in
lemma load_of_perm {e : Event T} {rest : List (Event T)} (h : σ.core.chain.Perm (e :: rest))
    (hrest : τ.core.chain = rest) : σ.load = weight e.eventType + τ.load := by
  unfold load
  rw [(h.map _).sum_eq, List.map_cons, List.sum_cons, hrest]

omit [LinearOrder T] [AddCommGroup T] [IsOrderedAddMonoid T] in
/-- A timeout costs nothing. -/
lemma load_stopTimer (h : TimerChain σ) : σ.stopTimer.load = σ.load := by
  unfold stopTimer
  cases hid : σ.senderTimer with
  | none => rfl
  | some id =>
    obtain ⟨e, he, heid, -⟩ := h.timer_mem id hid
    obtain ⟨x, before, behind, -, hx, hchain, herase⟩ :=
      List.exists_of_eraseP (p := fun x : Event T => x.id == id) he (beq_iff_eq.mpr heid)
    have htype : x.eventType = .senderTimeout :=
      h.eq_timeout hid x (by rw [hchain]; simp) (beq_iff_eq.mp hx)
    unfold load
    rw [show ({ σ with core := σ.core.cancel id, senderTimer := none } : Sim T).core.chain =
      before ++ behind from herase, hchain]
    simp [htype, weight]

omit [LinearOrder T] [AddCommGroup T] [IsOrderedAddMonoid T] in
lemma mem_stopTimer (h : TimerChain σ) {x : Event T} (hx : x ∈ σ.core.chain)
    (hno : x.eventType ≠ .senderTimeout) : x ∈ σ.stopTimer.core.chain := by
  have hsame := select_stopTimer (q := fun ty => ty != .senderTimeout) h rfl
  have hmem : x ∈ σ.select fun ty => ty != .senderTimeout :=
    List.mem_filter.mpr ⟨hx, bne_iff_ne.mpr hno⟩
  rw [← hsame] at hmem
  exact (List.mem_filter.mp hmem).1

/-! ## The rank -/

/-- When the event has brought the sender an ack for packet `n`, if it is one that does. -/
def ackTime (latency : T) (n : ℤ) (e : Event T) : Option T :=
  match e.eventType with
  | .receiverFromLowerLayer pkt =>
    if rdtVerifyChecksum pkt = true ∧ pkt.seq = n then some (e.schedTime + latency) else none
  | .senderFromLowerLayer pkt =>
    if rdtVerifyChecksum pkt = true ∧ n ≤ pkt.seq then some e.schedTime else none
  | _ => none

omit [LinearOrder T] [IsOrderedAddMonoid T] in
lemma ackTime_eq_some {n : ℤ} {e : Event T} {t : T} (h : ackTime latency n e = some t) :
    (∃ pkt, e.eventType = .receiverFromLowerLayer pkt ∧ rdtVerifyChecksum pkt = true ∧
      pkt.seq = n ∧ t = e.schedTime + latency) ∨
    ∃ pkt, e.eventType = .senderFromLowerLayer pkt ∧ rdtVerifyChecksum pkt = true ∧
      n ≤ pkt.seq ∧ t = e.schedTime := by
  unfold ackTime at h
  cases htype : e.eventType with
  | senderFromUpperLayer => simp [htype] at h
  | senderTimeout => simp [htype] at h
  | receiverFromLowerLayer pkt =>
    simp only [htype, Option.ite_none_right_eq_some, Option.some.injEq] at h
    exact Or.inl ⟨pkt, rfl, h.1.1, h.1.2, h.2.symm⟩
  | senderFromLowerLayer pkt =>
    simp only [htype, Option.ite_none_right_eq_some, Option.some.injEq] at h
    exact Or.inr ⟨pkt, rfl, h.1.1, h.1.2, h.2.symm⟩

/-- An ack for the first packet of the sender's window will be there before the timer expires. -/
def Moving (latency : T) (σ : Sim T) : Prop :=
  ∃ e ∈ σ.core.chain, ∃ t ∈ ackTime latency σ.src.snd.ackExpected e,
    ∀ x ∈ σ.core.chain, x.eventType = .senderTimeout → t < x.schedTime

instance (latency : T) (σ : Sim T) : Decidable (Moving latency σ) :=
  inferInstanceAs (Decidable (∃ e ∈ σ.core.chain,
    ∃ t ∈ ackTime latency σ.src.snd.ackExpected e,
      ∀ x ∈ σ.core.chain, x.eventType = .senderTimeout → t < x.schedTime))

/-- The packets that are not acknowledged. -/
def missing (σ : Sim T) : ℕ :=
  ((σ.src.accepted.flatMap segment).length - σ.src.snd.ackExpected).toNat

/-- What every clean round lowers. -/
def rank (latency : T) (σ : Sim T) : ℕ ×ₗ ℕ ×ₗ ℕ :=
  toLex (σ.missing, toLex (if Moving latency σ then 0 else 1, σ.load))

omit [IsOrderedAddMonoid T] in
lemma rank_lt_of_missing (h : τ.missing < σ.missing) : rank latency τ < rank latency σ :=
  Prod.Lex.toLex_lt_toLex.mpr (Or.inl h)

omit [IsOrderedAddMonoid T] in
lemma rank_lt_of_moving (hmissing : τ.missing = σ.missing) (hσ : ¬Moving latency σ)
    (hτ : Moving latency τ) : rank latency τ < rank latency σ := by
  refine Prod.Lex.toLex_lt_toLex.mpr (Or.inr ⟨hmissing, Prod.Lex.toLex_lt_toLex.mpr (Or.inl ?_)⟩)
  rw [if_pos hτ, if_neg hσ]
  exact Nat.zero_lt_one

omit [IsOrderedAddMonoid T] in
lemma rank_lt_of_load (hmissing : τ.missing = σ.missing)
    (hmove : Moving latency σ → Moving latency τ) (hload : τ.load < σ.load) :
    rank latency τ < rank latency σ := by
  refine Prod.Lex.toLex_lt_toLex.mpr (Or.inr ⟨hmissing, Prod.Lex.toLex_lt_toLex.mpr ?_⟩)
  by_cases hτ : Moving latency τ
  · by_cases hσ : Moving latency σ
    · rw [if_pos hτ, if_pos hσ]
      exact Or.inr ⟨rfl, hload⟩
    · rw [if_pos hτ, if_neg hσ]
      exact Or.inl Nat.zero_lt_one
  · rw [if_neg hτ, if_neg (mt hmove hτ)]
    exact Or.inr ⟨rfl, hload⟩

omit [IsOrderedAddMonoid T] in
/-- The window keeps moving when the event stays in the chain, or its ack comes in its place, and no
timeout is new. -/
lemma moving_of_mem {x : Event T} (hx : x ∈ τ.core.chain) {t : T}
    (hack : ackTime latency τ.src.snd.ackExpected x = some t)
    (hlate : ∀ y ∈ σ.core.chain, y.eventType = .senderTimeout → t < y.schedTime)
    (hsub : ∀ y ∈ τ.core.chain, y.eventType = .senderTimeout → y ∈ σ.core.chain) :
    Moving latency τ :=
  ⟨x, hx, t, hack, fun y hy htype => hlate y (hsub y hy htype) htype⟩

/-! ## Every clean round lowers the rank -/

/-- The ack for the packet that the sender's window starts with. -/
lemma Stopped.ack_of_first (ht : 0 ≤ p.timeout) (h : Stopped p fresh σ) {pkt junk : Packet}
    (hmem : pkt ∈ σ.data) (hver : rdtVerifyChecksum pkt = true)
    (hseq : pkt.seq = σ.src.snd.ackExpected) {o : Receiver.Outcome}
    (ho : σ.dst.rcv.fromLowerLayer fresh junk pkt = some o) :
    ∃ before ack, o.acks = before ++ [ack] ∧ rdtVerifyChecksum ack = true ∧
      σ.src.snd.ackExpected ≤ ack.seq := by
  obtain ⟨-, hr⟩ := reached_of_run ht h.run
  obtain ⟨L, hL⟩ := Sys.linked_of_run hr
  have hw := (SenderSys.resting_windowed (Sys.run_src_expiresSet hr)).2
  have hfew := Sys.few_packets (fun _ _ _ hok => hok.1) hr
  have hstep : σ.abs.dst.step fresh (pkt, junk) = some (σ.dst.absorb o) := by
    show (σ.dst.rcv.fromLowerLayer fresh junk pkt).map _ = _
    rw [ho]
    rfl
  obtain ⟨before, ack, hacks, hgood, hle⟩ := hL.ack_of_first hw (by omega) hmem hver hseq hstep
  exact ⟨before, ack, List.append_cancel_left hacks, hgood, hle⟩

/-- **A packet reaches the receiver.** Its ack takes its place, or nothing does; if it is the packet
that the sender's window starts with, the ack is one for it. -/
lemma Stopped.lower_data (ht : 0 ≤ p.timeout) (hl : 0 ≤ latency) (h : Stopped p fresh σ)
    (hc : c.Clean latency) {e : Event T} {rest : List (Event T)} (hchain : σ.core.chain = e :: rest)
    {pkt : Packet} (htype : e.eventType = .receiverFromLowerLayer pkt)
    (hτ : callReceiver fresh c pkt { σ with core := ⟨e.schedTime, rest⟩ } = some τ) :
    rank latency τ < rank latency σ := by
  obtain ⟨hsrc, o, ho, hcase⟩ := chain_callReceiver hl hc hτ
  have hsrc : τ.src = σ.src := hsrc
  have hmissing : τ.missing = σ.missing := by
    unfold missing
    rw [hsrc]
  have hload : σ.load = 2 + ({ σ with core := ⟨e.schedTime, rest⟩ } : Sim T).load := by
    rw [load_of_perm (τ := { σ with core := ⟨e.schedTime, rest⟩ }) (List.Perm.of_eq hchain) rfl,
      htype]
    rfl
  have hmem : pkt ∈ σ.data := by
    rw [data, hchain, inFlight_cons, htype]
    exact Multiset.mem_add.mpr (Or.inl (Multiset.mem_coe.mpr List.mem_cons_self))
  have hfirst : ∀ {t : T}, ackTime latency σ.src.snd.ackExpected e = some t →
      t = e.schedTime + latency ∧ ∃ before ack, o.acks = before ++ [ack] ∧
        rdtVerifyChecksum ack = true ∧ σ.src.snd.ackExpected ≤ ack.seq := by
    intro t hack
    obtain ⟨pkt', htype', hver, hseq, rfl⟩ | ⟨pkt', htype', -⟩ := ackTime_eq_some hack
    · obtain rfl := EventType.receiverFromLowerLayer.inj (htype.symm.trans htype')
      exact ⟨rfl, h.ack_of_first ht hmem hver hseq ho⟩
    · rw [htype] at htype'
      cases htype'
  have hmem_chain : ∀ y ∈ rest, y ∈ σ.core.chain := by
    intro y hy
    rw [hchain]
    exact List.mem_cons_of_mem _ hy
  obtain ⟨hnone, hcore⟩ | ⟨ack, hone, hperm⟩ := hcase
  · have hcore : τ.core.chain = rest := hcore
    have hload' : τ.load = ({ σ with core := ⟨e.schedTime, rest⟩ } : Sim T).load := by
      unfold load
      rw [hcore]
    refine rank_lt_of_load hmissing ?_ (by omega)
    rintro ⟨x, hx, t, hack, hlate⟩
    rw [hchain] at hx
    obtain rfl | hx := List.mem_cons.mp hx
    · obtain ⟨-, before, ack, hacks, -⟩ := hfirst hack
      rw [hnone] at hacks
      exact absurd hacks.symm (List.append_ne_nil_of_right_ne_nil _ (List.cons_ne_nil _ _))
    · exact moving_of_mem (by rw [hcore]; exact hx) (by rw [hsrc]; exact hack) hlate
        fun y hy _ => hmem_chain y (by rw [← hcore]; exact hy)
  · have hload' := load_of_perm (τ := { σ with core := ⟨e.schedTime, rest⟩ }) hperm rfl
    have hweight : weight (.senderFromLowerLayer ack) = 1 := rfl
    have hsub : ∀ y ∈ τ.core.chain, y.eventType = .senderTimeout → y ∈ σ.core.chain := by
      intro y hy hyt
      obtain rfl | hy := List.mem_cons.mp (hperm.mem_iff.mp hy)
      · cases hyt
      · exact hmem_chain y hy
    refine rank_lt_of_load hmissing ?_ (by rw [hload', hload, hweight]; omega)
    rintro ⟨x, hx, t, hack, hlate⟩
    rw [hchain] at hx
    obtain rfl | hx := List.mem_cons.mp hx
    · obtain ⟨rfl, before, ack', hacks, hver, hle⟩ := hfirst hack
      obtain rfl : ack = ack' :=
        List.singleton_inj.mp (List.append_inj'
          (show [] ++ [ack] = before ++ [ack'] from hone.symm.trans hacks) rfl).2
      refine moving_of_mem (hperm.mem_iff.mpr List.mem_cons_self) ?_ hlate hsub
      rw [hsrc]
      exact if_pos ⟨hver, hle⟩
    · exact moving_of_mem (hperm.mem_iff.mpr (List.mem_cons_of_mem _ hx)) (by rw [hsrc]; exact hack)
        hlate hsub

/-- Not more packets are numbered than there are to build. -/
lemma Stopped.pktSeq_le (ht : 0 ≤ p.timeout) (h : Stopped p fresh σ) :
    σ.src.snd.pktSeq ≤ (σ.src.accepted.flatMap segment).length := by
  have hsrc := Sys.run_src_orderly (Sys.bufferFits_of_bounded (reached_of_run ht h.run).2)
  have hle := SenderSys.length_built_le hsrc
  have hlen := (SenderSys.resting_windowed hsrc).2.length_eq
  change σ.src.snd.pktSeq = σ.src.built.length at hlen
  change σ.src.built.length ≤ (σ.src.accepted.flatMap segment).length at hle
  omega

omit [IsOrderedAddMonoid T] in
/-- An event that brings no ack is taken out of the chain, and perhaps the timeout with it. -/
lemma lower_of_taken (htimer : TimerChain τ) {e : Event T} {rest : List (Event T)}
    (hchain : σ.core.chain = e :: rest) (hrest : τ.core.chain = rest)
    (hweight : 0 < weight e.eventType)
    (hold : ∀ t, ackTime latency σ.src.snd.ackExpected e ≠ some t)
    (haccepted : τ.src.accepted = σ.src.accepted) (hsnd : τ.src.snd = σ.src.snd) :
    rank latency τ < rank latency σ ∧ rank latency τ.stopTimer < rank latency σ := by
  have hmissing : τ.missing = σ.missing := by
    unfold missing
    rw [haccepted, hsnd]
  have hload := load_of_perm (List.Perm.of_eq hchain) hrest
  have hmem : ∀ y ∈ τ.core.chain, y ∈ σ.core.chain := by
    intro y hy
    rw [hrest] at hy
    rw [hchain]
    exact List.mem_cons_of_mem _ hy
  -- an event that keeps the window moving is another one, and no timeout
  have hstay : ∀ x ∈ σ.core.chain, ∀ t, ackTime latency σ.src.snd.ackExpected x = some t →
      x ∈ τ.core.chain ∧ x.eventType ≠ .senderTimeout := by
    intro x hx t hack
    constructor
    · rw [hchain] at hx
      obtain rfl | hx := List.mem_cons.mp hx
      · exact absurd hack (hold t)
      · rw [hrest]
        exact hx
    · intro htype
      unfold ackTime at hack
      rw [htype] at hack
      cases hack
  have hsrc : τ.stopTimer.src = τ.src := (stopTimer_frame τ).2.1
  constructor
  · refine rank_lt_of_load hmissing ?_ (by omega)
    rintro ⟨x, hx, t, hack, hlate⟩
    exact moving_of_mem (hstay x hx t hack).1 (by rw [hsnd]; exact hack) hlate
      fun y hy _ => hmem y hy
  · refine rank_lt_of_load ?_ ?_ (by rw [load_stopTimer htimer]; omega)
    · rw [← hmissing]
      unfold missing
      rw [hsrc]
    · rintro ⟨x, hx, t, hack, hlate⟩
      obtain ⟨hxτ, hno⟩ := hstay x hx t hack
      obtain ⟨hstop, hnone⟩ := htimer.stopTimer
      refine moving_of_mem (mem_stopTimer htimer hxτ hno) (by rw [hsrc, hsnd]; exact hack) hlate ?_
      intro y hy htype
      have hset := hstop.mem_timer y hy htype
      rw [hnone] at hset
      cases hset

/-- **A packet reaches the sender.** It moves the window, or is taken out of the chain. -/
lemma Stopped.lower_ack (ht : 0 ≤ p.timeout) (h : Stopped p fresh σ) {e : Event T}
    {rest : List (Event T)} (hchain : σ.core.chain = e :: rest) {pkt : Packet}
    (htype : e.eventType = .senderFromLowerLayer pkt)
    (hτ : callSender p.timeout c (.fromLowerLayer pkt c.junk)
      { σ with core := ⟨e.schedTime, rest⟩ } = some τ) :
    rank latency τ < rank latency σ := by
  obtain ⟨htimer, hr⟩ := reached_of_run ht h.run
  have htotal := h.pktSeq_le ht
  have haccepted := accepted_callSender rfl hτ
  change τ.src.accepted = σ.src.accepted at haccepted
  have hmem : pkt ∈ σ.acks := by
    rw [acks, hchain, inFlight_cons, htype]
    exact Multiset.mem_add.mpr (Or.inl (Multiset.mem_coe.mpr List.mem_cons_self))
  obtain ⟨⟨-, hle, -⟩, hrange, -⟩ := Sys.windows_agree (hr.mono fun _ _ _ _ hok => hok.1)
  unfold callSender at hτ
  rw [Option.map_eq_some_iff] at hτ
  obtain ⟨o, ho, rfl⟩ := hτ
  by_cases hack : rdtVerifyChecksum pkt = true ∧ σ.src.snd.ackExpected ≤ pkt.seq
  · -- every number that is not below `expected` is above the acks
    have hlt := (hrange pkt hmem hack.1).2
    change pkt.seq < σ.dst.rcv.expected at hlt
    change σ.dst.rcv.expected ≤ σ.src.snd.pktSeq at hle
    have hstep : σ.sender.step (.fromLowerLayer pkt c.junk) =
        some (σ.sender.after (.fromLowerLayer pkt c.junk) o) := by
      unfold SenderSys.step
      rw [show σ.sender.handle _ = some o from ho]
      rfl
    have hmoved := SenderSys.ackExpected_of_ack
      (SenderSys.resting_windowed (Sys.run_src_expiresSet hr)).1 hstep hack.1 hack.2
      (lt_of_lt_of_le hlt hle)
    apply rank_lt_of_missing
    unfold missing
    rw [haccepted, (senderCalls_frame _ _ _).1]
    change (σ.sender.after (.fromLowerLayer pkt c.junk) o).snd.ackExpected = _ at hmoved
    show (_ - (σ.sender.after (.fromLowerLayer pkt c.junk) o).snd.ackExpected).toNat < _
    omega
  · have hout : rdtVerifyChecksum pkt = false ∨
        ¬(σ.src.snd.ackExpected ≤ pkt.seq ∧ pkt.seq < σ.src.snd.pktSeq) := by
      rw [← Bool.not_eq_true]
      tauto
    obtain ⟨hsnd, hcalls⟩ := Sender.calls_of_refused hout ho
    have hold : ∀ t, ackTime latency σ.src.snd.ackExpected e ≠ some t := by
      intro t hsome
      obtain ⟨_, htype', -⟩ | ⟨pkt', htype', hver, hle', -⟩ := ackTime_eq_some hsome
      · rw [htype] at htype'
        cases htype'
      · obtain rfl := EventType.senderFromLowerLayer.inj (htype.symm.trans htype')
        exact hack ⟨hver, hle'⟩
    have htimer₁ := htimer.pop hchain σ.senderTimer (by rw [htype]; rfl)
    have htimer₂ : TimerChain { σ with
        core := ⟨e.schedTime, rest⟩
        src := (sender { σ with core := ⟨e.schedTime, rest⟩ }).after
          (.fromLowerLayer pkt c.junk) o } := htimer₁.congr rfl rfl rfl
    obtain ⟨hlower, hlower'⟩ := lower_of_taken htimer₂ hchain rfl
      (by rw [htype]; exact Nat.zero_lt_one) hold (List.append_nil _) hsnd
    obtain hnil | hstop := hcalls
    · rw [hnil]
      exact hlower
    · rw [hstop]
      exact hlower'

omit [LinearOrder T] [AddCommGroup T] [IsOrderedAddMonoid T] in
/-- Behind a timeout there is none. -/
lemma TimerChain.not_timeout_of_mem {e : Event T} {rest : List (Event T)} (h : TimerChain σ)
    (hchain : σ.core.chain = e :: rest) (he : e.eventType = .senderTimeout) :
    ∀ x ∈ rest, x.eventType ≠ .senderTimeout := by
  intro x hx htype
  have hset := (h.pop hchain none (by rw [he]; rfl)).mem_timer x hx htype
  cases hset

/-- The window does not move by itself when the timeout comes first. -/
lemma Stopped.not_moving (ht : 0 ≤ p.timeout) (hl : 0 ≤ latency) (h : Stopped p fresh σ)
    {e : Event T} {rest : List (Event T)} (hchain : σ.core.chain = e :: rest)
    (htype : e.eventType = .senderTimeout) : ¬Moving latency σ := by
  rintro ⟨x, hx, t, hack, hlate⟩
  have hlt := hlate e (by rw [hchain]; exact List.mem_cons_self) htype
  have hle : e.schedTime ≤ x.schedTime := by
    rw [hchain] at hx
    obtain rfl | hx := List.mem_cons.mp hx
    · exact le_refl _
    · have hsorted := (sorted_of_run ht (delayed_of_sound h.run)).1
      rw [hchain] at hsorted
      exact List.rel_of_pairwise_cons hsorted hx
  have htime : x.schedTime ≤ t := by
    obtain ⟨_, -, -, -, rfl⟩ | ⟨_, -, -, -, rfl⟩ := ackTime_eq_some hack
    · exact le_add_of_nonneg_right hl
    · exact le_refl _
  exact absurd hlt (not_lt.mpr (hle.trans htime))

/-- The packets that a timeout transmits: the one that the sender's window starts with is there. -/
lemma Stopped.first_mem_sent (ht : 0 ≤ p.timeout) (h : Stopped p fresh σ)
    (hset : σ.senderTimer.isSome = true) {junk : Packet} {o : Sender.Outcome}
    (ho : σ.sender.handle (.timeout junk) = some o) :
    o.snd.ackExpected = σ.src.snd.ackExpected ∧
      ∃ pkt ∈ o.sent, rdtVerifyChecksum pkt = true ∧ pkt.seq = σ.src.snd.ackExpected := by
  obtain ⟨-, hr⟩ := reached_of_run ht h.run
  have he : σ.abs.step fresh (.timeout junk) = some { σ.abs with
      src := σ.sender.after (.timeout junk) o, data := σ.abs.data + o.sent } := by
    rw [Sys.step, if_pos (show σ.abs.src.timer = true from hset), Sys.send,
      show σ.abs.src.handle _ = some o from ho]
    rfl
  have hstep : σ.sender.step (.timeout junk) = some (σ.sender.after (.timeout junk) o) := by
    unfold SenderSys.step
    rw [ho]
    rfl
  have hr₀ := (SenderSys.resting_windowed (Sys.run_src_expiresSet hr)).1
  have hsame : o.snd.ackExpected = σ.src.snd.ackExpected := by
    obtain hsame | ⟨_, _, heq, -⟩ := SenderSys.step_ackExpected hr₀ hstep
    · exact hsame
    · cases heq
  obtain ⟨n, hn, hout, -, hsent, -⟩ :=
    Sys.timeout_sent (Sys.bufferFits_of_bounded hr) hset he
  change o.snd.ackExpected = n at hn
  change o.snd.ackExpected < o.snd.pktSeq at hout
  have h₁ := (Sys.run_clean_step hr h.sendable.total_lt rfl he).1
  have hw := (SenderSys.resting_windowed (Sys.run_src_expiresSet h₁)).2
  have hfew := Sys.few_packets (fun _ _ _ hok => hok.1) h₁
  have hlen := hw.length_eq
  change o.snd.pktSeq = (σ.src.built ++ o.built).length at hlen
  change o.snd.pktSeq < 2 ^ 31 - 10 at hfew
  have hdrop : o.sent = (σ.src.built ++ o.built).drop n := List.append_cancel_left hsent
  have hlt : n < (σ.src.built ++ o.built).length := by omega
  have hget := List.getElem?_eq_getElem hlt
  refine ⟨hsame, (σ.src.built ++ o.built)[n], ?_, (hw.numbered n _ hget).2, ?_⟩
  · rw [hdrop]
    exact List.mem_of_getElem? (i := 0) (by rw [List.getElem?_drop, Nat.add_zero, hget])
  · rw [hw.numbered.seq_eq hget (by omega), ← hsame, hn]

/-- **The timer expires**: the packet that the sender's window starts with is on its way, and its
ack will be there before the timer expires again. -/
lemma Stopped.lower_timeout (hl : 0 ≤ latency) (ht : latency + latency < p.timeout)
    (h : Stopped p fresh σ) (hc : c.Clean latency) {e : Event T} {rest : List (Event T)}
    (hchain : σ.core.chain = e :: rest) (htype : e.eventType = .senderTimeout)
    (hτ : callSender p.timeout c (.timeout c.junk)
      { σ with core := ⟨e.schedTime, rest⟩, senderTimer := none } = some τ) :
    rank latency τ < rank latency σ := by
  have ht₀ : 0 ≤ p.timeout := (add_nonneg hl hl).trans ht.le
  obtain ⟨htimer, -⟩ := reached_of_run ht₀ h.run
  have hset : σ.senderTimer = some e.id :=
    htimer.mem_timer e (by rw [hchain]; exact List.mem_cons_self) htype
  have haccepted := accepted_callSender rfl hτ
  change τ.src.accepted = σ.src.accepted at haccepted
  -- the only timeout afterwards is the new one
  have htimeouts : ∀ x ∈ τ.core.chain, x.eventType = .senderTimeout →
      x.schedTime = e.schedTime + p.timeout := by
    intro x hx hxt
    have hsame := same_callSender (q := fun _ => false)
      (htimer.pop hchain none (by rw [htype]; rfl)) ht₀ rfl (hc.noiseless hl).delay_nonneg
      (Or.inr fun _ => rfl) hτ
    obtain hold | hnew := hsame.timeouts x hx hxt
    · exact absurd hxt (htimer.not_timeout_of_mem hchain htype x hold)
    · exact hnew
  unfold callSender at hτ
  rw [Option.map_eq_some_iff] at hτ
  obtain ⟨o, ho, rfl⟩ := hτ
  obtain ⟨hsame, pkt, hpkt, hver, hseq⟩ := h.first_mem_sent ht₀ (by rw [hset]; rfl) ho
  have hsnd := (senderCalls_frame p.timeout (withFates c.fates o.calls) { σ with
    core := ⟨e.schedTime, rest⟩
    senderTimer := none
    src := (sender { σ with core := ⟨e.schedTime, rest⟩, senderTimer := none }).after
      (.timeout c.junk) o }).1
  have hcalls : o.calls = .startTimer :: o.sent.map .toLowerLayer := by
    obtain ⟨d, hd, -, -, hcalls⟩ := Sender.constructAndSend_eq_some ho
    rw [hcalls, Sender.constructAndSend_sent ho hd]
  refine rank_lt_of_moving ?_ (h.not_moving ht₀ hl hchain htype) ?_
  · unfold missing
    rw [haccepted, hsnd]
    show (_ - o.snd.ackExpected).toNat = _
    rw [hsame]
  · obtain ⟨-, hnew⟩ := chain_of_sent hl p.timeout o.sent (senderCall p.timeout { σ with
      core := ⟨e.schedTime, rest⟩
      senderTimer := none
      src := (sender { σ with core := ⟨e.schedTime, rest⟩, senderTimer := none }).after
        (.timeout c.junk) o } (.startTimer, .passed none latency))
    obtain ⟨x, hx, hxt, htime⟩ := hnew pkt hpkt
    have hnow : x.schedTime = e.schedTime + latency := htime.trans
      (congrArg (· + latency) (simTime_scheduleAfter p.timeout .senderTimeout _))
    refine ⟨x, ?_, x.schedTime + latency, ?_, fun y hy hyt => ?_⟩
    · rw [hc.fates_eq, withFates_const, hcalls, List.map_cons, List.foldl_cons, List.map_map]
      exact hx
    · rw [hsnd]
      unfold ackTime
      rw [hxt]
      exact if_pos ⟨hver, hseq.trans hsame.symm⟩
    · rw [htimeouts y hy hyt, hnow, add_assoc]
      exact add_lt_add_right ht _

/-- **Every clean round is possible, and lowers the rank.** -/
lemma Stopped.exists_lower (hl : 0 ≤ latency) (ht : latency + latency < p.timeout)
    (h : Stopped p fresh σ) (hc : c.Clean latency) (hne : σ.core.chain ≠ []) :
    ∃ τ, σ.step p fresh c = some τ ∧ Continues p fresh σ τ ∧ rank latency τ < rank latency σ := by
  have ht₀ : 0 ≤ p.timeout := (add_nonneg hl hl).trans ht.le
  obtain ⟨e, rest, hchain⟩ := List.exists_cons_of_ne_nil hne
  obtain ⟨τ, hτ, hnext⟩ := h.exists_next ht₀ (hc.noiseless hl) hchain
  refine ⟨τ, hτ, hnext, ?_⟩
  have hno := h.not_arrival (show e ∈ σ.core.chain by rw [hchain]; exact List.mem_cons_self)
  rw [step_of_chain hchain] at hτ
  cases htype : e.eventType with
  | senderFromUpperLayer => exact absurd htype hno
  | senderFromLowerLayer pkt =>
    rw [htype] at hτ
    exact h.lower_ack ht₀ hchain htype hτ
  | senderTimeout =>
    rw [htype] at hτ
    exact h.lower_timeout hl ht hc hchain htype hτ
  | receiverFromLowerLayer pkt =>
    rw [htype] at hτ
    exact h.lower_data ht₀ hl hc hchain htype hτ

/-- Clean rounds empty the chain. -/
lemma Stopped.exists_end (hl : 0 ≤ latency) (ht : latency + latency < p.timeout)
    (h : Stopped p fresh σ) {cs : ℕ → Choice T} (hcs : ∀ n, (cs n).Clean latency) :
    ∃ n τ, steps (step p fresh) cs n σ = some τ ∧ τ.core.nextEvent = none ∧
      τ.src.accepted = σ.src.accepted ∧ τ.stats.verdict = true := by
  have ht₀ : 0 ≤ p.timeout := (add_nonneg hl hl).trans ht.le
  have hlower : ∀ (τ : Sim T) (c : Choice T), Continues p fresh σ τ → τ.core.chain ≠ [] →
      c.Clean latency → ∃ τ', τ.step p fresh c = some τ' ∧ Continues p fresh σ τ' ∧
        rank latency τ' < rank latency τ := by
    intro τ c hτ hne hc
    obtain ⟨τ', hτ', hnext, hlt⟩ := (h.continues ht₀ hτ).1.exists_lower hl ht hc hne
    exact ⟨τ', hτ', hτ.trans hnext, hlt⟩
  obtain ⟨n, τ, hn, hτ, hempty⟩ := exists_steps_of_rank (rank latency) (Continues p fresh σ)
    (fun τ => τ.core.chain = []) (Choice.Clean latency) hlower (.start rfl) hcs
  obtain ⟨hstopped, haccepted⟩ := h.continues ht₀ hτ
  have hnone : τ.core.nextEvent = none := by
    unfold EventChain.nextEvent
    rw [hempty]
  exact ⟨n, τ, hn, hnone, haccepted, verdict_of_nextEvent_none ht₀ hstopped.run hnone⟩

end Sim

/-! ## The right numbers -/

section
variable {K : Type*} [Field K] [LinearOrder K] [IsStrictOrderedRing K] [FloorSemiring K]

/-- `myrandom` returns `1` throughout. -/
def Draws.one : Draws K :=
  let u : Rate K := ⟨1, zero_le_one, le_refl 1⟩
  ⟨u, u, fun _ => u, u, u⟩

omit [IsStrictOrderedRing K] in
/-- No rate is above `1`, so nothing is lost, altered or delayed then. -/
lemma Link.fate_one (l : Link K) : l.fate .one = .passed none l.pktLatency := by
  unfold Link.fate Draws.one
  rw [if_neg (not_lt.mpr l.lossRate.2.2), if_neg (not_lt.mpr l.corruptRate.2.2),
    if_neg (not_lt.mpr l.outoforderRate.2.2)]

/-- **Every simulation can come to its end.** Once no message is asked for any more, whatever the
link has lost, altered, delayed or reordered until then, and whatever is still on its way: if the
link passes everything on from then on, as it is and with its normal latency, the chain is empty
after finitely many rounds, and `main` congratulates. Whatever the rates are that `main` was given,
there are numbers that `myrandom` can return so that this happens. -/
theorem Sim.simulation_can_end {p : Params K} {fresh : ℤ → ℕ → Byte} {σ : Sim K} (link : Link K)
    (ht : 2 * link.pktLatency < p.timeout) (h : Run (step p fresh) Sound Init σ)
    (hstop : σ.arrivals = []) (hsize : ∀ m ∈ σ.src.accepted, m.data.length ≤ 2 ^ 31 - 5)
    (htotal : (σ.src.accepted.flatMap segment).length < 2 ^ 31 - 10) :
    (∀ cs : ℕ → Choice K, (∀ n, (cs n).Clean link.pktLatency) →
      ∃ n τ, steps (step p fresh) cs n σ = some τ ∧ τ.core.nextEvent = none ∧
        τ.src.accepted = σ.src.accepted ∧ τ.stats.verdict = true) ∧
    ∃ u : ℕ → ℕ → Draws K, ∀ cs : ℕ → Choice K,
      (∀ n, 0 ≤ (cs n).arrival ∧ ∀ i, (cs n).fates i = link.fate (u n i)) →
      ∃ n τ, steps (step p fresh) cs n σ = some τ ∧ τ.core.nextEvent = none ∧
        τ.src.accepted = σ.src.accepted ∧ τ.stats.verdict = true := by
  have hstopped : Stopped p fresh σ := ⟨h, ⟨hsize, htotal⟩, hstop⟩
  have hclean : ∀ cs : ℕ → Choice K, (∀ n, (cs n).Clean link.pktLatency) →
      ∃ n τ, steps (step p fresh) cs n σ = some τ ∧ τ.core.nextEvent = none ∧
        τ.src.accepted = σ.src.accepted ∧ τ.stats.verdict = true := by
    intro cs hcs
    exact hstopped.exists_end link.latency_nonneg (by rw [← two_mul]; exact ht) hcs
  refine ⟨hclean, fun _ _ => .one, fun cs hcs => hclean cs fun n => ⟨(hcs n).1, ?_⟩⟩
  funext i
  rw [(hcs n).2 i, link.fate_one]

end

namespace Sim

/-- A message of three packets, all of which are lost. -/
def lostMessage : Choice ℚ := ⟨.zero, fun _ => .lost, ⟨250, by norm_num⟩, 1 / 5⟩

/-- Rounds like that from zeroed memory, with the timeout of the source. -/
def lostRounds (n : ℕ) : Option (Sim ℚ) :=
  play (step ⟨1 / 5, 3 / 10⟩ fun _ _ => 0) soundTest (init (Ring.fill _ .zero) (Ring.fill _ .zero))
    (List.replicate n fun _ => lostMessage)

lemma run_lostRounds (n : ℕ) {σ : Sim ℚ} (h : lostRounds n = some σ) :
    Run (step ⟨1 / 5, 3 / 10⟩ fun _ _ => 0) Sound Init σ := by
  refine Run.play (fun _ _ _ => sound_of_test) ?_ (.start ⟨_, _, rfl⟩) h
  intro f hf σ
  obtain rfl := List.eq_of_mem_replicate hf
  exact ⟨by norm_num [lostMessage], fun _ => le_refl 0⟩

/-- After two messages whose packets were all lost, and with a link that loses half of the packets,
the simulation can still end well. -/
theorem lost_simulation_can_end : ∃ (link : Link ℚ) (σ τ : Sim ℚ) (u : ℕ → ℕ → Draws ℚ)
    (cs : ℕ → Choice ℚ) (n : ℕ), link.lossRate.val = 1 / 2 ∧ σ.src.accepted.length = 2 ∧
    σ.dst.delivered = [] ∧ (∀ k i, (cs k).fates i = link.fate (u k i)) ∧
    steps (step ⟨1 / 5, 3 / 10⟩ fun _ _ => 0) cs n σ = some τ ∧ τ.core.nextEvent = none ∧
    τ.stats.verdict = true := by
  have hhalf : (0 : ℚ) ≤ 1 / 2 ∧ (1 / 2 : ℚ) ≤ 1 := by norm_num
  let link : Link ℚ := ⟨1 / 10, ⟨1 / 2, hhalf⟩, ⟨1 / 2, hhalf⟩, ⟨1 / 2, hhalf⟩, by norm_num⟩
  have heval : (lostRounds 2).map (fun σ => (σ.src.accepted.length, σ.dst.delivered.length,
      σ.arrivals.length, (σ.src.accepted.map fun m => m.data.length),
      (σ.src.accepted.flatMap segment).length)) = some (2, 0, 0, [250, 250], 6) := by
    decide +kernel
  obtain ⟨σ, hσ, heq⟩ := Option.map_eq_some_iff.mp heval
  simp only [Prod.mk.injEq, List.length_eq_zero_iff] at heq
  obtain ⟨hacc, hdel, harr, hsizes, htotal⟩ := heq
  have hsize : ∀ m ∈ σ.src.accepted, m.data.length ≤ 2 ^ 31 - 5 := by
    intro m hm
    have hmem := List.mem_map_of_mem (f := fun m : UpperMessage => m.data.length) hm
    rw [hsizes] at hmem
    have hone : m.data.length = 250 := by simpa using hmem
    rw [hone]
    decide
  obtain ⟨-, u, hu⟩ := simulation_can_end link (by norm_num [link]) (run_lostRounds 2 hσ) harr
    hsize (by rw [htotal]; decide)
  obtain ⟨n, τ, hτ, hnone, -, hverdict⟩ := hu
    (fun k => ⟨.zero, fun i => link.fate (u k i), 0, 0⟩) fun k => ⟨le_refl 0, fun _ => rfl⟩
  exact ⟨link, σ, τ, u, _, n, rfl, hacc, hdel, fun _ _ => rfl, hτ, hnone, hverdict⟩

end Sim
end NetLabs.Rdt
