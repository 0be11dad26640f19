import NetLabs.Rdt.SimEvents
import NetLabs.Rdt.SimVerdict

/-!
# How long a simulation lasts

The main loop of `rdt_sim.cc` has no other end than an empty event chain. What keeps it going until
`sim_time` is the one event that asks the upper layer for a message: it puts itself back into the
chain, and the first time it is dispatched at `sim_time` or later it does not. So the chain holds
one such event, and later none, and once it holds none no message is handed over any more.

`select` picks events of some kinds out of the chain. A handler of the sender moves its own timeout
about, and apart from that only the link adds events (`same_callSender`, `same_callReceiver`).
-/

namespace NetLabs.Rdt

open NetLabs.Lib NetLabs.Lib.Bytes

namespace Sim

section
variable {T : Type*}

/-- The events of some kinds that are in the chain. -/
def select (q : EventType → Bool) (σ : Sim T) : List (Event T) :=
  σ.core.chain.filter fun e => q e.eventType

variable {q : EventType → Bool}

/-- Stopping the timer removes a timeout and nothing else. -/
lemma select_stopTimer {σ : Sim T} (h : TimerChain σ) (hq : q .senderTimeout = false) :
    σ.stopTimer.select q = σ.select q := by
  unfold stopTimer
  cases hid : σ.senderTimer with
  | none => rfl
  | some id =>
    show (σ.core.chain.eraseP fun e => e.id == id).filter _ = _
    rw [EventQueue.eraseP_eq_filter h.nodup id, List.filter_filter]
    apply List.filter_congr
    intro e he
    by_cases heid : e.id = id
    · rw [h.eq_timeout hid e he heid, hq, Bool.false_and]
    · rw [decide_eq_true heid, Bool.and_true]

end

variable {T : Type*} [LinearOrder T] [AddCommGroup T] [IsOrderedAddMonoid T]
variable {q : EventType → Bool} {p : Params T} {fresh : ℤ → ℕ → Byte}

lemma select_scheduleAfter {delay : T} (hd : 0 ≤ delay) (ty : EventType) (σ : Sim T) :
    ((σ.scheduleAfter delay ty).select q).Perm
      (if q ty then ⟨σ.nextId, σ.core.simTime + delay, ty⟩ :: σ.select q else σ.select q) := by
  refine ((chain_scheduleAfter hd ty σ).filter _).trans ?_
  rw [List.filter_cons]
  exact List.Perm.refl _

lemma select_scheduleAfter_of_not {delay : T} (hd : 0 ≤ delay) {ty : EventType} (hty : q ty = false)
    (σ : Sim T) : ((σ.scheduleAfter delay ty).select q).Perm (σ.select q) := by
  have hperm := select_scheduleAfter (q := q) hd ty σ
  rw [hty] at hperm
  exact hperm

/-- What a handler leaves alone, when it was called in the state `σ` and has come to `τ`: the time,
the events of these kinds, and the timeout unless it was started again. -/
structure Same (q : EventType → Bool) (timeout : T) (σ τ : Sim T) : Prop where
  chain : TimerChain τ
  time : τ.core.simTime = σ.core.simTime
  select : (τ.select q).Perm (σ.select q)
  timeouts : ∀ e ∈ τ.core.chain, e.eventType = .senderTimeout →
    e ∈ σ.core.chain ∨ e.schedTime = σ.core.simTime + timeout

omit [IsOrderedAddMonoid T] in
lemma simTime_scheduleAfter (delay : T) (ty : EventType) (σ : Sim T) :
    (σ.scheduleAfter delay ty).core.simTime = σ.core.simTime := by
  unfold scheduleAfter EventChain.schedule
  dsimp only
  split
  · rfl
  · rfl

variable {timeout : T} {σ τ : Sim T}

/-- A packet is handed to the link, which loses it or makes no event of these kinds of it. -/
lemma Same.toLowerLayer (h : Same q timeout σ τ) {arrival : Packet → EventType}
    (harr : ∀ pkt, arrival pkt ≠ .senderTimeout) {fate : Fate T} (hd : 0 ≤ fate.delay)
    (hq : fate = .lost ∨ ∀ pkt, q (arrival pkt) = false) (pkt : Packet) :
    Same q timeout σ (τ.toLowerLayer arrival fate pkt) := by
  cases fate with
  | lost => exact h
  | passed noise delay =>
    obtain hlost | hq := hq
    · cases hlost
    · refine ⟨h.chain.toLowerLayer harr hd pkt, ?_, ?_, ?_⟩
      · exact (simTime_scheduleAfter _ _ τ).trans h.time
      · exact (select_scheduleAfter_of_not hd (hq _) τ).trans h.select
      · intro e he htype
        obtain rfl | he := List.mem_cons.mp ((chain_scheduleAfter hd _ τ).mem_iff.mp he)
        · exact absurd htype (harr _)
        · exact h.timeouts e he htype

omit [LinearOrder T] [IsOrderedAddMonoid T] in
lemma Same.stopTimer (h : Same q timeout σ τ) (hq : q .senderTimeout = false) :
    Same q timeout σ τ.stopTimer ∧ ∀ e ∈ τ.stopTimer.core.chain, e.eventType ≠ .senderTimeout := by
  obtain ⟨hstop, hnone⟩ := h.chain.stopTimer
  have hno : ∀ e ∈ τ.stopTimer.core.chain, e.eventType ≠ .senderTimeout := by
    intro e he htype
    have hset := hstop.mem_timer e he htype
    rw [hnone] at hset
    cases hset
  refine ⟨⟨hstop, ?_, ?_, fun e he htype => absurd htype (hno e he)⟩, hno⟩
  · rw [← h.time]
    unfold Sim.stopTimer
    split
    · rfl
    · rfl
  · rw [select_stopTimer h.chain hq]
    exact h.select

lemma Same.startTimer (h : Same q timeout σ τ) (hq : q .senderTimeout = false)
    (ht : 0 ≤ timeout) : Same q timeout σ (τ.startTimer timeout) := by
  obtain ⟨hstop, hno⟩ := h.stopTimer hq
  refine ⟨h.chain.startTimer ht, ?_, ?_, ?_⟩
  · exact (simTime_scheduleAfter _ _ τ.stopTimer).trans hstop.time
  · exact (select_scheduleAfter_of_not ht hq τ.stopTimer).trans hstop.select
  · intro e he htype
    obtain rfl | he := List.mem_cons.mp ((chain_scheduleAfter ht _ τ.stopTimer).mem_iff.mp he)
    · right
      rw [hstop.time]
    · exact absurd htype (hno e he)

/-- **A handler of the sender**, over a link that loses everything or makes no event of these
kinds. -/
lemma same_callSender (h : TimerChain σ) (ht : 0 ≤ timeout) (hq : q .senderTimeout = false)
    {c : Choice T} (hd : ∀ i, 0 ≤ (c.fates i).delay)
    (hlink : (∀ i, c.fates i = .lost) ∨ ∀ pkt, q (.receiverFromLowerLayer pkt) = false)
    {e : SenderEvent} (he : σ.callSender timeout c e = some τ) : Same q timeout σ τ := by
  unfold callSender at he
  rw [Option.map_eq_some_iff] at he
  obtain ⟨o, -, rfl⟩ := he
  have hstart : Same q timeout σ { σ with src := σ.sender.after e o } :=
    ⟨h.congr rfl rfl rfl, rfl, List.Perm.refl _, fun _ he _ => Or.inl he⟩
  refine (scanl_inv (I := Same q timeout σ) ?_ hstart).2
  intro a ha τ hτ
  obtain ⟨i, -, rfl⟩ := List.mem_mapIdx.mp ha
  unfold senderCall
  cases o.calls[i] with
  | startTimer => exact hτ.startTimer hq ht
  | stopTimer => exact (hτ.stopTimer hq).1
  | toLowerLayer pkt =>
    exact hτ.toLowerLayer (fun _ => EventType.noConfusion) (hd i) (hlink.imp_left fun h => h i) pkt

/-- **The handler of the receiver**, over the same link. -/
lemma same_callReceiver (h : TimerChain σ) (timeout : T) {c : Choice T}
    (hd : ∀ i, 0 ≤ (c.fates i).delay)
    (hlink : (∀ i, c.fates i = .lost) ∨ ∀ pkt, q (.senderFromLowerLayer pkt) = false)
    {pkt : Packet} (he : σ.callReceiver fresh c pkt = some τ) : Same q timeout σ τ := by
  unfold callReceiver at he
  rw [Option.map_eq_some_iff] at he
  obtain ⟨o, -, rfl⟩ := he
  have hstart : Same q timeout σ { σ with
      dst := σ.dst.absorb o
      stats := o.delivered.foldl Stats.receiverToUpperLayer σ.stats } :=
    ⟨h.congr rfl rfl rfl, rfl, List.Perm.refl _, fun _ he _ => Or.inl he⟩
  refine (scanl_inv (I := Same q timeout σ) ?_ hstart).2
  intro a ha τ hτ
  obtain ⟨i, -, rfl⟩ := List.mem_mapIdx.mp ha
  exact hτ.toLowerLayer (fun _ => EventType.noConfusion) (hd i) (hlink.imp_left fun h => h i) _

/-- **A round that asks for no message**: the first event is taken out of the chain, and the events
of these kinds stay. -/
lemma same_step (ht : 0 ≤ p.timeout) (h : TimerChain σ) (hq : q .senderTimeout = false)
    {c : Choice T} (hd : ∀ i, 0 ≤ (c.fates i).delay)
    (hlink : (∀ i, c.fates i = .lost) ∨
      ∀ pkt, q (.receiverFromLowerLayer pkt) = false ∧ q (.senderFromLowerLayer pkt) = false)
    (he : σ.step p fresh c = some τ) {e : Event T} {rest : List (Event T)}
    (hchain : σ.core.chain = e :: rest) (hno : e.eventType ≠ .senderFromUpperLayer) :
    ∃ σ₀ : Sim T, σ₀.core = ⟨e.schedTime, rest⟩ ∧ Same q p.timeout σ₀ τ := by
  obtain ⟨e', rest', hchain', hcase⟩ := step_eq_some he
  obtain ⟨rfl, rfl⟩ : e' = e ∧ rest' = rest := List.cons.inj (hchain'.symm.trans hchain)
  cases htype : e'.eventType with
  | senderFromUpperLayer => exact absurd htype hno
  | senderFromLowerLayer pkt =>
    rw [htype] at hcase
    exact ⟨_, rfl, same_callSender (h.pop hchain σ.senderTimer (by rw [htype]; rfl)) ht hq hd
      (hlink.imp_right fun h pkt => (h pkt).1) hcase⟩
  | senderTimeout =>
    rw [htype] at hcase
    exact ⟨_, rfl, same_callSender (h.pop hchain none (by rw [htype]; rfl)) ht hq hd
      (hlink.imp_right fun h pkt => (h pkt).1) hcase⟩
  | receiverFromLowerLayer pkt =>
    rw [htype] at hcase
    exact ⟨_, rfl, same_callReceiver (h.pop hchain σ.senderTimer (by rw [htype]; rfl)) p.timeout hd
      (hlink.imp_right fun h pkt => (h pkt).2) hcase⟩

/-! ## Order and messages -/

/-- A round in which no delay is negative. -/
abbrev Delayed (_ : Sim T) (c : Choice T) (_ : Sim T) : Prop := Recorded.Delayed c

omit [IsOrderedAddMonoid T] in
lemma delayed_of_sound (h : Run (step p fresh) Sound Init σ) : Run (step p fresh) Delayed Init σ :=
  h.mono fun _ _ _ _ hs => ⟨hs.arrival_nonneg, hs.delay_nonneg⟩

/-- The timer and the chain stay in step. -/
lemma TimerChain.step (ht : 0 ≤ p.timeout) (h : TimerChain σ) {c : Choice T}
    (hc : Recorded.Delayed c) (he : σ.step p fresh c = some τ) : TimerChain τ := by
  obtain ⟨e, rest, hchain, hcase⟩ := step_eq_some he
  by_cases htype : e.eventType = .senderFromUpperLayer
  · rw [htype] at hcase
    unfold upperLayer at hcase
    simp only [Option.bind_eq_bind, Option.bind_eq_some_iff, Option.pure_def,
      Option.some.injEq] at hcase
    obtain ⟨σ₁, hcall, rfl⟩ := hcase
    have h₀ := h.pop hchain σ.senderTimer (by rw [htype]; rfl)
    have hsame := same_callSender (q := fun _ => false)
      (h₀.congr (τ := { σ with
        core := ⟨e.schedTime, rest⟩
        stats := (σ.stats.generateMsg c.size).2 }) rfl rfl rfl) ht rfl hc.2
      (Or.inr fun _ => rfl) hcall
    split
    · exact hsame.chain.scheduleAfter hc.1 _ _ (Or.inl ⟨EventType.noConfusion, rfl⟩)
    · exact hsame.chain
  · obtain ⟨_, -, hsame⟩ := same_step (q := fun _ => false) ht h rfl hc.2
      (Or.inr fun _ => ⟨rfl, rfl⟩) he hchain htype
    exact hsame.chain

lemma timerChain_of_run (ht : 0 ≤ p.timeout) (h : Run (step p fresh) Delayed Init σ) :
    TimerChain σ := by
  refine Run.invariant (I := TimerChain) ?_ ?_ h
  · rintro σ ⟨windows, window, rfl⟩
    have hempty : TimerChain (⟨⟨0, []⟩, none, 0, .init windows, .init window, .init, []⟩ : Sim T) :=
      ⟨by simp, List.nodup_nil, by simp, by simp⟩
    exact hempty.scheduleAfter (le_refl 0) _ _ (Or.inl ⟨EventType.noConfusion, rfl⟩)
  · exact fun σ c τ _ hσ he hc => hσ.step ht hc he

/-- The chain of a run is in the order of its times, none of which has passed. -/
lemma sorted_of_run (ht : 0 ≤ p.timeout) (h : Run (step p fresh) Delayed Init σ) :
    (σ.core.chain.Pairwise fun a b => a.schedTime ≤ b.schedTime) ∧
      ∀ e ∈ σ.core.chain, σ.core.simTime ≤ e.schedTime := by
  obtain ⟨ops, hops⟩ : ∃ ops, Recorded.Reached p fresh ⟨σ, ops⟩ := by
    induction h with
    | start hs =>
      obtain ⟨windows, window, rfl⟩ := hs
      exact ⟨_, .start ⟨windows, window, rfl⟩⟩
    | @next σ τ c _ he hc ih =>
      obtain ⟨ops, hops⟩ := ih
      have he' : Recorded.step p fresh ⟨σ, ops⟩ c =
          some ⟨τ, ops ++ σ.roundOps p fresh c⟩ := by
        unfold Recorded.step
        rw [he]
        rfl
      exact ⟨_, hops.next he' hc⟩
  obtain ⟨hallowed, hfollow⟩ := Recorded.leads_of_run ht hops
  have hstart : ChainLog.Kept (EventQueue.Log.start 0 : ChainLog T) := EventQueue.Kept.start 0
  have haccounted := ChainLog.Kept.accounted (hstart.run hallowed)
  have hqueue : (ChainLog.run (EventQueue.Log.start 0) ops).queue = σ.core.toQueue := hfollow.queue
  have hsorted := haccounted.sorted
  have hdue := haccounted.not_past
  change List.Pairwise _ (ChainLog.run (EventQueue.Log.start 0) ops).queue.chain at hsorted
  change ∀ e ∈ (ChainLog.run (EventQueue.Log.start 0) ops).queue.chain,
    (ChainLog.run (EventQueue.Log.start 0) ops).queue.now ≤ e.schedTime at hdue
  rw [hqueue] at hsorted hdue
  exact ⟨hsorted, hdue⟩

omit [IsOrderedAddMonoid T] in
/-- A handler of the sender that is handed no message. -/
lemma accepted_callSender {c : Choice T} {e : SenderEvent} (hnone : SenderSys.accepts e = [])
    (he : σ.callSender timeout c e = some τ) : τ.src.accepted = σ.src.accepted := by
  unfold callSender at he
  rw [Option.map_eq_some_iff] at he
  obtain ⟨o, -, rfl⟩ := he
  rw [(senderCalls_frame timeout _ _).1]
  show σ.src.accepted ++ SenderSys.accepts e = _
  rw [hnone, List.append_nil]

omit [IsOrderedAddMonoid T] in
/-- Only an event of the upper layer hands over a message. -/
lemma accepted_step {c : Choice T} (he : σ.step p fresh c = some τ)
    (hno : ∀ e rest, σ.core.chain = e :: rest → e.eventType ≠ .senderFromUpperLayer) :
    τ.src.accepted = σ.src.accepted := by
  obtain ⟨e, rest, hchain, hcase⟩ := step_eq_some he
  cases htype : e.eventType with
  | senderFromUpperLayer => exact absurd htype (hno e rest hchain)
  | senderFromLowerLayer pkt =>
    rw [htype] at hcase
    have hkept := accepted_callSender rfl hcase
    exact hkept
  | senderTimeout =>
    rw [htype] at hcase
    have hkept := accepted_callSender rfl hcase
    exact hkept
  | receiverFromLowerLayer pkt =>
    rw [htype] at hcase
    unfold callReceiver at hcase
    rw [Option.map_eq_some_iff] at hcase
    obtain ⟨o, -, rfl⟩ := hcase
    rw [(receiverCalls_frame _ _).1]

/-! ## Arrivals -/

/-- The events that ask the upper layer for a message. -/
def arrivals (σ : Sim T) : List (Event T) := σ.select fun ty => ty == .senderFromUpperLayer

/-- One message will be asked for, or `sim_time` has passed. -/
def Asking (p : Params T) (σ : Sim T) : Prop :=
  σ.arrivals.length = 1 ∨ σ.arrivals = [] ∧ p.simTime ≤ σ.core.simTime

/-- The event of the upper layer, which puts itself back into the chain or not. -/
lemma asking_upperLayer (ht : 0 ≤ p.timeout) (h : TimerChain σ) {c : Choice T}
    (harr : 0 ≤ c.arrival) (hd : ∀ i, 0 ≤ (c.fates i).delay) (hnone : σ.arrivals = [])
    (he : σ.upperLayer p c = some τ) : Asking p τ := by
  unfold upperLayer at he
  simp only [Option.bind_eq_bind, Option.bind_eq_some_iff, Option.pure_def, Option.some.injEq] at he
  obtain ⟨σ₁, hcall, rfl⟩ := he
  have h₀ : TimerChain { σ with stats := (σ.stats.generateMsg c.size).2 } := h.congr rfl rfl rfl
  have hsame : Same (fun ty => ty == .senderFromUpperLayer) p.timeout
      { σ with stats := (σ.stats.generateMsg c.size).2 } σ₁ :=
    same_callSender h₀ ht rfl hd (Or.inr fun _ => rfl) hcall
  have hperm : σ₁.arrivals.Perm σ.arrivals := hsame.select
  rw [hnone] at hperm
  split
  case isTrue =>
    left
    have hone := (select_scheduleAfter (q := fun ty => ty == .senderFromUpperLayer) harr
      .senderFromUpperLayer σ₁).length_eq
    rw [if_pos (beq_self_eq_true _), show σ₁.select _ = [] from hperm.eq_nil] at hone
    exact hone
  case isFalse hlate => exact Or.inr ⟨hperm.eq_nil, not_lt.mp hlate⟩

omit [LinearOrder T] [AddCommGroup T] [IsOrderedAddMonoid T] in
/-- The first event is an arrival, or taking it out of the chain leaves the arrivals alone. -/
lemma arrivals_cons {e : Event T} {rest : List (Event T)} (hchain : σ.core.chain = e :: rest)
    (σ₀ : Sim T) (hcore : σ₀.core = ⟨e.schedTime, rest⟩) :
    e.eventType = .senderFromUpperLayer ∧ σ.arrivals = e :: σ₀.arrivals ∨
      e.eventType ≠ .senderFromUpperLayer ∧ σ.arrivals = σ₀.arrivals := by
  unfold arrivals select
  rw [hchain, hcore]
  by_cases htype : e.eventType = .senderFromUpperLayer
  · exact Or.inl ⟨htype, List.filter_cons_of_pos (beq_iff_eq.mpr htype)⟩
  · exact Or.inr ⟨htype, List.filter_cons_of_neg (mt beq_iff_eq.mp htype)⟩

/-- A round that asks for no message leaves the arrivals alone. -/
lemma arrivals_step (ht : 0 ≤ p.timeout) (h : Run (step p fresh) Delayed Init σ) {c : Choice T}
    (he : σ.step p fresh c = some τ) (hc : Recorded.Delayed c) {e : Event T} {rest : List (Event T)}
    (hchain : σ.core.chain = e :: rest) (hno : e.eventType ≠ .senderFromUpperLayer) :
    τ.arrivals.Perm σ.arrivals ∧ τ.core.simTime = e.schedTime := by
  obtain ⟨σ₀, hcore, hsame⟩ := same_step (q := fun ty => ty == .senderFromUpperLayer) ht
    (timerChain_of_run ht h) rfl hc.2 (Or.inr fun _ => ⟨rfl, rfl⟩) he hchain hno
  obtain ⟨htype, -⟩ | ⟨-, harr⟩ := arrivals_cons hchain σ₀ hcore
  · exact absurd htype hno
  · rw [harr, hsame.time, hcore]
    exact ⟨hsame.select, rfl⟩

/-- **One round of the main loop.** -/
lemma Asking.step (ht : 0 ≤ p.timeout) (h : Asking p σ) (hrun : Run (step p fresh) Delayed Init σ)
    {c : Choice T} (he : σ.step p fresh c = some τ) (hc : Recorded.Delayed c) : Asking p τ := by
  obtain ⟨e, rest, hchain, hcase⟩ := step_eq_some he
  by_cases htype : e.eventType = .senderFromUpperLayer
  · rw [htype] at hcase
    refine asking_upperLayer ht
      ((timerChain_of_run ht hrun).pop hchain σ.senderTimer (by rw [htype]; rfl))
      hc.1 hc.2 ?_ hcase
    obtain ⟨-, harr⟩ | ⟨hno, -⟩ := arrivals_cons hchain { σ with core := ⟨e.schedTime, rest⟩ } rfl
    · obtain hone | ⟨hnone, -⟩ := h
      · rw [harr, List.length_cons] at hone
        exact List.eq_nil_of_length_eq_zero (Nat.succ.inj hone)
      · rw [hnone] at harr
        cases harr
    · exact absurd htype hno
  · obtain ⟨hperm, htime⟩ := arrivals_step ht hrun he hc hchain htype
    obtain hone | ⟨hnone, hlate⟩ := h
    · exact Or.inl (hperm.length_eq.trans hone)
    · right
      have hdue := (sorted_of_run ht hrun).2 e (by rw [hchain]; exact List.mem_cons_self)
      rw [hnone] at hperm
      rw [htime]
      exact ⟨hperm.eq_nil, hlate.trans hdue⟩

lemma asking_of_run (ht : 0 ≤ p.timeout) (h : Run (step p fresh) Delayed Init σ) : Asking p σ := by
  refine Run.invariant (I := Asking p) ?_ ?_ h
  · intro σ hσ
    obtain ⟨windows, window, rfl⟩ := hσ
    left
    exact (select_scheduleAfter (q := fun ty => ty == .senderFromUpperLayer) (le_refl (0 : T))
      .senderFromUpperLayer ⟨⟨0, []⟩, none, 0, .init windows, .init window, .init, []⟩).length_eq
  · intro σ c τ hrun hσ he hc
    exact hσ.step ht hrun he hc

/-- When no message is asked for, none is handed over any more. -/
lemma accepted_of_arrivals_nil (ht : 0 ≤ p.timeout) (h : Run (step p fresh) Delayed Init σ)
    (hnone : σ.arrivals = []) (h' : Run (step p fresh) Delayed (· = σ) τ) :
    τ.arrivals = [] ∧ τ.src.accepted = σ.src.accepted := by
  refine Run.invariant (I := fun τ => τ.arrivals = [] ∧ τ.src.accepted = σ.src.accepted) ?_ ?_ h'
  · intro τ hτ
    rw [hτ]
    exact ⟨hnone, rfl⟩
  · intro τ c τ' hτ hI he hc
    have hno : ∀ e rest, τ.core.chain = e :: rest → e.eventType ≠ .senderFromUpperLayer := by
      intro e rest hchain htype
      obtain ⟨-, harr⟩ | ⟨hne, -⟩ := arrivals_cons hchain { τ with core := ⟨e.schedTime, rest⟩ } rfl
      · rw [hI.1] at harr
        cases harr
      · exact hne htype
    obtain ⟨e, rest, hchain, -⟩ := step_eq_some he
    have hperm := (arrivals_step ht (h.trans hτ) he hc hchain (hno e rest hchain)).1
    rw [hI.1] at hperm
    exact ⟨hperm.eq_nil, (accepted_step he hno).trans hI.2⟩

/-- **A simulation lasts until `sim_time`, and its messages stop there.** In every state of every
run without negative delays, whatever the link does and however full the message buffer is, at most
one message is being asked for. When none is, `sim_time` has passed, and in no run that goes on from
there is another message handed over; in particular the main loop does not find the chain empty
before `sim_time`. -/
theorem simulation_lasts (ht : 0 ≤ p.timeout) (h : Run (step p fresh) Delayed Init σ) :
    σ.arrivals.length ≤ 1 ∧
    (σ.arrivals = [] → p.simTime ≤ σ.core.simTime ∧
      ∀ τ, Run (step p fresh) Delayed (· = σ) τ → τ.src.accepted = σ.src.accepted) ∧
    (σ.core.nextEvent = none → p.simTime ≤ σ.core.simTime) := by
  have hlate : σ.arrivals = [] → p.simTime ≤ σ.core.simTime := by
    intro hnone
    obtain hone | ⟨-, hlate⟩ := asking_of_run ht h
    · rw [hnone] at hone
      cases hone
    · exact hlate
  refine ⟨?_, fun hnone => ⟨hlate hnone, fun τ hτ => ?_⟩, fun hnone => hlate ?_⟩
  · obtain hone | ⟨hnone, -⟩ := asking_of_run ht h
    · exact hone.le
    · rw [hnone]
      exact Nat.zero_le 1
  · exact (accepted_of_arrivals_nil ht h hnone hτ).2
  · unfold EventChain.nextEvent at hnone
    unfold arrivals select
    split at hnone
    case h_1 hempty => rw [hempty, List.filter_nil]
    case h_2 => cases hnone

/-- Six calm rounds take a second, as they were told to. -/
theorem calm_simulation_lasts : ∃ σ : Sim ℤ, σ.core.nextEvent = none ∧ 1 ≤ σ.core.simTime := by
  obtain ⟨σ, hrun, hnone, -⟩ := exists_calm_end
  exact ⟨σ, hnone, (simulation_lasts (by decide) (delayed_of_sound hrun)).2.2 hnone⟩

end Sim
end NetLabs.Rdt
