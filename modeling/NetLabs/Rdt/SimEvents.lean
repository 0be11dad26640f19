import NetLabs.Lib.EventQueue
import NetLabs.Rdt.SimTheorems

/-!
# The event chain of the simulator

What happens to the events of a simulation. The operations that a round of the main loop
performs on the event chain are listed in order (`roundOps`) and replayed on the queue of
`Lib.EventQueue`, so that every moment of a run is a prefix of one list of operations, also a
moment inside a handler, or inside one that never returns.
-/

namespace NetLabs.Rdt

open NetLabs.Lib NetLabs.Lib.EventQueue

variable {T : Type*}

/-- The event chain as a queue. -/
def EventChain.toQueue (c : EventChain T) : Queue (Event T) T := ⟨c.simTime, c.chain⟩

/-- An operation on the event chain. -/
abbrev ChainOp (T : Type*) := Op (Event T)

/-- The event chain with what became of the events. -/
abbrev ChainLog (T : Type*) := Log (Event T) T

/-- The events that `Sender_StartTimer` and `Sender_StopTimer` may remove. -/
def Event.IsTimeout (e : Event T) : Prop := e.eventType = .senderTimeout

/-- The event chain after a sequence of operations, from the start of the program. -/
def replay [LinearOrder T] [Zero T] (ops : List (ChainOp T)) : ChainLog T :=
  (Log.start 0).run Event.id Event.schedTime ops

/-- The log of a sequence of operations on a chain that is already there. -/
def ChainLog.run [LinearOrder T] (l : ChainLog T) (ops : List (ChainOp T)) : ChainLog T :=
  Log.run Event.id Event.schedTime l ops

/-- All these operations are allowed one after the other. -/
def ChainLog.Allows [LinearOrder T] (l : ChainLog T) (ops : List (ChainOp T)) : Prop :=
  AllowedFrom Event.id Event.schedTime Event.IsTimeout l ops

namespace Sim

variable [LinearOrder T] [AddCommGroup T]

/-! ## The operations of a round -/

/-- `sim_core.schedule(e)` for a new event -/
def scheduleOp (delay : T) (type : EventType) (σ : Sim T) : ChainOp T :=
  .schedule ⟨σ.nextId, σ.core.simTime + delay, type⟩

/-- `if (sender_timer!=NULL) sim_core.cancel(sender_timer)` -/
def stopTimerOps (σ : Sim T) : List (ChainOp T) := (σ.senderTimer.map Op.cancel).toList

/-- The operations of `Sender_StartTimer` -/
def startTimerOps (timeout : T) (σ : Sim T) : List (ChainOp T) :=
  σ.stopTimerOps ++ [σ.stopTimer.scheduleOp timeout .senderTimeout]

/-- The operations of `Sender_ToLowerLayer` and `Receiver_ToLowerLayer` -/
def toLowerLayerOps (arrival : Packet → EventType) (fate : Fate T) (pkt : Packet) (σ : Sim T) :
    List (ChainOp T) :=
  match fate with
  | .lost => []
  | .passed noise delay => [σ.scheduleOp delay (arrival (noise.elim pkt (corrupt · pkt)))]

/-- The operations of a call from the sender into the simulator. -/
def senderCallOps (timeout : T) (σ : Sim T) (call : SenderCall × Fate T) : List (ChainOp T) :=
  match call.1 with
  | .startTimer => σ.startTimerOps timeout
  | .stopTimer => σ.stopTimerOps
  | .toLowerLayer pkt => σ.toLowerLayerOps .receiverFromLowerLayer call.2 pkt

/-- The operations of a call from the receiver into the simulator. -/
def receiverCallOps (σ : Sim T) (a : Packet × Fate T) : List (ChainOp T) :=
  σ.toLowerLayerOps .senderFromLowerLayer a.2 a.1

/-- The operations of several calls, each in the state the calls before it leave. -/
def callsOps {α : Type*} (call : Sim T → α → Sim T) (ops : Sim T → α → List (ChainOp T)) :
    List α → Sim T → List (ChainOp T)
  | [], _ => []
  | a :: as, σ => ops σ a ++ callsOps call ops as (call σ a)

/-- The operations of a handler of the sender. One that never returns does not leave
`Sender_ConstructPKT`, and `Sender_StartTimer` comes before that in all three. -/
def callSenderOps (timeout : T) (c : Choice T) (e : SenderEvent) (σ : Sim T) : List (ChainOp T) :=
  match σ.sender.handle e with
  | some o => callsOps (senderCall timeout) (senderCallOps timeout) (withFates c.fates o.calls)
      { σ with src := σ.sender.after e o }
  | none => σ.startTimerOps timeout

/-- The operations of the handler of the receiver. -/
def callReceiverOps (fresh : ℤ → ℕ → Byte) (c : Choice T) (pkt : Packet) (σ : Sim T) :
    List (ChainOp T) :=
  match σ.dst.rcv.fromLowerLayer fresh c.junk pkt with
  | some o => callsOps receiverCall receiverCallOps (withFates c.fates o.acks)
      { σ with
        dst := σ.dst.absorb o
        stats := o.delivered.foldl Stats.receiverToUpperLayer σ.stats }
  | none => []

/-- The operations of the case `EVENT_SENDER_FROMUPPERLAYER`: those of the handler, and the
event is put back. -/
def upperLayerOps (p : Params T) (c : Choice T) (σ : Sim T) : List (ChainOp T) :=
  let r := σ.stats.generateMsg c.size
  let e := SenderEvent.fromUpperLayer r.1 c.junk
  callSenderOps p.timeout c e { σ with stats := r.2 } ++
    match callSender p.timeout c e { σ with stats := r.2 } with
    | some σ' => if σ'.core.simTime < p.simTime then
        [σ'.scheduleOp c.arrival .senderFromUpperLayer] else []
    | none => []

/-- The operations of one round of the main loop. -/
def roundOps (p : Params T) (fresh : ℤ → ℕ → Byte) (σ : Sim T) (c : Choice T) :
    List (ChainOp T) :=
  .next :: match σ.core.nextEvent with
    | none => []
    | some (e, core) =>
      match e.eventType with
      | .senderFromUpperLayer => upperLayerOps p c { σ with core := core }
      | .senderFromLowerLayer pkt =>
        callSenderOps p.timeout c (.fromLowerLayer pkt c.junk) { σ with core := core }
      | .senderTimeout =>
        callSenderOps p.timeout c (.timeout c.junk) { σ with core := core, senderTimer := none }
      | .receiverFromLowerLayer pkt => callReceiverOps fresh c pkt { σ with core := core }

end Sim

/-- A simulation with the operations on its event chain so far. -/
structure Recorded (T : Type*) where
  sim : Sim T
  ops : List (ChainOp T)

namespace Recorded

variable [LinearOrder T] [AddCommGroup T]

/-- One round of the main loop. -/
def step (p : Params T) (fresh : ℤ → ℕ → Byte) (ρ : Recorded T) (c : Choice T) :
    Option (Recorded T) :=
  (ρ.sim.step p fresh c).map fun σ => ⟨σ, ρ.ops ++ ρ.sim.roundOps p fresh c⟩

/-- The main loop starts with the first message arrival in the chain. -/
def Init (ρ : Recorded T) : Prop :=
  ∃ windows window, ρ = ⟨Sim.init windows window, [.schedule ⟨0, 0, .senderFromUpperLayer⟩]⟩

/-- What `main` makes sure of: no delay is negative. -/
def Delayed (c : Choice T) : Prop := 0 ≤ c.arrival ∧ ∀ i, 0 ≤ (c.fates i).delay

end Recorded

/-! ## A log follows the simulator -/

lemma EventChain.toQueue_schedule [LinearOrder T] (e : Event T) (c : EventChain T) :
    (c.schedule e).toQueue = c.toQueue.schedule Event.schedTime e := by
  unfold schedule Queue.schedule
  by_cases hpast : e.schedTime < c.simTime
  · rw [if_pos hpast, if_pos (show e.schedTime < c.toQueue.now from hpast)]
  · rw [if_neg hpast, if_neg (show ¬e.schedTime < c.toQueue.now from hpast)]
    rfl

namespace Sim

section
variable [LinearOrder T]

/-- The log ends in the simulator's chain, and the next event will be the next one in the log. -/
structure Follows (σ : Sim T) (l : ChainLog T) : Prop where
  queue : l.queue = σ.core.toQueue
  count : l.scheduled.length = σ.nextId
  timer : TimerChain σ

/-- From `l` the operations are allowed and lead to the state `σ`. -/
def Leads (l : ChainLog T) (ops : List (ChainOp T)) (σ : Sim T) : Prop :=
  l.Allows ops ∧ σ.Follows (l.run ops)

lemma Leads.append {l : ChainLog T} {ops ops' : List (ChainOp T)} {σ τ : Sim T}
    (h : Leads l ops σ) (h' : ∀ l', σ.Follows l' → Leads l' ops' τ) : Leads l (ops ++ ops') τ := by
  obtain ⟨hops, hτ⟩ := h' _ h.2
  refine ⟨allowedFrom_append.mpr ⟨h.1, hops⟩, ?_⟩
  rw [ChainLog.run, run_append]
  exact hτ

lemma Follows.nil {σ : Sim T} {l : ChainLog T} (h : σ.Follows l) : Leads l [] σ := ⟨trivial, h⟩

omit [LinearOrder T] in
/-- The parts of the simulator that matter here. -/
lemma Follows.congr {σ τ : Sim T} {l : ChainLog T} (h : σ.Follows l) (hcore : τ.core = σ.core)
    (hid : τ.nextId = σ.nextId) (htimer : τ.senderTimer = σ.senderTimer) : τ.Follows l where
  queue := by rw [hcore]; exact h.queue
  count := by rw [hid]; exact h.count
  timer := h.timer.congr (by rw [hcore]) hid htimer

/-- Stopping the timer removes the event it points to. -/
lemma Follows.stopTimer {σ : Sim T} {l : ChainLog T} (h : σ.Follows l) :
    Leads l σ.stopTimerOps σ.stopTimer := by
  cases hid : σ.senderTimer with
  | none =>
    have hsame : σ.stopTimer = σ := by simp [Sim.stopTimer, hid]
    rw [hsame, stopTimerOps, hid]
    exact h.nil
  | some id =>
    obtain ⟨e, he, heid, htype⟩ := h.timer.timer_mem id hid
    have hstop : σ.stopTimer = { σ with core := σ.core.cancel id, senderTimer := none } := by
      simp [Sim.stopTimer, hid]
    have hmem : e ∈ l.queue.chain := by rw [h.queue]; exact he
    refine ⟨?_, ?_, ?_, h.timer.stopTimer.1⟩
    · rw [stopTimerOps, hid]
      exact ⟨⟨e, hmem, heid, htype⟩, trivial⟩
    · rw [stopTimerOps, hid, hstop]
      change l.queue.cancel Event.id id = _
      rw [h.queue]
      rfl
    · rw [stopTimerOps, hid, hstop]
      exact h.count

end

variable [LinearOrder T] [AddCommGroup T] [IsOrderedAddMonoid T]

/-- A new event is not scheduled for the past. -/
lemma Follows.scheduleAfter {σ : Sim T} {l : ChainLog T} (h : σ.Follows l) {delay : T}
    (hd : 0 ≤ delay) (ty : EventType) (timer : Option ℕ)
    (htimer : ty ≠ .senderTimeout ∧ timer = σ.senderTimer ∨
      ty = .senderTimeout ∧ σ.senderTimer = none ∧ timer = some σ.nextId) :
    Leads l [σ.scheduleOp delay ty] { σ.scheduleAfter delay ty with senderTimer := timer } := by
  have hnow : l.queue.now = σ.core.simTime := by rw [h.queue]; rfl
  refine ⟨⟨⟨h.count.symm, ?_⟩, trivial⟩, ?_, ?_, h.timer.scheduleAfter hd ty timer htimer⟩
  · rw [hnow]
    exact le_add_of_nonneg_right hd
  · change l.queue.schedule Event.schedTime _ = _
    rw [h.queue, ← EventChain.toQueue_schedule]
    rfl
  · change (l.scheduled ++ [_]).length = σ.nextId + 1
    rw [List.length_append, h.count, List.length_singleton]

lemma Follows.startTimer {σ : Sim T} {l : ChainLog T} (h : σ.Follows l) {timeout : T}
    (ht : 0 ≤ timeout) : Leads l (σ.startTimerOps timeout) (σ.startTimer timeout) := by
  refine h.stopTimer.append fun l' h' => ?_
  refine h'.scheduleAfter ht .senderTimeout _ (Or.inr ⟨rfl, h.timer.stopTimer.2, ?_⟩)
  rw [(stopTimer_frame σ).1]

lemma Follows.toLowerLayer {σ : Sim T} {l : ChainLog T} (h : σ.Follows l)
    {arrival : Packet → EventType} (harr : ∀ pkt, arrival pkt ≠ .senderTimeout) {fate : Fate T}
    (hd : 0 ≤ fate.delay) (pkt : Packet) :
    Leads l (σ.toLowerLayerOps arrival fate pkt) (σ.toLowerLayer arrival fate pkt) := by
  cases fate with
  | lost => exact h.nil
  | passed noise delay =>
    obtain ⟨hops, hσ⟩ := h.scheduleAfter hd (arrival (noise.elim pkt (corrupt · pkt))) _
      (Or.inl ⟨harr _, rfl⟩)
    exact ⟨hops, hσ.congr rfl rfl rfl⟩

lemma Follows.senderCall {σ : Sim T} {l : ChainLog T} (h : σ.Follows l) {timeout : T}
    (ht : 0 ≤ timeout) {call : SenderCall × Fate T} (hd : 0 ≤ call.2.delay) :
    Leads l (σ.senderCallOps timeout call) (σ.senderCall timeout call) := by
  unfold senderCallOps Sim.senderCall
  cases call.1 with
  | startTimer => exact h.startTimer ht
  | stopTimer => exact h.stopTimer
  | toLowerLayer pkt => exact h.toLowerLayer (by simp) hd pkt

omit [AddCommGroup T] [IsOrderedAddMonoid T] in
/-- Calls one after the other, when each leads from its state to the next. -/
lemma Follows.calls {α : Type*} {call : Sim T → α → Sim T} {ops : Sim T → α → List (ChainOp T)}
    {as : List α} (hcall : ∀ a ∈ as, ∀ (τ : Sim T) (l : ChainLog T), τ.Follows l →
      Leads l (ops τ a) (call τ a)) {σ : Sim T} {l : ChainLog T} (h : σ.Follows l) :
    Leads l (callsOps call ops as σ) (as.foldl call σ) := by
  induction as generalizing σ l with
  | nil => exact h.nil
  | cons a as ih =>
    refine (hcall a List.mem_cons_self σ l h).append fun l' h' => ?_
    exact ih (fun b hb => hcall b (List.mem_cons_of_mem a hb)) h'

/-! ## Handlers and rounds -/

/-- What a part of a round does: its operations are allowed, and if it returns they lead to the
state it leaves. -/
def Covers (l : ChainLog T) (ops : List (ChainOp T)) (r : Option (Sim T)) : Prop :=
  l.Allows ops ∧ ∀ σ, r = some σ → σ.Follows (l.run ops)

omit [AddCommGroup T] [IsOrderedAddMonoid T] in
lemma Leads.covers {l : ChainLog T} {ops : List (ChainOp T)} {σ : Sim T} (h : Leads l ops σ) :
    Covers l ops (some σ) :=
  ⟨h.1, fun _ hτ => Option.some.inj hτ ▸ h.2⟩

lemma Follows.callSender {σ : Sim T} {l : ChainLog T} (h : σ.Follows l) {timeout : T}
    (ht : 0 ≤ timeout) {c : Choice T} (hd : ∀ i, 0 ≤ (c.fates i).delay) (e : SenderEvent) :
    Covers l (callSenderOps timeout c e σ) (σ.callSender timeout c e) := by
  unfold callSenderOps Sim.callSender
  cases σ.sender.handle e with
  | none => exact ⟨(h.startTimer ht).1, fun τ hτ => by cases hτ⟩
  | some o =>
    apply Leads.covers
    refine Follows.calls (fun a ha τ l' hτ => hτ.senderCall ht (delay_withFates hd ha)) ?_
    exact h.congr rfl rfl rfl

lemma Follows.callReceiver {σ : Sim T} {l : ChainLog T} (h : σ.Follows l)
    (fresh : ℤ → ℕ → Byte) {c : Choice T} (hd : ∀ i, 0 ≤ (c.fates i).delay) (pkt : Packet) :
    Covers l (callReceiverOps fresh c pkt σ) (σ.callReceiver fresh c pkt) := by
  unfold callReceiverOps Sim.callReceiver
  cases σ.dst.rcv.fromLowerLayer fresh c.junk pkt with
  | none => exact ⟨trivial, fun τ hτ => by cases hτ⟩
  | some o =>
    apply Leads.covers
    refine Follows.calls (fun a ha τ l' hτ =>
      hτ.toLowerLayer (by simp) (delay_withFates hd ha) a.1) ?_
    exact h.congr rfl rfl rfl

lemma Follows.upperLayer {σ : Sim T} {l : ChainLog T} (h : σ.Follows l) {p : Params T}
    (ht : 0 ≤ p.timeout) {c : Choice T} (hc : Recorded.Delayed c) :
    Covers l (upperLayerOps p c σ) (σ.upperLayer p c) := by
  have h₀ : Follows { σ with stats := (σ.stats.generateMsg c.size).2 } l := h.congr rfl rfl rfl
  have hcall := h₀.callSender ht hc.2 (.fromUpperLayer (σ.stats.generateMsg c.size).1 c.junk)
  unfold upperLayerOps Sim.upperLayer
  simp only [Option.bind_eq_bind, Option.pure_def]
  cases hσ : Sim.callSender p.timeout c (.fromUpperLayer (σ.stats.generateMsg c.size).1 c.junk)
      { σ with stats := (σ.stats.generateMsg c.size).2 } with
  | none =>
    rw [List.append_nil]
    exact ⟨hcall.1, fun τ hτ => by cases hτ⟩
  | some σ₁ =>
    have hlead : Leads l _ σ₁ := ⟨hcall.1, hcall.2 σ₁ hσ⟩
    apply Leads.covers
    refine hlead.append fun l' h' => ?_
    dsimp only
    split
    · exact h'.scheduleAfter hc.1 .senderFromUpperLayer _ (Or.inl ⟨by simp, rfl⟩)
    · exact h'.nil

/-- **One round** performs allowed operations, whether or not its handler returns. -/
theorem Follows.round {σ : Sim T} {l : ChainLog T} (h : σ.Follows l) {p : Params T}
    (ht : 0 ≤ p.timeout) (fresh : ℤ → ℕ → Byte) {c : Choice T} (hc : Recorded.Delayed c) :
    Covers l (roundOps p fresh σ c) (σ.step p fresh c) := by
  -- the first operation takes the next event out
  have hnext : ∀ (ops : List (ChainOp T)) (r : Option (Sim T)),
      Covers (l.run [.next]) ops r → Covers l (.next :: ops) r := by
    intro ops r hr
    exact ⟨⟨trivial, hr.1⟩, hr.2⟩
  apply hnext
  cases hchain : σ.core.chain with
  | nil =>
    have hnone : σ.core.nextEvent = none := by simp [EventChain.nextEvent, hchain]
    simp only [hnone, Sim.step]
    exact ⟨trivial, fun τ hτ => by cases hτ⟩
  | cons e rest =>
    have hsome : σ.core.nextEvent = some (e, ⟨e.schedTime, rest⟩) := by
      simp [EventChain.nextEvent, hchain]
    have hpop : ∀ timer, timer = (if e.eventType = .senderTimeout then none else σ.senderTimer) →
        Follows { σ with core := ⟨e.schedTime, rest⟩, senderTimer := timer } (l.run [.next]) := by
      intro timer htimer
      refine ⟨?_, h.count, h.timer.pop hchain timer htimer⟩
      change l.queue.next Event.schedTime = _
      rw [h.queue, Queue.next]
      simp only [EventChain.toQueue, hchain]
    simp only [hsome, Sim.step, Option.bind_eq_bind, Option.bind_some]
    cases htype : e.eventType with
    | senderFromUpperLayer => exact (hpop _ (by simp [htype])).upperLayer ht hc
    | senderFromLowerLayer pkt => exact (hpop _ (by simp [htype])).callSender ht hc.2 _
    | senderTimeout => exact (hpop none (by simp [htype])).callSender ht hc.2 _
    | receiverFromLowerLayer pkt => exact (hpop _ (by simp [htype])).callReceiver fresh hc.2 pkt

end Sim

/-! ## Whole runs -/

/-- The events at one moment: those in the chain are in the order of their times and not yet
due, none was discarded, each event that was ever scheduled is in the chain, or was dispatched,
or is a timeout that was removed, and that just once; and the events were dispatched in the
order of their times, those of one time in the order in which they were scheduled. -/
structure ChainLog.Accounted [LinearOrder T] (l : ChainLog T) : Prop where
  sorted : l.queue.chain.Pairwise fun a b => a.schedTime ≤ b.schedTime
  not_past : ∀ e ∈ l.queue.chain, l.queue.now ≤ e.schedTime
  discarded_nil : l.discarded = []
  numbered : l.scheduled.map Event.id = List.range l.scheduled.length
  mem_iff : ∀ e, e ∈ l.scheduled ↔ e ∈ l.queue.chain ∨ e ∈ l.dispatched ∨ e ∈ l.removed
  once : (l.queue.chain ++ l.dispatched ++ l.removed).Nodup
  removed_timeout : ∀ e ∈ l.removed, e.eventType = .senderTimeout
  dispatched_order : l.dispatched.Pairwise fun a b =>
    a.schedTime < b.schedTime ∨ a.schedTime = b.schedTime ∧ a.id < b.id

/-- A log that was kept as the library asks. -/
abbrev ChainLog.Kept [LinearOrder T] (l : ChainLog T) : Prop :=
  EventQueue.Kept Event.id Event.schedTime Event.IsTimeout l

lemma ChainLog.Kept.accounted [LinearOrder T] {l : ChainLog T} (h : l.Kept) : l.Accounted where
  sorted := by
    refine (List.pairwise_append.mp h.ordered).2.1.imp ?_
    rintro a b (hlt | ⟨heq, -⟩)
    · exact le_of_lt hlt
    · exact le_of_eq heq
  not_past := h.due
  discarded_nil := h.discarded_nil
  numbered := h.ids
  mem_iff := by
    intro e
    rw [h.perm.mem_iff, List.mem_append, List.mem_append]
    tauto
  once := by
    have hperm : (l.queue.chain ++ l.dispatched ++ l.removed).Perm
        (l.dispatched ++ l.queue.chain ++ l.removed) :=
      List.perm_append_comm.append_right _
    rw [hperm.nodup_iff]
    exact List.Nodup.of_map Event.id h.nodup_ids
  removed_timeout := h.removed
  dispatched_order := (List.pairwise_append.mp h.ordered).1

variable [LinearOrder T] [AddCommGroup T]

omit [AddCommGroup T] in
/-- Cancelling takes the timeout with the number out of the chain and nothing else. -/
lemma ChainLog.Kept.cancel_eq {l : ChainLog T} (h : l.Kept) {id : ℕ}
    (hid : l.Allows [.cancel id]) : ∃ e ∈ l.queue.chain, e.id = id ∧ e.eventType = .senderTimeout ∧
      (l.run [.cancel id]).queue.chain = l.queue.chain.filter (fun x => x.id ≠ id) ∧
      (l.run [.cancel id]).removed = l.removed ++ [e] := by
  obtain ⟨e, he, heid, htype⟩ := hid.1
  refine ⟨e, he, heid, htype, eraseP_eq_filter h.nodup_chain id, ?_⟩
  change l.removed ++ (l.queue.chain.find? fun x => x.id == id).toList = _
  cases hfind : l.queue.chain.find? fun x => x.id == id with
  | none =>
    rw [List.find?_eq_none] at hfind
    exact absurd (by simpa using heid) (hfind e he)
  | some x =>
    have hx : x.id = id := by simpa using List.find?_some hfind
    have hsame : x = e := List.inj_on_of_nodup_map h.nodup_chain
      (List.mem_of_find?_eq_some hfind) he (hx.trans heid.symm)
    rw [hsame, Option.toList_some]

variable [IsOrderedAddMonoid T] {p : Params T} {fresh : ℤ → ℕ → Byte}

namespace Recorded

/-- The runs of the main loop. -/
abbrev Reached (p : Params T) (fresh : ℤ → ℕ → Byte) (ρ : Recorded T) : Prop :=
  Run (step p fresh) (fun _ c _ => Delayed c) Init ρ

/-- The recorded operations lead to the simulator's chain. -/
lemma leads_of_run (ht : 0 ≤ p.timeout) {ρ : Recorded T} (h : Reached p fresh ρ) :
    Sim.Leads (Log.start 0) ρ.ops ρ.sim := by
  refine Run.invariant (I := fun ρ : Recorded T => Sim.Leads (Log.start 0) ρ.ops ρ.sim) ?_ ?_ h
  · rintro ρ ⟨windows, window, rfl⟩
    have hempty : Sim.Follows (⟨⟨0, []⟩, none, 0, .init windows, .init window, .init, []⟩ : Sim T)
        (Log.start 0) :=
      ⟨rfl, rfl, ⟨by simp, List.nodup_nil, by simp, by simp⟩⟩
    have hfirst := hempty.scheduleAfter (le_refl 0) .senderFromUpperLayer none
      (Or.inl ⟨by simp, rfl⟩)
    rw [Sim.scheduleOp, add_zero] at hfirst
    exact hfirst
  · rintro ρ c ρ' - hl hstep hc
    unfold step at hstep
    rw [Option.map_eq_some_iff] at hstep
    obtain ⟨σ, hσ, rfl⟩ := hstep
    refine hl.append fun l hfollow => ?_
    obtain ⟨hops, hafter⟩ := hfollow.round ht fresh hc
    exact ⟨hops, hafter σ hσ⟩

end Recorded

/-- **The simulator never loses, repeats or misorders an event.** At every moment of every run,
also inside the round that comes next and inside a handler that does not return, all events are
accounted for; time has not gone back; and a timer that is stopped or restarted takes its own
timeout out of the chain and nothing else. -/
theorem events_accounted (ht : 0 ≤ p.timeout) {ρ : Recorded T} (h : Recorded.Reached p fresh ρ)
    {c : Choice T} (hc : Recorded.Delayed c) :
    (replay ρ.ops).queue = ρ.sim.core.toQueue ∧
    ∀ ops, ops <+: ρ.ops ++ ρ.sim.roundOps p fresh c →
      (replay ops).Accounted ∧
      (∀ ops', ops' <+: ops → (replay ops').queue.now ≤ (replay ops).queue.now) ∧
      ∀ id, ops ++ [.cancel id] <+: ρ.ops ++ ρ.sim.roundOps p fresh c →
        ∃ e ∈ (replay ops).queue.chain, e.id = id ∧ e.eventType = .senderTimeout ∧
          (replay (ops ++ [.cancel id])).queue.chain =
            (replay ops).queue.chain.filter (fun x => x.id ≠ id) ∧
          (replay (ops ++ [.cancel id])).removed = (replay ops).removed ++ [e] := by
  obtain ⟨hops, hfollow⟩ := Recorded.leads_of_run ht h
  have hall : ChainLog.Allows (Log.start 0) (ρ.ops ++ ρ.sim.roundOps p fresh c) :=
    allowedFrom_append.mpr ⟨hops, (hfollow.round ht fresh hc).1⟩
  -- the operations up to any moment are allowed
  have hallowed : ∀ ops, ops <+: ρ.ops ++ ρ.sim.roundOps p fresh c →
      ChainLog.Allows (Log.start 0) ops := by
    rintro ops ⟨rest, heq⟩
    rw [← heq] at hall
    exact (allowedFrom_append.mp hall).1
  have hstart : ChainLog.Kept (Log.start 0 : ChainLog T) := Kept.start 0
  have hkept : ∀ ops, ops <+: ρ.ops ++ ρ.sim.roundOps p fresh c → (replay ops).Kept :=
    fun ops hpre => hstart.run (hallowed ops hpre)
  refine ⟨hfollow.queue, fun ops hpre => ⟨(hkept ops hpre).accounted, ?_, ?_⟩⟩
  · rintro ops' ⟨rest, rfl⟩
    have hboth := allowedFrom_append.mp (hallowed _ hpre)
    rw [replay, replay, run_append]
    exact (hstart.run hboth.1).now_le_run hboth.2
  · intro id hpre'
    have hboth := allowedFrom_append.mp (hallowed _ hpre')
    have happend : replay (ops ++ [.cancel id]) = (replay ops).run [.cancel id] :=
      run_append _ ops [.cancel id]
    rw [happend]
    exact (hkept ops hpre).cancel_eq hboth.2

/-- The first round of a calm simulation leaves the packet, the next message and the timeout in
the chain. -/
theorem first_round_accounted : ∃ ρ : Recorded ℤ, Recorded.Reached ⟨1, 3⟩ (fun _ _ => 0) ρ ∧
    (replay (ρ.ops ++ ρ.sim.roundOps ⟨1, 3⟩ (fun _ _ => 0) Sim.calm)).Accounted ∧
    ((replay (ρ.ops ++ ρ.sim.roundOps ⟨1, 3⟩ (fun _ _ => 0) Sim.calm)).queue.chain.map
      Event.schedTime) = [0, 1, 3] := by
  refine ⟨⟨Sim.init (Ring.fill _ .zero) (Ring.fill _ .zero), _⟩, .start ⟨_, _, rfl⟩, ?_, ?_⟩
  · exact ((events_accounted (by decide) (.start ⟨_, _, rfl⟩)
      ⟨by decide, fun _ => le_refl 0⟩).2 _ (List.prefix_refl _)).1
  · decide +kernel

end NetLabs.Rdt
