import NetLabs.Lib.While
import NetLabs.Rdt.SimEvents

/-!
# The sender's timer in the simulator

The simulator keeps the timer twice, as `sender_timer` and as an event in the chain. A `Moment` is
a state of the simulator with the history of the timer: the calls of `Sender_StartTimer`,
`Sender_StopTimer` and `Sender_Timeout`, and those of `cancel`. `round` lists the moments of one
round of the main loop, when a handler is entered, after each call it makes, and when it has
returned; its second component is where the round ends.
-/

namespace NetLabs.Rdt

open NetLabs.Lib

variable {T : Type*}

/-- A call that concerns the timer. -/
inductive TimerCall (T : Type*)
  /-- `Sender_StartTimer(timeout)` at the time `now`; the event it creates has the number `id` -/
  | start (id : ℕ) (now timeout : T)
  /-- `Sender_StopTimer()` -/
  | stop
  /-- `Sender_Timeout()`, for an event that was taken out of the chain -/
  | timeout (e : Event T)

/-- The simulator, the calls that concerned the timer so far, and the calls of `cancel`, each with
its argument and the chain it was called on. -/
structure Moment (T : Type*) where
  sim : Sim T
  calls : List (TimerCall T)
  cancels : List (ℕ × List (Event T))

/-- The timeout events in the chain. -/
def Sim.timeouts (σ : Sim T) : List (Event T) :=
  σ.core.chain.filter fun e => e.eventType = .senderTimeout

namespace Moment

variable [LinearOrder T] [AddCommGroup T]

/-- The call of `cancel` in `Sender_StartTimer` and `Sender_StopTimer`, if there is one. -/
def cancelCall (σ : Sim T) : List (ℕ × List (Event T)) :=
  (σ.senderTimer.map fun id => (id, σ.core.chain)).toList

/-- A call from the sender into the simulator. -/
def senderCall (timeout : T) (μ : Moment T) (call : SenderCall × Fate T) : Moment T :=
  match call.1 with
  | .startTimer =>
    { sim := μ.sim.senderCall timeout call
      calls := μ.calls ++ [.start μ.sim.nextId μ.sim.core.simTime timeout]
      cancels := μ.cancels ++ cancelCall μ.sim }
  | .stopTimer =>
    { sim := μ.sim.senderCall timeout call
      calls := μ.calls ++ [.stop]
      cancels := μ.cancels ++ cancelCall μ.sim }
  | .toLowerLayer _ => { μ with sim := μ.sim.senderCall timeout call }

/-- A call from the receiver into the simulator. -/
def receiverCall (μ : Moment T) (a : Packet × Fate T) : Moment T :=
  { μ with sim := μ.sim.receiverCall a }

/-- A handler of the sender. One that never returns does not leave `Sender_ConstructPKT`, and
`Sender_StartTimer` comes before that in all three. -/
def callSender (timeout : T) (c : Choice T) (e : SenderEvent) (μ : Moment T) :
    List (Moment T) × Option (Moment T) :=
  match μ.sim.sender.handle e with
  | some o =>
    let entered := { μ with sim := { μ.sim with src := μ.sim.sender.after e o } }
    let calls := Sim.withFates c.fates o.calls
    (μ :: calls.scanl (senderCall timeout) entered,
      some (calls.foldl (senderCall timeout) entered))
  | none => ([μ, μ.senderCall timeout (.startTimer, .lost)], none)

/-- The handler of the receiver. -/
def callReceiver (fresh : ℤ → ℕ → Byte) (c : Choice T) (pkt : Packet) (μ : Moment T) :
    List (Moment T) × Option (Moment T) :=
  match μ.sim.dst.rcv.fromLowerLayer fresh c.junk pkt with
  | some o =>
    let entered := { μ with sim := { μ.sim with
      dst := μ.sim.dst.absorb o
      stats := o.delivered.foldl Stats.receiverToUpperLayer μ.sim.stats } }
    let acks := Sim.withFates c.fates o.acks
    (μ :: acks.scanl receiverCall entered, some (acks.foldl receiverCall entered))
  | none => ([μ], none)

/-- The case `EVENT_SENDER_FROMUPPERLAYER` of the main loop. -/
def upperLayer (p : Params T) (c : Choice T) (μ : Moment T) :
    List (Moment T) × Option (Moment T) :=
  let r := μ.sim.stats.generateMsg c.size
  let handled := callSender p.timeout c (.fromUpperLayer r.1 c.junk)
    { μ with sim := { μ.sim with stats := r.2 } }
  match handled.2 with
  | some μ' =>
    if μ'.sim.core.simTime < p.simTime then
      let μ'' := { μ' with sim := μ'.sim.scheduleAfter c.arrival .senderFromUpperLayer }
      (handled.1 ++ [μ''], some μ'')
    else (handled.1, some μ')
  | none => (handled.1, none)

/-- One round of the main loop: its moments, and the last of them if the handler returns. -/
def round (p : Params T) (fresh : ℤ → ℕ → Byte) (μ : Moment T) (c : Choice T) :
    List (Moment T) × Option (Moment T) :=
  match μ.sim.core.nextEvent with
  | none => ([], none)
  | some (e, core) =>
    let popped := { μ with sim := { μ.sim with core := core } }
    match e.eventType with
    | .senderFromUpperLayer => popped.upperLayer p c
    | .senderFromLowerLayer pkt => popped.callSender p.timeout c (.fromLowerLayer pkt c.junk)
    | .senderTimeout =>
      callSender p.timeout c (.timeout c.junk)
        { popped with
          sim := { popped.sim with senderTimer := none }
          calls := μ.calls ++ [.timeout e] }
    | .receiverFromLowerLayer pkt => popped.callReceiver fresh c pkt

/-- One round that is completed. -/
def step (p : Params T) (fresh : ℤ → ℕ → Byte) (μ : Moment T) (c : Choice T) :
    Option (Moment T) :=
  (μ.round p fresh c).2

/-- The main loop starts with no timer. -/
def Init (μ : Moment T) : Prop := ∃ windows window, μ = ⟨Sim.init windows window, [], []⟩

/-- The runs of the main loop. -/
abbrev Reached (p : Params T) (fresh : ℤ → ℕ → Byte) (μ : Moment T) : Prop :=
  Run (step p fresh) (fun _ c _ => Recorded.Delayed c) Init μ

/-! ## Beside the history a round is the simulator's -/

variable {p : Params T} {fresh : ℤ → ℕ → Byte}

lemma sim_senderCall (timeout : T) (μ : Moment T) (call : SenderCall × Fate T) :
    (μ.senderCall timeout call).sim = μ.sim.senderCall timeout call := by
  obtain ⟨call, fate⟩ := call
  cases call with
  | startTimer => rfl
  | stopTimer => rfl
  | toLowerLayer pkt => rfl

lemma sim_callSender (timeout : T) (c : Choice T) (e : SenderEvent) (μ : Moment T) :
    (μ.callSender timeout c e).2.map Moment.sim = μ.sim.callSender timeout c e := by
  unfold callSender Sim.callSender
  cases μ.sim.sender.handle e with
  | none => rfl
  | some o =>
    apply congrArg some
    exact (List.foldl_hom Moment.sim fun ν a => (sim_senderCall timeout ν a).symm).symm

lemma sim_callReceiver (fresh : ℤ → ℕ → Byte) (c : Choice T) (pkt : Packet) (μ : Moment T) :
    (μ.callReceiver fresh c pkt).2.map Moment.sim = μ.sim.callReceiver fresh c pkt := by
  unfold callReceiver Sim.callReceiver
  cases μ.sim.dst.rcv.fromLowerLayer fresh c.junk pkt with
  | none => rfl
  | some o =>
    apply congrArg some
    exact (List.foldl_hom Moment.sim fun _ _ => rfl).symm

lemma sim_upperLayer (p : Params T) (c : Choice T) (μ : Moment T) :
    (μ.upperLayer p c).2.map Moment.sim = μ.sim.upperLayer p c := by
  unfold upperLayer Sim.upperLayer
  dsimp only
  rw [← sim_callSender p.timeout c _ { μ with sim := { μ.sim with
    stats := (μ.sim.stats.generateMsg c.size).2 } }]
  split
  · next μ' hμ' =>
    rw [hμ', Option.map_some, Option.bind_eq_bind, Option.bind_some]
    split
    · rfl
    · rfl
  · next hμ' =>
    rw [hμ']
    rfl

theorem sim_step (μ : Moment T) (c : Choice T) :
    (μ.step p fresh c).map Moment.sim = μ.sim.step p fresh c := by
  unfold step round Sim.step
  cases μ.sim.core.nextEvent with
  | none => rfl
  | some next =>
    obtain ⟨e, core⟩ := next
    rw [Option.bind_eq_bind, Option.bind_some]
    dsimp only
    cases e.eventType with
    | senderFromUpperLayer => exact sim_upperLayer p c _
    | senderFromLowerLayer pkt => exact sim_callSender p.timeout c _ _
    | senderTimeout => exact sim_callSender p.timeout c _ _
    | receiverFromLowerLayer pkt => exact sim_callReceiver fresh c pkt _

/-- The moments between the rounds are the states of the simulator's main loop. -/
theorem exists_reached_iff {σ : Sim T} :
    (∃ μ, Reached p fresh μ ∧ μ.sim = σ) ↔
      Run (Sim.step p fresh) (fun _ c _ => Recorded.Delayed c) Sim.Init σ := by
  constructor
  · rintro ⟨μ, h, rfl⟩
    induction h with
    | start hinit =>
      obtain ⟨windows, window, rfl⟩ := hinit
      exact .start ⟨windows, window, rfl⟩
    | next _ hstep hc ih =>
      refine ih.next ?_ hc
      rw [← sim_step, hstep]
      rfl
  · intro h
    induction h with
    | start hinit =>
      obtain ⟨windows, window, rfl⟩ := hinit
      exact ⟨_, .start ⟨windows, window, rfl⟩, rfl⟩
    | next _ hstep hc ih =>
      obtain ⟨μ, hμ, rfl⟩ := ih
      rw [← sim_step, Option.map_eq_some_iff] at hstep
      obtain ⟨ν, hν, rfl⟩ := hstep
      exact ⟨ν, hμ.next hν hc, rfl⟩

end Moment

/-! ## What is kept -/

/-- The last of the calls is the one of `Sender_StartTimer` that scheduled the event. -/
def Latest [Add T] (calls : List (TimerCall T)) (e : Event T) : Prop :=
  ∃ now timeout, calls.getLast? = some (.start e.id now timeout) ∧ e.schedTime = now + timeout

/-- Each call of `Sender_Timeout` was for the latest call of `Sender_StartTimer`, with no stop and
no start in between. -/
def Expired [Add T] (calls : List (TimerCall T)) : Prop :=
  ∀ before e, before ++ [.timeout e] <+: calls → Latest before e

lemma Expired.concat [Add T] {calls : List (TimerCall T)} (h : Expired calls)
    {call : TimerCall T} (hcall : ∀ e, call = .timeout e → Latest calls e) :
    Expired (calls ++ [call]) := by
  intro before e hpre
  rcases List.prefix_concat_iff.mp hpre with heq | hpre
  · obtain ⟨rfl, hlast⟩ := List.append_inj' heq rfl
    exact hcall e (List.cons.inj hlast).1.symm
  · exact h before e hpre

namespace Sim

lemma simTime_stopTimer (σ : Sim T) : σ.stopTimer.core.simTime = σ.core.simTime := by
  unfold stopTimer
  split
  · rfl
  · rfl

/-- The event that `cancel` looks for is in the chain. -/
lemma TimerChain.cancelCall {σ : Sim T} (h : TimerChain σ) :
    ∀ a ∈ Moment.cancelCall σ, ∃ e ∈ a.2, e.id = a.1 ∧ e.eventType = .senderTimeout := by
  intro a ha
  unfold Moment.cancelCall at ha
  rw [Option.mem_toList, Option.map_eq_some_iff] at ha
  obtain ⟨id, hid, rfl⟩ := ha
  exact h.timer_mem id hid

variable [LinearOrder T] [AddCommGroup T] [IsOrderedAddMonoid T]

/-- A timeout in the chain was there before an event of another type was scheduled. -/
lemma mem_of_mem_scheduleAfter {σ : Sim T} {delay : T} (hd : 0 ≤ delay) {ty : EventType}
    (hty : ty ≠ .senderTimeout) {e : Event T} (he : e ∈ (σ.scheduleAfter delay ty).core.chain)
    (htime : e.eventType = .senderTimeout) : e ∈ σ.core.chain := by
  rcases List.mem_cons.mp ((chain_scheduleAfter hd ty σ).mem_iff.mp he) with rfl | he
  · exact absurd htime hty
  · exact he

/-- The timeout in the chain after `Sender_StartTimer` is the new one. -/
lemma TimerChain.eq_of_mem_startTimer {σ : Sim T} (h : TimerChain σ) {timeout : T}
    (ht : 0 ≤ timeout) {e : Event T} (he : e ∈ (σ.startTimer timeout).core.chain)
    (htime : e.eventType = .senderTimeout) :
    e = ⟨σ.nextId, σ.core.simTime + timeout, .senderTimeout⟩ := by
  obtain ⟨hstop, hnone⟩ := h.stopTimer
  have hperm := chain_scheduleAfter ht .senderTimeout σ.stopTimer
  rw [(stopTimer_frame σ).1, simTime_stopTimer] at hperm
  rcases List.mem_cons.mp (hperm.mem_iff.mp he) with heq | he
  · exact heq
  · have hold := hstop.mem_timer e he htime
    rw [hnone] at hold
    cases hold

end Sim

namespace Moment

/-- What holds at every moment of a run. -/
structure Kept [Add T] (μ : Moment T) : Prop where
  chain : μ.sim.TimerChain
  latest : ∀ e ∈ μ.sim.core.chain, e.eventType = .senderTimeout → Latest μ.calls e
  expired : Expired μ.calls
  found : ∀ a ∈ μ.cancels, ∃ e ∈ a.2, e.id = a.1 ∧ e.eventType = .senderTimeout

/-- All the moments of a part of a round are like that, and so is the one it ends in. -/
def AllKept [Add T] (r : List (Moment T) × Option (Moment T)) : Prop :=
  (∀ μ ∈ r.1, Kept μ) ∧ ∀ μ, r.2 = some μ → Kept μ

namespace Kept

/-- The parts of the simulator that matter here. -/
lemma congr [Add T] {μ : Moment T} (h : Kept μ) {σ : Sim T}
    (hchain : σ.core.chain = μ.sim.core.chain) (hid : σ.nextId = μ.sim.nextId)
    (htimer : σ.senderTimer = μ.sim.senderTimer) : Kept { μ with sim := σ } where
  chain := h.chain.congr hchain hid htimer
  latest := by
    intro e he
    exact h.latest e (hchain ▸ he)
  expired := h.expired
  found := h.found

/-- The calls of `cancel` so far and those in `Sender_StartTimer` or `Sender_StopTimer`. -/
lemma found_append [Add T] {μ : Moment T} (h : Kept μ) :
    ∀ a ∈ μ.cancels ++ cancelCall μ.sim, ∃ e ∈ a.2, e.id = a.1 ∧ e.eventType = .senderTimeout := by
  intro a ha
  rcases List.mem_append.mp ha with ha | ha
  · exact h.found a ha
  · exact h.chain.cancelCall a ha

/-- The first event is taken out, and is no timeout. -/
lemma pop [Add T] {μ : Moment T} (h : Kept μ) {e : Event T} {rest : List (Event T)}
    (hchain : μ.sim.core.chain = e :: rest) (htype : e.eventType ≠ .senderTimeout) :
    Kept { μ with sim := { μ.sim with core := ⟨e.schedTime, rest⟩ } } where
  chain := h.chain.pop hchain _ (by rw [if_neg htype])
  latest := by
    intro x hx
    exact h.latest x (by rw [hchain]; exact List.mem_cons_of_mem e hx)
  expired := h.expired
  found := h.found

/-- The first event is taken out and is the timeout: `sender_timer` is cleared, and this is the
timeout of the latest call of `Sender_StartTimer`. -/
lemma pop_timeout [Add T] {μ : Moment T} (h : Kept μ) {e : Event T} {rest : List (Event T)}
    (hchain : μ.sim.core.chain = e :: rest) (htype : e.eventType = .senderTimeout) :
    Kept { μ with
      sim := { μ.sim with core := ⟨e.schedTime, rest⟩, senderTimer := none }
      calls := μ.calls ++ [.timeout e] } := by
  have hmem : e ∈ μ.sim.core.chain := by rw [hchain]; exact List.mem_cons_self
  have hpop := h.chain.pop hchain none (by rw [if_pos htype])
  refine ⟨hpop, ?_, h.expired.concat ?_, h.found⟩
  · intro x hx htime
    have htimer := hpop.mem_timer x hx htime
    cases htimer
  · intro x hx
    obtain rfl := TimerCall.timeout.inj hx
    exact h.latest e hmem htype

variable [LinearOrder T] [AddCommGroup T] [IsOrderedAddMonoid T]

/-- A new event that is no timeout. -/
lemma scheduleAfter {μ : Moment T} (h : Kept μ) {delay : T} (hd : 0 ≤ delay) {ty : EventType}
    (hty : ty ≠ .senderTimeout) : Kept { μ with sim := μ.sim.scheduleAfter delay ty } where
  chain := h.chain.scheduleAfter hd ty _ (Or.inl ⟨hty, rfl⟩)
  latest := by
    intro e he htime
    exact h.latest e (Sim.mem_of_mem_scheduleAfter hd hty he htime) htime
  expired := h.expired
  found := h.found

/-- A packet on the link. -/
lemma toLowerLayer {μ : Moment T} (h : Kept μ) {arrival : Packet → EventType}
    (harr : ∀ pkt, arrival pkt ≠ .senderTimeout) {fate : Fate T} (hd : 0 ≤ fate.delay)
    (pkt : Packet) : Kept { μ with sim := μ.sim.toLowerLayer arrival fate pkt } := by
  cases fate with
  | lost => exact h
  | passed noise delay => exact (h.scheduleAfter hd (harr _)).congr rfl rfl rfl

lemma senderCall {μ : Moment T} (h : Kept μ) {timeout : T} (ht : 0 ≤ timeout)
    {call : SenderCall × Fate T} (hd : 0 ≤ call.2.delay) : Kept (μ.senderCall timeout call) := by
  obtain ⟨call, fate⟩ := call
  cases call with
  | startTimer =>
    refine ⟨h.chain.startTimer ht, ?_, h.expired.concat (by simp), h.found_append⟩
    -- the only timeout is the one that this call schedules
    intro e he htime
    have hnew := h.chain.eq_of_mem_startTimer ht he htime
    refine ⟨μ.sim.core.simTime, timeout, ?_, ?_⟩
    · rw [hnew]
      exact List.getLast?_concat
    · rw [hnew]
  | stopTimer =>
    obtain ⟨hstop, hnone⟩ := h.chain.stopTimer
    refine ⟨hstop, ?_, h.expired.concat (by simp), h.found_append⟩
    -- there is no timeout any more
    intro e he htime
    have htimer := hstop.mem_timer e he htime
    rw [hnone] at htimer
    cases htimer
  | toLowerLayer pkt => exact h.toLowerLayer (by simp) hd pkt

lemma receiverCall {μ : Moment T} (h : Kept μ) {a : Packet × Fate T} (hd : 0 ≤ a.2.delay) :
    Kept (μ.receiverCall a) :=
  h.toLowerLayer (by simp) hd a.1

/-- The handlers of the sender. -/
lemma callSender {μ : Moment T} (h : Kept μ) {timeout : T} (ht : 0 ≤ timeout) {c : Choice T}
    (hd : ∀ i, 0 ≤ (c.fates i).delay) (e : SenderEvent) :
    AllKept (μ.callSender timeout c e) := by
  unfold Moment.callSender
  cases μ.sim.sender.handle e with
  | none =>
    refine ⟨?_, by simp⟩
    intro ν hν
    rcases List.mem_pair.mp hν with rfl | rfl
    · exact h
    · exact h.senderCall ht (le_refl 0)
  | some o =>
    have hentered : Kept { μ with sim := { μ.sim with src := μ.sim.sender.after e o } } :=
      h.congr rfl rfl rfl
    obtain ⟨hall, hend⟩ := scanl_inv (I := Kept)
      (fun a ha ν hν => hν.senderCall ht (Sim.delay_withFates hd ha)) hentered
    exact ⟨List.forall_mem_cons.mpr ⟨h, hall⟩, fun ν hν => Option.some.inj hν ▸ hend⟩

/-- The handler of the receiver. -/
lemma callReceiver {μ : Moment T} (h : Kept μ) (fresh : ℤ → ℕ → Byte) {c : Choice T}
    (hd : ∀ i, 0 ≤ (c.fates i).delay) (pkt : Packet) : AllKept (μ.callReceiver fresh c pkt) := by
  unfold Moment.callReceiver
  cases μ.sim.dst.rcv.fromLowerLayer fresh c.junk pkt with
  | none => exact ⟨List.forall_mem_singleton.mpr h, by simp⟩
  | some o =>
    have hentered : Kept { μ with sim := { μ.sim with
        dst := μ.sim.dst.absorb o
        stats := o.delivered.foldl Stats.receiverToUpperLayer μ.sim.stats } } :=
      h.congr rfl rfl rfl
    obtain ⟨hall, hend⟩ := scanl_inv (I := Kept)
      (fun a ha ν hν => hν.receiverCall (Sim.delay_withFates hd ha)) hentered
    exact ⟨List.forall_mem_cons.mpr ⟨h, hall⟩, fun ν hν => Option.some.inj hν ▸ hend⟩

/-- The case `EVENT_SENDER_FROMUPPERLAYER`. -/
lemma upperLayer {μ : Moment T} (h : Kept μ) {p : Params T} (ht : 0 ≤ p.timeout) {c : Choice T}
    (hc : Recorded.Delayed c) : AllKept (μ.upperLayer p c) := by
  have h₀ : Kept { μ with sim := { μ.sim with stats := (μ.sim.stats.generateMsg c.size).2 } } :=
    h.congr rfl rfl rfl
  obtain ⟨hall, hend⟩ :=
    h₀.callSender ht hc.2 (.fromUpperLayer (μ.sim.stats.generateMsg c.size).1 c.junk)
  unfold Moment.upperLayer
  dsimp only
  split
  · next μ' hμ' =>
    have hkept := hend μ' hμ'
    split
    · have hagain := hkept.scheduleAfter hc.1 (show EventType.senderFromUpperLayer ≠ _ by simp)
      refine ⟨?_, fun ν hν => Option.some.inj hν ▸ hagain⟩
      intro ν hν
      rcases List.mem_append.mp hν with hν | hν
      · exact hall ν hν
      · rw [List.mem_singleton.mp hν]
        exact hagain
    · exact ⟨hall, fun ν hν => Option.some.inj hν ▸ hkept⟩
  · exact ⟨hall, by simp⟩

/-- **One round** of the main loop. -/
theorem round {μ : Moment T} (h : Kept μ) {p : Params T} (ht : 0 ≤ p.timeout)
    (fresh : ℤ → ℕ → Byte) {c : Choice T} (hc : Recorded.Delayed c) :
    AllKept (μ.round p fresh c) := by
  unfold Moment.round EventChain.nextEvent
  cases hchain : μ.sim.core.chain with
  | nil => exact ⟨by simp, by simp⟩
  | cons e rest =>
    dsimp only
    cases htype : e.eventType with
    | senderFromUpperLayer => exact (h.pop hchain (by simp [htype])).upperLayer ht hc
    | senderFromLowerLayer pkt => exact (h.pop hchain (by simp [htype])).callSender ht hc.2 _
    | senderTimeout => exact (h.pop_timeout hchain htype).callSender ht hc.2 _
    | receiverFromLowerLayer pkt =>
      exact (h.pop hchain (by simp [htype])).callReceiver fresh hc.2 pkt

end Kept

variable [LinearOrder T] [AddCommGroup T] [IsOrderedAddMonoid T] {p : Params T}
  {fresh : ℤ → ℕ → Byte}

lemma Kept.of_reached (ht : 0 ≤ p.timeout) {μ : Moment T} (h : Reached p fresh μ) : Kept μ := by
  refine Run.invariant (I := Kept) ?_ ?_ h
  · rintro μ ⟨windows, window, rfl⟩
    have hempty : Kept (⟨⟨⟨0, []⟩, none, 0, .init windows, .init window, .init, []⟩, [], []⟩ :
        Moment T) := by
      refine ⟨⟨by simp, List.nodup_nil, by simp, by simp⟩, by simp, ?_, by simp⟩
      intro before e hpre
      simp at hpre
    exact hempty.scheduleAfter (le_refl 0) (by simp)
  · intro μ c μ' _ hμ hstep hc
    exact (hμ.round ht fresh hc).2 μ' hstep

end Moment

/-! ## The timer and the chain -/

/-- The chain holds one timeout if the timer is set, and none otherwise. -/
lemma Sim.TimerChain.timeouts {σ : Sim T} (h : σ.TimerChain) :
    (∀ id, σ.senderTimer = some id → ∃ e, σ.timeouts = [e] ∧ e.id = id) ∧
    (σ.senderTimer = none → σ.timeouts = []) := by
  have hmem : ∀ e, e ∈ σ.timeouts ↔ e ∈ σ.core.chain ∧ e.eventType = .senderTimeout := by
    intro e
    rw [Sim.timeouts, List.mem_filter, decide_eq_true_eq]
  constructor
  · intro id hid
    obtain ⟨e, he, heid, htype⟩ := h.timer_mem id hid
    refine ⟨e, ?_, heid⟩
    have hnodup : σ.timeouts.Nodup := (List.Nodup.of_map Event.id h.nodup).filter _
    -- every timeout is the event that `sender_timer` points to
    have hperm : σ.timeouts.Perm [e] := by
      rw [List.perm_ext_iff_of_nodup hnodup (List.nodup_singleton e)]
      intro x
      rw [hmem, List.mem_singleton]
      constructor
      · rintro ⟨hx, htime⟩
        have hsame : x.id = id := Option.some.inj ((h.mem_timer x hx htime).symm.trans hid)
        exact List.inj_on_of_nodup_map h.nodup hx he (hsame.trans heid.symm)
      · rintro rfl
        exact ⟨he, htype⟩
    exact List.perm_singleton.mp hperm
  · intro hnone
    rw [List.eq_nil_iff_forall_not_mem]
    intro e he
    obtain ⟨hchain, htype⟩ := (hmem e).mp he
    have htimer := h.mem_timer e hchain htype
    rw [hnone] at htimer
    cases htimer

/-- `sender_timer` and the event chain say the same about the timer. It is set if and only if the
chain holds exactly one timeout, which is then the event it points to, scheduled by the latest
call of `Sender_StartTimer`. -/
structure Moment.Agrees [Add T] (μ : Moment T) : Prop where
  nodup : (μ.sim.core.chain.map Event.id).Nodup
  set_iff : μ.sim.senderTimer ≠ none ↔ ∃ e, μ.sim.timeouts = [e]
  set : ∀ id, μ.sim.senderTimer = some id →
    ∃ e, μ.sim.timeouts = [e] ∧ e.id = id ∧ Latest μ.calls e
  unset : μ.sim.senderTimer = none → μ.sim.timeouts = []
  expired : Expired μ.calls
  found : ∀ a ∈ μ.cancels, ∃ e ∈ a.2, e.id = a.1 ∧ e.eventType = .senderTimeout

lemma Moment.Kept.agrees [Add T] {μ : Moment T} (h : μ.Kept) : μ.Agrees := by
  obtain ⟨hset, hunset⟩ := h.chain.timeouts
  refine ⟨h.chain.nodup, ?_, ?_, hunset, h.expired, h.found⟩
  · cases htimer : μ.sim.senderTimer with
    | none => simp [hunset htimer]
    | some id =>
      obtain ⟨e, he, -⟩ := hset id htimer
      simp [he]
  · intro id hid
    obtain ⟨e, he, heid⟩ := hset id hid
    have hmem : e ∈ μ.sim.timeouts := by rw [he]; exact List.mem_singleton_self e
    rw [Sim.timeouts, List.mem_filter, decide_eq_true_eq] at hmem
    exact ⟨e, he, heid, h.latest e hmem.1 hmem.2⟩

namespace Moment

variable [LinearOrder T] [AddCommGroup T] [IsOrderedAddMonoid T]

/-- **The timer and the event chain never disagree.** Every run of the main loop is a run of
moments, and in every run they agree when a handler is entered, after every call it makes into the
simulator and when it has returned, also in a round whose handler never does. -/
theorem timer_agrees_with_chain (p : Params T) (fresh : ℤ → ℕ → Byte) (ht : 0 ≤ p.timeout) :
    (∀ σ : Sim T, Run (Sim.step p fresh) (fun _ c _ => Recorded.Delayed c) Sim.Init σ →
      ∃ μ, Reached p fresh μ ∧ μ.sim = σ) ∧
    ∀ μ : Moment T, Reached p fresh μ → ∀ c, Recorded.Delayed c →
      (μ.step p fresh c).map Moment.sim = μ.sim.step p fresh c ∧
      ∀ μ' ∈ μ :: (μ.round p fresh c).1, μ'.Agrees := by
  refine ⟨fun σ h => exists_reached_iff.mpr h, fun μ h c hc => ⟨sim_step μ c, ?_⟩⟩
  have hkept := Kept.of_reached ht h
  intro μ' hμ'
  rcases List.mem_cons.mp hμ' with rfl | hμ'
  · exact hkept.agrees
  · exact ((hkept.round ht fresh hc).1 μ' hμ').agrees

/-- A round in which the link loses everything. -/
def lossy : Choice ℤ := ⟨.zero, fun _ => .lost, ⟨1, by norm_num⟩, 1⟩

/-- Rounds like that from zeroed memory. -/
def lossyRounds : ℕ → Option (Moment ℤ)
  | 0 => some ⟨Sim.init (Ring.fill _ .zero) (Ring.fill _ .zero), [], []⟩
  | n + 1 => (lossyRounds n).bind fun μ => μ.step ⟨1, 3⟩ (fun _ _ => 0) lossy

lemma delayed_lossy : Recorded.Delayed lossy := ⟨by decide, fun _ => le_refl 0⟩

lemma reached_lossyRounds : ∀ (n : ℕ) {μ : Moment ℤ}, lossyRounds n = some μ →
    Reached ⟨1, 3⟩ (fun _ _ => 0) μ := by
  intro n
  induction n with
  | zero =>
    intro μ h
    obtain rfl := Option.some.inj h
    exact .start ⟨_, _, rfl⟩
  | succ n ih =>
    intro μ' h
    obtain ⟨μ, hμ, hstep⟩ := Option.bind_eq_some_iff.mp h
    exact (ih hμ).next hstep delayed_lossy

/-- In the third such round the timer expires and is started again. -/
theorem lossy_timer_restarted : ∃ μ : Moment ℤ, Reached ⟨1, 3⟩ (fun _ _ => 0) μ ∧
    μ.sim.senderTimer = some 3 ∧ μ.calls.length = 3 ∧ μ.Agrees := by
  have heval : (lossyRounds 3).map (fun μ => (μ.sim.senderTimer, μ.calls.length)) =
      some (some 3, 3) := by decide +kernel
  obtain ⟨μ, hμ, hend⟩ := Option.map_eq_some_iff.mp heval
  rw [Prod.mk.injEq] at hend
  have hrun := reached_lossyRounds 3 hμ
  exact ⟨μ, hrun, hend.1, hend.2, ((timer_agrees_with_chain ⟨1, 3⟩ _ (by decide)).2 μ hrun lossy
    delayed_lossy).2 μ List.mem_cons_self⟩

end Moment
end NetLabs.Rdt
