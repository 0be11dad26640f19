import NetLabs.Rdt.SimTimer
import NetLabs.Rdt.SimVerdict

/-!
# What a simulation costs

The sender repeats packets only when its timer expires, and then at most the ten of a window, so
the packets it hands to the lower layer are those it builds and at most ten more for each expiry
(`Frugal`). The receiver answers a packet with at most one ack. Hence `tot_pkts_passed`, which
`main` prints at the end, is at most twice that number, whatever the link does (`Answered`).
-/

namespace NetLabs.Rdt

open NetLabs.Lib NetLabs.Lib.Bytes UpperMessage

/-! ## The transmissions of the sender -/

/-- Whether a call is an expiry. -/
def SenderEvent.expiries : SenderEvent → ℕ
  | .timeout _ => 1
  | _ => 0

/-- Whether an event is one. -/
def EventType.expiries : EventType → ℕ
  | .senderTimeout => 1
  | _ => 0

namespace SenderSys

open Sender

variable {σ σ' : SenderSys} {e : SenderEvent} {k : ℕ}

/-- What one call transmits: the packets it builds, behind some of the window if it is an expiry. -/
lemma step_again (hr : Resting σ) (hw : Windowed σ) (he : σ.step e = some σ') :
    ∃ again new, σ'.built = σ.built ++ new ∧ σ'.sent = σ.sent ++ (again ++ new) ∧
      again.length ≤ 10 * e.expiries := by
  obtain ⟨hc, hn⟩ := hr
  have hlen := hw.length_eq
  have hwin := hc.window_eq
  have hle := hc.window_le
  have hack := hc.ack_le
  -- outside an expiry, everything built before has been transmitted
  have hfresh : ∀ (n : ℕ) (new : List Packet), σ.snd.nextPacketToSend = n →
      (σ.built ++ new).drop n = new := by
    intro n new hnext
    rw [show n = σ.built.length by omega, List.drop_left]
  rcases step_cases he with ⟨msg, junk, rfl, -, rfl⟩ | ⟨msg, junk, o, rfl, -, ho, rfl⟩ |
    ⟨pkt, junk, rfl, -, rfl⟩ | ⟨pkt, junk, o, rfl, -, h₁, h₂, ho, rfl⟩ | ⟨junk, o, rfl, ho, rfl⟩
  · exact ⟨[], [], by simp, by simp, Nat.zero_le _⟩
  · obtain ⟨n, hnext, -, -, hsent, -⟩ := constructAndSend_stretch (hc.enqueue msg.toMessage) hlen
      hw.window hw.numbered (by simp only [Sender.enqueue]; omega) (le_of_eq hn) ho
    refine ⟨[], o.built, rfl, ?_, Nat.zero_le _⟩
    rw [List.nil_append, ← hfresh n o.built hnext, ← hsent]
    rfl
  · exact ⟨[], [], by simp, by simp, Nat.zero_le _⟩
  · obtain ⟨n, hnext, -, -, hsent, -⟩ := constructAndSend_stretch (hc.slide h₁ h₂) hlen
      (hw.window.mono (by simp only [Sender.slide]; omega)) hw.numbered
      (by simp only [Sender.slide]; omega) (le_of_eq hn) ho
    refine ⟨[], o.built, rfl, ?_, Nat.zero_le _⟩
    rw [List.nil_append, ← hfresh n o.built hnext, ← hsent]
    rfl
  · obtain ⟨n, hnext, hnle, -, hsent, -⟩ := constructAndSend_stretch hc.rewind hlen hw.window
      hw.numbered (le_refl _) hc.ack_le ho
    change σ.snd.ackExpected = n at hnext
    refine ⟨σ.built.drop n, o.built, rfl, ?_, ?_⟩
    · rw [← List.drop_append_of_le_length hnle, ← hsent]
      rfl
    · rw [List.length_drop, SenderEvent.expiries]
      omega

/-- The sender transmits what it builds and, for each of `k` expiries, at most ten packets again. -/
structure Frugal (σ : SenderSys) (k : ℕ) : Prop where
  length_le : σ.sent.length ≤ σ.built.length + 10 * k
  eq_of_zero : k = 0 → σ.sent = σ.built

lemma Frugal.mono (h : Frugal σ k) {k' : ℕ} (hle : k ≤ k') : Frugal σ k' :=
  ⟨h.length_le.trans (by omega), fun hzero => h.eq_of_zero (by omega)⟩

lemma Frugal.step (h : Frugal σ k) (hr : Resting σ) (hw : Windowed σ)
    (he : σ.step e = some σ') : Frugal σ' (k + e.expiries) := by
  obtain ⟨again, new, hbuilt, hsent, hagain⟩ := step_again hr hw he
  refine ⟨?_, fun hzero => ?_⟩
  · have hle := h.length_le
    rw [hbuilt, hsent, List.length_append, List.length_append, List.length_append]
    omega
  · have hnil : again = [] := List.eq_nil_of_length_eq_zero (by omega)
    rw [hbuilt, hsent, h.eq_of_zero (by omega), hnil, List.nil_append]

end SenderSys

/-! ## The packets that the link passes -/

namespace Sim

variable {T : Type*}

/-- The packets passed so far, and the data packets in flight: the receiver has yet to answer
these. -/
def traffic (σ : Sim T) : ℤ := σ.stats.totPktsPassed + σ.data.card

/-- A packet of the sender counts twice, with its answer. -/
def Answered (σ : Sim T) : Prop := σ.traffic ≤ 2 * σ.src.sent.length

lemma card_inFlight_le {sel : EventType → Option Packet} {l l' : List (Event T)}
    (h : l.Sublist l') : (inFlight sel l).card ≤ (inFlight sel l').card :=
  (h.filterMap _).length_le

lemma traffic_stopTimer_le (σ : Sim T) : σ.stopTimer.traffic ≤ σ.traffic := by
  unfold stopTimer
  cases σ.senderTimer with
  | none => exact le_refl _
  | some id =>
    have hle : (inFlight EventType.dataPacket
        (σ.core.chain.eraseP fun e => e.id == id)).card ≤ σ.data.card :=
      card_inFlight_le List.eraseP_sublist
    show σ.stats.totPktsPassed + ((inFlight EventType.dataPacket
      (σ.core.chain.eraseP fun e => e.id == id)).card : ℤ) ≤ σ.traffic
    unfold traffic
    omega

/-- The timer is off when the chain is empty. -/
lemma timer_of_chain_nil {σ : Sim T} (h : TimerChain σ) (hempty : σ.core.chain = []) :
    σ.sender.timer = false := by
  show σ.senderTimer.isSome = false
  cases hid : σ.senderTimer with
  | none => rfl
  | some id =>
    obtain ⟨e, he, -⟩ := h.timer_mem id hid
    rw [hempty] at he
    cases he

variable [LinearOrder T] [AddCommGroup T]

/-- An event that is scheduled is dropped, or adds the packet it carries. -/
lemma traffic_scheduleAfter_le (delay : T) (type : EventType) (σ : Sim T) :
    (σ.scheduleAfter delay type).traffic ≤ σ.traffic + type.dataPacket.toList.length := by
  show σ.stats.totPktsPassed + ((σ.scheduleAfter delay type).data.card : ℤ) ≤ _
  have hle : (σ.scheduleAfter delay type).data.card ≤
      σ.data.card + type.dataPacket.toList.length := by
    unfold data scheduleAfter EventChain.schedule
    split
    · exact Nat.le_add_right _ _
    · rw [inFlight_perm (List.perm_orderedInsert _ _ _), inFlight_cons, Multiset.card_add,
        Multiset.coe_card, Nat.add_comm]
  unfold traffic
  omega

lemma traffic_startTimer_le (timeout : T) (σ : Sim T) :
    (σ.startTimer timeout).traffic ≤ σ.traffic := by
  have hstop := traffic_stopTimer_le σ
  have hschedule := traffic_scheduleAfter_le timeout .senderTimeout σ.stopTimer
  change (σ.startTimer timeout).traffic ≤ σ.stopTimer.traffic + 0 at hschedule
  omega

/-- A packet handed to the link is lost, or counted and scheduled. -/
lemma traffic_toLowerLayer_le {n : ℕ} {arrival : Packet → EventType}
    (hn : ∀ pkt, (arrival pkt).dataPacket.toList.length = n) (fate : Fate T) (pkt : Packet)
    (σ : Sim T) : (σ.toLowerLayer arrival fate pkt).traffic ≤ σ.traffic + (1 + n) := by
  cases fate with
  | lost =>
    show σ.traffic ≤ _
    omega
  | passed noise delay =>
    have hschedule := traffic_scheduleAfter_le delay (arrival (noise.elim pkt (corrupt · pkt))) σ
    rw [hn] at hschedule
    unfold traffic at hschedule ⊢
    change σ.stats.totPktsPassed + _ ≤ _ at hschedule
    change σ.stats.totPktsPassed + 1 + _ ≤ _
    change _ + ((σ.scheduleAfter delay _).data.card : ℤ) ≤ _
    omega

lemma traffic_senderCall_le (timeout : T) (call : SenderCall × Fate T) (σ : Sim T) :
    (σ.senderCall timeout call).traffic ≤ σ.traffic + 2 * (sentOf [call.1]).length := by
  obtain ⟨call, fate⟩ := call
  cases call with
  | startTimer => exact le_add_of_le_of_nonneg (traffic_startTimer_le timeout σ) (by omega)
  | stopTimer => exact le_add_of_le_of_nonneg (traffic_stopTimer_le σ) (by omega)
  | toLowerLayer pkt => exact traffic_toLowerLayer_le (n := 1) (fun _ => rfl) fate pkt σ

lemma traffic_senderCalls_le (timeout : T) : ∀ (calls : List (SenderCall × Fate T)) (σ : Sim T),
    (calls.foldl (senderCall timeout) σ).traffic ≤
      σ.traffic + 2 * (sentOf (calls.map Prod.fst)).length := by
  intro calls
  induction calls with
  | nil =>
    intro σ
    exact le_add_of_nonneg_right (by omega)
  | cons call calls ih =>
    intro σ
    have hsplit : sentOf ((call :: calls).map Prod.fst) =
        sentOf [call.1] ++ sentOf (calls.map Prod.fst) := by
      rw [sentOf, sentOf, sentOf, ← List.filterMap_append]
      rfl
    have hcall := traffic_senderCall_le timeout call σ
    have hcalls := ih (σ.senderCall timeout call)
    rw [hsplit, List.length_append, List.foldl_cons]
    push_cast
    omega

lemma traffic_receiverCalls_le : ∀ (acks : List (Packet × Fate T)) (σ : Sim T),
    (acks.foldl receiverCall σ).traffic ≤ σ.traffic + acks.length := by
  intro acks
  induction acks with
  | nil =>
    intro σ
    exact le_add_of_nonneg_right (by omega)
  | cons ack acks ih =>
    intro σ
    have hcall : (σ.receiverCall ack).traffic ≤ σ.traffic + (1 + (0 : ℕ)) :=
      traffic_toLowerLayer_le (n := 0) (fun _ => rfl) ack.2 ack.1 σ
    have hcalls := ih (σ.receiverCall ack)
    rw [List.foldl_cons, List.length_cons]
    push_cast at hcall ⊢
    omega

/-! ## A round of the main loop -/

/-- Messages that are handed to the upper layer do not count. -/
lemma totPktsPassed_deliver (s : Stats) (msgs : List Message) :
    (msgs.foldl Stats.receiverToUpperLayer s).totPktsPassed = s.totPktsPassed := by
  refine (scanl_inv (I := fun r : Stats => r.totPktsPassed = s.totPktsPassed) ?_ rfl).2
  intro m _ r hr
  exact (scanl_inv (f := Stats.checkChar) (l := slice m.data 0 m.size.toNat)
    (I := fun r : Stats => r.totPktsPassed = s.totPktsPassed) (fun _ _ _ h => h) hr).2

/-- The receiver answers a packet with at most one ack. -/
lemma length_acks_le {fresh : ℤ → ℕ → Byte} {junk pkt : Packet} {r : Receiver}
    {o : Receiver.Outcome} (ho : r.fromLowerLayer fresh junk pkt = some o) :
    o.acks.length ≤ 1 := by
  unfold Receiver.fromLowerLayer at ho
  split_ifs at ho
  · obtain rfl := Option.some.inj ho
    exact Nat.zero_le _
  · obtain rfl := Option.some.inj ho
    exact le_refl _
  · obtain rfl := Option.some.inj ho
    exact le_refl _
  · simp only [Option.bind_eq_bind, Option.bind_eq_some_iff, Option.pure_def,
      Option.some.injEq] at ho
    obtain ⟨c, -, rfl⟩ := ho
    exact le_refl _

variable {p : Params T} {fresh : ℤ → ℕ → Byte} {σ σ' : Sim T} {c : Choice T}

/-- A handler of the sender makes a step of the sender, and what the link passes is paid for by
what that sends. -/
lemma callSender_step {timeout : T} {e : SenderEvent}
    (he : σ.callSender timeout c e = some σ') :
    σ.sender.step e = some σ'.src ∧ (σ.Answered → σ'.Answered) := by
  unfold callSender at he
  rw [Option.map_eq_some_iff] at he
  obtain ⟨o, ho, rfl⟩ := he
  obtain ⟨hsrc, -⟩ := senderCalls_frame timeout (withFates c.fates o.calls)
    { σ with src := σ.sender.after e o }
  refine ⟨by rw [SenderSys.step, ho, hsrc]; rfl, fun h => ?_⟩
  have hle := traffic_senderCalls_le timeout (withFates c.fates o.calls)
    { σ with src := σ.sender.after e o }
  rw [map_fst_withFates] at hle
  change _ ≤ σ.traffic + 2 * (o.sent.length : ℤ) at hle
  unfold Answered at h ⊢
  rw [hsrc]
  show _ ≤ 2 * ((σ.src.sent ++ o.sent).length : ℤ)
  rw [List.length_append]
  push_cast
  omega

lemma upperLayer_step (he : σ.upperLayer p c = some σ') :
    ∃ msg, σ.sender.step (.fromUpperLayer msg c.junk) = some σ'.src ∧
      (σ.Answered → σ'.Answered) := by
  unfold upperLayer at he
  simp only [Option.bind_eq_bind, Option.bind_eq_some_iff, Option.pure_def, Option.some.injEq] at he
  obtain ⟨σ₁, hcall, rfl⟩ := he
  obtain ⟨hstep, hanswered⟩ := callSender_step hcall
  refine ⟨(σ.stats.generateMsg c.size).1, ?_, fun h => ?_⟩
  · rw [show SenderSys.step σ.sender _ = some σ₁.src from hstep]
    split
    · rfl
    · rfl
  · have h₁ : σ₁.Answered := hanswered h
    split
    · -- the recurring event carries no packet
      have hle := traffic_scheduleAfter_le c.arrival .senderFromUpperLayer σ₁
      change _ ≤ σ₁.traffic + 0 at hle
      rw [add_zero] at hle
      exact hle.trans h₁
    · exact h₁

/-- A packet that leaves the chain pays for the ack that answers it. -/
lemma callReceiver_step {pkt : Packet} (he : σ.callReceiver fresh c pkt = some σ') :
    σ'.src = σ.src ∧ σ'.traffic ≤ σ.traffic + 1 := by
  unfold callReceiver at he
  rw [Option.map_eq_some_iff] at he
  obtain ⟨o, ho, rfl⟩ := he
  obtain ⟨hsrc, -⟩ := receiverCalls_frame (withFates c.fates o.acks)
    { σ with
      dst := σ.dst.absorb o
      stats := o.delivered.foldl Stats.receiverToUpperLayer σ.stats }
  have hle := traffic_receiverCalls_le (withFates c.fates o.acks)
    { σ with
      dst := σ.dst.absorb o
      stats := o.delivered.foldl Stats.receiverToUpperLayer σ.stats }
  have hone := length_acks_le ho
  have hlen : (withFates c.fates o.acks).length = o.acks.length := List.length_mapIdx
  have hsame : traffic { σ with
      dst := σ.dst.absorb o
      stats := o.delivered.foldl Stats.receiverToUpperLayer σ.stats } = σ.traffic := by
    unfold traffic
    rw [totPktsPassed_deliver]
    rfl
  refine ⟨hsrc, ?_⟩
  omega

/-- The number of expiries in the round that begins. -/
def due (σ : Sim T) : ℕ := (σ.core.chain.head?.map fun e => e.eventType.expiries).getD 0

/-- **One round of the main loop**: every packet passed is still paid for, and the sender makes a
step, unless a packet reaches the receiver. -/
theorem step_answered (h : σ.Answered) (he : σ.step p fresh c = some σ') : σ'.Answered ∧
    (σ'.src = σ.src ∨ ∃ timer e, SenderSys.step { σ.src with timer := timer } e = some σ'.src ∧
      e.expiries = σ.due) := by
  obtain ⟨⟨id, t, type⟩, rest, hchain, hcase⟩ := step_eq_some he
  have hdata : σ.data.card = type.dataPacket.toList.length +
      (inFlight EventType.dataPacket rest).card := by
    rw [data, hchain, inFlight_cons, Multiset.card_add, Multiset.coe_card]
  have hpop : ∀ timer : Option ℕ, (traffic { σ with core := ⟨t, rest⟩, senderTimer := timer }) +
      type.dataPacket.toList.length = σ.traffic := by
    intro timer
    show σ.stats.totPktsPassed + ((inFlight EventType.dataPacket rest).card : ℤ) + _ = _
    unfold traffic
    omega
  have hpopped : ∀ timer : Option ℕ,
      Answered { σ with core := ⟨t, rest⟩, senderTimer := timer } := by
    intro timer
    have hone := hpop timer
    unfold Answered at h ⊢
    show _ ≤ 2 * (σ.src.sent.length : ℤ)
    omega
  have hdue : σ.due = type.expiries := by
    rw [due, hchain]
    rfl
  cases type with
  | senderFromUpperLayer =>
    obtain ⟨msg, hstep, hanswered⟩ := upperLayer_step hcase
    exact ⟨hanswered (hpopped _), Or.inr ⟨_, _, hstep, hdue.symm⟩⟩
  | senderFromLowerLayer pkt =>
    obtain ⟨hstep, hanswered⟩ := callSender_step hcase
    exact ⟨hanswered (hpopped _), Or.inr ⟨_, _, hstep, hdue.symm⟩⟩
  | senderTimeout =>
    obtain ⟨hstep, hanswered⟩ := callSender_step hcase
    exact ⟨hanswered (hpopped _), Or.inr ⟨_, _, hstep, hdue.symm⟩⟩
  | receiverFromLowerLayer pkt =>
    obtain ⟨hsrc, hle⟩ := callReceiver_step hcase
    refine ⟨?_, Or.inl hsrc⟩
    have hone := hpop σ.senderTimer
    unfold Answered
    rw [hsrc]
    exact (hle.trans (le_of_eq hone)).trans h

end Sim

/-! ## Whole runs -/

/-- The simulator, with the number of expiries so far. -/
structure Counted (T : Type*) where
  sim : Sim T
  expiries : ℕ

namespace Counted

variable {T : Type*} [LinearOrder T] [AddCommGroup T]
variable {p : Params T} {fresh : ℤ → ℕ → Byte} {μ : Counted T}

/-- One round of the main loop. -/
def step (p : Params T) (fresh : ℤ → ℕ → Byte) (μ : Counted T) (c : Choice T) :
    Option (Counted T) :=
  (μ.sim.step p fresh c).map fun σ => ⟨σ, μ.expiries + μ.sim.due⟩

def Init (μ : Counted T) : Prop := Sim.Init μ.sim ∧ μ.expiries = 0

/-- A round as it is assumed to go. -/
def Sound (μ : Counted T) (c : Choice T) (μ' : Counted T) : Prop := Sim.Sound μ.sim c μ'.sim

lemma run_sim (h : Run (step p fresh) Sound Init μ) :
    Run (Sim.step p fresh) Sim.Sound Sim.Init μ.sim := by
  refine Run.invariant (I := fun μ : Counted T => Run (Sim.step p fresh) Sim.Sound Sim.Init μ.sim)
    (fun μ hμ => .start hμ.1) ?_ h
  intro μ c μ' _ hsim he hs
  obtain ⟨σ, hσ, rfl⟩ := Option.map_eq_some_iff.mp he
  exact hsim.next hσ hs

/-- The number of packets that a message is cut into. -/
def packetsFor (m : UpperMessage) : ℕ := (m.data.length + 4 + 118) / 119

/-- The number of packets that some messages are cut into. -/
def packetsOf (ms : List UpperMessage) : ℕ := (ms.map packetsFor).sum

lemma length_segment_eq (m : UpperMessage) : m.segment.length = packetsFor m := by
  rw [length_segment, Chunks.count, length_encoded, packetsFor]
  omega

lemma packetsOf_eq (ms : List UpperMessage) : packetsOf ms = (ms.flatMap segment).length := by
  rw [List.length_flatMap, packetsOf]
  exact congrArg List.sum (List.map_congr_left fun m _ => (length_segment_eq m).symm)

variable [IsOrderedAddMonoid T]

/-- What every round keeps. -/
lemma spent_of_run (ht : 0 ≤ p.timeout) (h : Run (step p fresh) Sound Init μ) :
    μ.sim.Answered ∧ μ.sim.src.Frugal μ.expiries := by
  refine Run.invariant
    (I := fun μ : Counted T => μ.sim.Answered ∧ μ.sim.src.Frugal μ.expiries) ?_ ?_ h
  · rintro ⟨σ, k⟩ ⟨⟨windows, window, rfl⟩, rfl⟩
    refine ⟨?_, Nat.zero_le _, fun _ => rfl⟩
    exact Sim.traffic_scheduleAfter_le 0 .senderFromUpperLayer
      ⟨⟨0, []⟩, none, 0, .init windows, .init window, .init, []⟩
  · rintro μ c μ' hrun ⟨hanswered, hfrugal⟩ he -
    obtain ⟨σ, hσ, rfl⟩ := Option.map_eq_some_iff.mp he
    obtain ⟨hanswered', hsrc | ⟨timer, e, hstep, hdue⟩⟩ := Sim.step_answered hanswered hσ
    · refine ⟨hanswered', ?_⟩
      show SenderSys.Frugal σ.src _
      rw [hsrc]
      exact hfrugal.mono (Nat.le_add_right _ _)
    · refine ⟨hanswered', ?_⟩
      -- neither invariant of the sender depends on its timer
      have hr := (Sim.reached_of_run ht (run_sim hrun)).2
      obtain ⟨hresting, hwindowed⟩ := SenderSys.resting_windowed (Sys.run_src_expiresSet hr)
      show SenderSys.Frugal σ.src (μ.expiries + μ.sim.due)
      rw [← hdue]
      exact SenderSys.Frugal.step (σ := { μ.sim.src with timer := timer })
        ⟨hfrugal.length_le, hfrugal.eq_of_zero⟩ hresting
        ⟨hwindowed.length_eq, hwindowed.window, hwindowed.numbered, hwindowed.mem_sent_iff⟩ hstep

/-- **What a simulation costs.** In every run the sender builds the pieces of its messages, one
message after the other, at most all of them, and exactly these once the event chain is empty; it
transmits at most ten packets more for each expiry, and without an expiry no packet twice; and
`tot_pkts_passed` is at most twice the number of transmissions, whatever the link loses, alters and
delays. -/
theorem simulation_traffic (ht : 0 ≤ p.timeout) (h : Run (step p fresh) Sound Init μ) :
    (μ.sim.src.built.map Packet.payload <+: μ.sim.src.accepted.flatMap segment ∧
      ∀ m ∈ μ.sim.src.accepted, m.segment.length = packetsFor m) ∧
    μ.sim.src.built.length ≤ packetsOf μ.sim.src.accepted ∧
    (μ.sim.core.chain = [] → μ.sim.src.built.length = packetsOf μ.sim.src.accepted) ∧
    μ.sim.src.sent.length ≤ μ.sim.src.built.length + 10 * μ.expiries ∧
    (μ.expiries = 0 → μ.sim.src.sent = μ.sim.src.built) ∧
    μ.sim.stats.totPktsPassed ≤ 2 * μ.sim.src.sent.length := by
  obtain ⟨hanswered, hfrugal⟩ := spent_of_run ht h
  obtain ⟨hchain, hr⟩ := Sim.reached_of_run ht (run_sim h)
  have hsrc := Sys.run_src_orderly (Sys.bufferFits_of_bounded hr)
  have hstream := SenderSys.stream_of_orderly hsrc
  have hbuilt := SenderSys.length_built_le hsrc
  change μ.sim.src.built.length ≤ (μ.sim.src.accepted.flatMap segment).length at hbuilt
  rw [packetsOf_eq]
  refine ⟨⟨SenderSys.payload_isPrefix hstream, fun m _ => length_segment_eq m⟩, hbuilt,
    fun hempty => ?_, hfrugal.length_le, hfrugal.eq_of_zero, ?_⟩
  · -- with an empty chain the timer is off, so that no message waits
    have hoff : μ.sim.sender.timer = false := Sim.timer_of_chain_nil hchain hempty
    obtain ⟨⟨hc, -⟩, htimer⟩ := SenderSys.timerRight_of_orderly hsrc
    have hcur := hc.cur_le
    have hidle : ¬ μ.sim.sender.snd.curMessageSeq < μ.sim.sender.snd.nextMessageSeq := by
      intro hlt
      have hon : μ.sim.sender.timer = true := htimer.waiting hlt
      rw [hoff] at hon
      cases hon
    have hpay := congrArg List.length (SenderSys.payload_eq hstream (le_antisymm hcur
      (not_lt.mp hidle)))
    rwa [List.length_map] at hpay
  · unfold Sim.Answered Sim.traffic at hanswered
    omega

/-- The link loses the first packet, and passes everything afterwards at once. -/
def lossThenCalm (n : ℕ) : Option (Counted ℤ) :=
  play (step ⟨1, 3⟩ fun _ _ => 0) (fun μ c μ' => Sim.soundTest μ.sim c μ'.sim)
    ⟨Sim.init (Ring.fill _ .zero) (Ring.fill _ .zero), 0⟩
    ((fun _ => Moment.lossy) :: List.replicate n fun _ => Sim.calm)

lemma run_lossThenCalm (n : ℕ) {μ : Counted ℤ} (h : lossThenCalm n = some μ) :
    Run (step ⟨1, 3⟩ fun _ _ => 0) Sound Init μ := by
  refine Run.play (fun _ _ _ => Sim.sound_of_test) ?_ (.start ⟨⟨_, _, rfl⟩, rfl⟩) h
  rw [List.forall_mem_cons]
  refine ⟨fun _ => Moment.delayed_lossy, fun f hf σ => ?_⟩
  obtain rfl := List.eq_of_mem_replicate hf
  exact ⟨Int.one_nonneg, fun _ => le_refl 0⟩

/-- One expiry and three transmissions of two packets, two data packets and two acks passed. -/
theorem loss_then_calm_traffic : ∃ μ : Counted ℤ, μ.expiries = 1 ∧
    μ.sim.src.sent.length = 3 ∧ μ.sim.stats.totPktsPassed = 4 ∧
    μ.sim.src.built.length = packetsOf μ.sim.src.accepted ∧
    μ.sim.src.sent.length ≤ μ.sim.src.built.length + 10 * μ.expiries := by
  have heval : (lossThenCalm 6).map (fun μ => (μ.expiries, μ.sim.src.sent.length,
      μ.sim.stats.totPktsPassed, μ.sim.core.chain.isEmpty)) = some (1, 3, 4, true) := by
    decide +kernel
  obtain ⟨μ, hμ, hend⟩ := Option.map_eq_some_iff.mp heval
  rw [Prod.mk.injEq, Prod.mk.injEq, Prod.mk.injEq, List.isEmpty_iff] at hend
  obtain ⟨-, -, hall, hsent, -⟩ := simulation_traffic (by decide) (run_lossThenCalm 6 hμ)
  exact ⟨μ, hend.1, hend.2.1, hend.2.2.1, hall hend.2.2.2, hsent⟩

end Counted
end NetLabs.Rdt
