import NetLabs.Lib.Stream
import NetLabs.Lib.While
import NetLabs.Rdt.SimTheorems

/-!
# The verdict of the simulator

The simulator never stores what was sent. `generate_msg` writes the digits in turn and goes on in
the next message where it stopped, and `Receiver_ToUpperLayer` counts along on its own. `Tally` is
what the counters, the totals and the flag say about the bytes that went by, and `main` reads its
verdict off them. It is kept by the two functions in any order of calls (`verdict_iff_same_bytes`)
and by the rounds of the main loop (`simulation_congratulated`).
-/

namespace NetLabs.Rdt

open NetLabs.Lib NetLabs.Lib.Bytes NetLabs.Lib.Stream

/-- The characters that `generate_msg` writes one after the other. -/
def digit (k : ℕ) : Byte := BitVec.ofNat 8 (0x30 + k % 10)

/-- The bytes of a message that `Receiver_ToUpperLayer` looks at. -/
def Message.bytes (m : Message) : List Byte := slice m.data 0 m.size.toNat

/-- A message whose block holds as many bytes as it says. -/
structure ReadableMessage extends Message where
  size_nonneg : 0 ≤ size
  size_le : size ≤ data.length

/-- A call of `generate_msg`, with the size that was drawn, or of `Receiver_ToUpperLayer`. -/
inductive UpperCall
  | generateMsg (size : Fin (2 ^ 31))
  | receiverToUpperLayer (msg : ReadableMessage)

/-- The condition under which `main` congratulates. -/
def Stats.verdict (s : Stats) : Bool :=
  s.messageVerificationPassed && s.totCharsSent == s.totCharsDelivered

/-- The statistics, and the messages that were generated and delivered. -/
structure Session where
  stats : Stats
  generated : List UpperMessage
  delivered : List Message

namespace Session

/-- The program starts. -/
def start : Session := ⟨.init, [], []⟩

/-- One call. -/
def call (x : Session) : UpperCall → Session
  | .generateMsg size =>
    let r := x.stats.generateMsg size
    { x with stats := r.2, generated := x.generated ++ [r.1] }
  | .receiverToUpperLayer msg =>
    { x with
      stats := x.stats.receiverToUpperLayer msg.toMessage
      delivered := x.delivered ++ [msg.toMessage] }

/-- The generated bytes, message after message. -/
def sentBytes (x : Session) : List Byte := x.generated.flatMap UpperMessage.data

/-- The delivered bytes, message after message. -/
def deliveredBytes (x : Session) : List Byte := x.delivered.flatMap Message.bytes

end Session

/-! ## The two loops -/

lemma toInt_digit (k : ℕ) : (digit k).toInt = 0x30 + ((k % 10 : ℕ) : ℤ) := by
  have hall : ∀ n < 10, (BitVec.ofNat 8 (0x30 + n)).toInt = 0x30 + (n : ℤ) := by decide
  exact hall (k % 10) (Nat.mod_lt k (by norm_num))

namespace Stats

/-- The loop of `generate_msg` writes the next characters. -/
lemma digits_eq : ∀ (n k : ℕ), FollowsFrom digit k (digits n (k % 10)).1 ∧
    (digits n (k % 10)).2 = (k + n) % 10 := by
  intro n
  induction n with
  | zero =>
    intro k
    exact ⟨trivial, rfl⟩
  | succ n ih =>
    intro k
    obtain ⟨hfollow, hcnt⟩ := ih (k + 1)
    rw [digits, Nat.mod_add_mod]
    refine ⟨⟨rfl, hfollow⟩, ?_⟩
    rw [hcnt, show k + 1 + n = k + (n + 1) by omega]

/-- The test in `Receiver_ToUpperLayer` compares with the next character. -/
lemma checkChar_eq {s : Stats} {k : ℕ} (hcnt : s.deliverCnt = k % 10) (b : Byte) :
    s.checkChar b = { s with
      messageVerificationPassed := s.messageVerificationPassed && decide (b = digit k)
      deliverCnt := (k + 1) % 10 } := by
  have htest : (b.toInt == 0x30 + (s.deliverCnt : ℤ)) = decide (b = digit k) := by
    rw [hcnt, ← toInt_digit, Bool.beq_eq_decide_eq, decide_eq_decide, BitVec.toInt_inj]
  unfold checkChar
  rw [htest, hcnt, Nat.mod_add_mod]

/-- The loop of `Receiver_ToUpperLayer` compares with the next characters. -/
lemma foldl_checkChar : ∀ (l : List Byte) {s : Stats} {k : ℕ}, s.deliverCnt = k % 10 →
    l.foldl checkChar s = { s with
      messageVerificationPassed := s.messageVerificationPassed && decide (FollowsFrom digit k l)
      deliverCnt := (k + l.length) % 10 } := by
  intro l
  induction l with
  | nil =>
    intro s k hcnt
    rw [decide_followsFrom_nil, Bool.and_true, List.length_nil, Nat.add_zero, ← hcnt]
    rfl
  | cons b l ih =>
    intro s k hcnt
    rw [List.foldl_cons, checkChar_eq hcnt b, ih rfl, decide_followsFrom_cons, List.length_cons,
      Bool.and_assoc, show k + 1 + l.length = k + (l.length + 1) by omega]

lemma receiverToUpperLayer_eq {s : Stats} {k : ℕ} (hcnt : s.deliverCnt = k % 10) (m : Message) :
    s.receiverToUpperLayer m = { s with
      messageVerificationPassed :=
        s.messageVerificationPassed && decide (FollowsFrom digit k m.bytes)
      deliverCnt := (k + m.bytes.length) % 10
      totCharsDelivered := s.totCharsDelivered + m.size } := by
  have hloop := foldl_checkChar m.bytes hcnt
  rw [Message.bytes] at hloop
  rw [receiverToUpperLayer, hloop]
  rfl

end Stats

/-! ## Totals and verdict -/

/-- What the statistics say about the bytes that were generated and delivered. -/
structure Tally (s : Stats) (sent delivered : List Byte) : Prop where
  sent_follows : FollowsFrom digit 0 sent
  generateCnt : s.generateCnt = sent.length % 10
  totCharsSent : s.totCharsSent = sent.length
  passed : s.messageVerificationPassed = decide (FollowsFrom digit 0 delivered)
  deliverCnt : s.deliverCnt = delivered.length % 10
  totCharsDelivered : s.totCharsDelivered = delivered.length

namespace Tally

lemma init : Tally .init [] [] := ⟨trivial, rfl, rfl, rfl, rfl, rfl⟩

variable {s : Stats} {sent delivered : List Byte}

/-- The parts of the statistics that matter here. -/
lemma congr (h : Tally s sent delivered) (n : ℤ) :
    Tally { s with totPktsPassed := n } sent delivered :=
  ⟨h.sent_follows, h.generateCnt, h.totCharsSent, h.passed, h.deliverCnt, h.totCharsDelivered⟩

lemma generateMsg (h : Tally s sent delivered) (size : Fin (2 ^ 31)) :
    Tally (s.generateMsg size).2 (sent ++ (s.generateMsg size).1.data) delivered := by
  unfold Stats.generateMsg
  dsimp only
  generalize (if size.val = 0 then 1 else size.val) = n
  rw [h.generateCnt]
  obtain ⟨hfollow, hcnt⟩ := Stats.digits_eq n sent.length
  refine ⟨?_, ?_, ?_, h.passed, h.deliverCnt, h.totCharsDelivered⟩
  · rw [followsFrom_append, Nat.zero_add]
    exact ⟨h.sent_follows, hfollow⟩
  · rw [List.length_append, Stats.length_digits]
    exact hcnt
  · rw [List.length_append, Stats.length_digits, Nat.cast_add, ← h.totCharsSent]

lemma receiverToUpperLayer (h : Tally s sent delivered) (m : ReadableMessage) :
    Tally (s.receiverToUpperLayer m.toMessage) sent (delivered ++ m.toMessage.bytes) := by
  have hlen : (m.toMessage.bytes.length : ℤ) = m.size := by
    have hnonneg := m.size_nonneg
    have hle := m.size_le
    rw [Message.bytes, length_slice]
    omega
  rw [Stats.receiverToUpperLayer_eq h.deliverCnt]
  refine ⟨h.sent_follows, h.generateCnt, h.totCharsSent, ?_, ?_, ?_⟩
  · dsimp only
    rw [h.passed, ← Bool.decide_and, decide_eq_decide, followsFrom_append, Nat.zero_add]
  · rw [List.length_append]
  · dsimp only
    rw [h.totCharsDelivered, List.length_append, Nat.cast_add, hlen]

/-- The verdict is exact. -/
lemma verdict (h : Tally s sent delivered) : s.verdict = true ↔ delivered = sent := by
  unfold Stats.verdict
  rw [Bool.and_eq_true, beq_iff_eq, h.passed, decide_eq_true_eq, h.totCharsSent,
    h.totCharsDelivered, Nat.cast_inj]
  constructor
  · rintro ⟨hfollow, hlen⟩
    exact hfollow.eq_of_length h.sent_follows hlen.symm
  · rintro rfl
    exact ⟨h.sent_follows, rfl⟩

end Tally

namespace Session

/-- The session after a sequence of calls. -/
def run (calls : List UpperCall) : Session := calls.foldl call start

lemma tally_call {x : Session} (h : Tally x.stats x.sentBytes x.deliveredBytes) (a : UpperCall) :
    Tally (x.call a).stats (x.call a).sentBytes (x.call a).deliveredBytes := by
  cases a with
  | generateMsg size =>
    have hcall := h.generateMsg size
    simpa [call, sentBytes, deliveredBytes] using hcall
  | receiverToUpperLayer m =>
    have hcall := h.receiverToUpperLayer m
    simpa [call, sentBytes, deliveredBytes] using hcall

lemma tally_run (calls : List UpperCall) :
    Tally (run calls).stats (run calls).sentBytes (run calls).deliveredBytes :=
  (scanl_inv (I := fun x : Session => Tally x.stats x.sentBytes x.deliveredBytes)
    (fun a _ _ h => tally_call h a) Tally.init).2

/-- No byte is taken back. -/
lemma length_le_run_append (before rest : List UpperCall) :
    (run before).sentBytes.length ≤ (run (before ++ rest)).sentBytes.length ∧
    (run before).deliveredBytes.length ≤ (run (before ++ rest)).deliveredBytes.length := by
  unfold run
  rw [List.foldl_append]
  refine (scanl_inv (I := fun x : Session => _ ≤ x.sentBytes.length ∧ _ ≤ x.deliveredBytes.length)
    ?_ ⟨le_refl _, le_refl _⟩).2
  intro a _ x hx
  cases a with
  | generateMsg size =>
    refine ⟨hx.1.trans ?_, hx.2⟩
    simp [call, sentBytes]
  | receiverToUpperLayer m =>
    refine ⟨hx.1, hx.2.trans ?_⟩
    simp [call, deliveredBytes]

end Session

/-- **The verdict is exact.** However the two streams are cut into messages, and in whatever order
the messages are generated and delivered, the simulator congratulates if and only if the delivered
bytes are the generated ones. With fewer than `2 ^ 31` of them on each side neither total ever
leaves the range of an `int`. -/
theorem verdict_iff_same_bytes (calls : List UpperCall)
    (hsent : (Session.run calls).sentBytes.length < 2 ^ 31)
    (hdelivered : (Session.run calls).deliveredBytes.length < 2 ^ 31) :
    (∀ before, before <+: calls →
      (0 ≤ (Session.run before).stats.totCharsSent ∧
        (Session.run before).stats.totCharsSent < 2 ^ 31) ∧
      0 ≤ (Session.run before).stats.totCharsDelivered ∧
        (Session.run before).stats.totCharsDelivered < 2 ^ 31) ∧
    ((Session.run calls).stats.verdict = true ↔
      (Session.run calls).deliveredBytes = (Session.run calls).sentBytes) := by
  refine ⟨?_, (Session.tally_run calls).verdict⟩
  rintro before ⟨rest, rfl⟩
  obtain ⟨hsent', hdelivered'⟩ := Session.length_le_run_append before rest
  have htally := Session.tally_run before
  rw [htally.totCharsSent, htally.totCharsDelivered]
  omega

/-- Four characters, generated in messages of three and one and delivered in two of two. -/
def recut : List UpperCall :=
  [.generateMsg ⟨3, by norm_num⟩,
    .receiverToUpperLayer ⟨⟨2, [0x30, 0x31]⟩, by decide, by decide⟩,
    .generateMsg ⟨0, by norm_num⟩,
    .receiverToUpperLayer ⟨⟨2, [0x32, 0x33]⟩, by decide, by decide⟩]

/-- Other messages, the same bytes. -/
theorem recut_accepted : (Session.run recut).stats.verdict = true ∧
    (Session.run recut).deliveredBytes = (Session.run recut).sentBytes := by
  have hverdict : (Session.run recut).stats.verdict = true := by decide
  exact ⟨hverdict, (verdict_iff_same_bytes recut (by decide) (by decide)).2.mp hverdict⟩

/-! ## The verdict of a simulation -/

/-- A message as the upper layer hands it over can be read. -/
def UpperMessage.readable (m : UpperMessage) : ReadableMessage where
  toMessage := m.toMessage
  size_nonneg := Int.natCast_nonneg _
  size_le := le_refl _

lemma UpperMessage.bytes_toMessage (m : UpperMessage) : m.toMessage.bytes = m.data := by
  unfold Message.bytes UpperMessage.toMessage slice
  rw [List.drop_zero, Int.toNat_natCast, List.take_length]

/-- Several messages are delivered. -/
lemma Tally.deliverAll : ∀ {l : List Message} {s : Stats} {sent delivered : List Byte},
    (∀ m ∈ l, ∃ r : ReadableMessage, r.toMessage = m) → Tally s sent delivered →
    Tally (l.foldl Stats.receiverToUpperLayer s) sent (delivered ++ l.flatMap Message.bytes) := by
  intro l
  induction l with
  | nil =>
    intro s sent delivered _ h
    rw [List.flatMap_nil, List.append_nil]
    exact h
  | cons m l ih =>
    intro s sent delivered hread h
    obtain ⟨r, rfl⟩ := hread m List.mem_cons_self
    rw [List.foldl_cons, List.flatMap_cons, ← List.append_assoc]
    exact ih (fun x hx => hread x (List.mem_cons_of_mem _ hx)) (h.receiverToUpperLayer r)

namespace Sim

variable {T : Type*}

/-- The statistics are those of the messages that the two endpoints have seen. -/
def Tallied (σ : Sim T) : Prop :=
  Tally σ.stats (σ.src.accepted.flatMap UpperMessage.data)
    (σ.dst.delivered.flatMap Message.bytes)

lemma Tallied.stopTimer {σ : Sim T} (h : σ.Tallied) : σ.stopTimer.Tallied := by
  unfold Sim.stopTimer
  split
  · exact h
  · exact h

variable [LinearOrder T] [AddCommGroup T] {p : Params T} {fresh : ℤ → ℕ → Byte}

lemma Tallied.toLowerLayer {σ : Sim T} (h : σ.Tallied) (arrival : Packet → EventType)
    (fate : Fate T) (pkt : Packet) : (σ.toLowerLayer arrival fate pkt).Tallied := by
  cases fate with
  | lost => exact h
  | passed noise delay => exact h.congr _

lemma Tallied.senderCall {σ : Sim T} (h : σ.Tallied) (timeout : T) (call : SenderCall × Fate T) :
    (σ.senderCall timeout call).Tallied := by
  obtain ⟨call, fate⟩ := call
  cases call with
  | startTimer => exact h.stopTimer
  | stopTimer => exact h.stopTimer
  | toLowerLayer pkt => exact h.toLowerLayer _ fate pkt

/-- A handler of the sender, once the message it is handed has been counted. -/
lemma Tallied.callSender {σ σ' : Sim T} {timeout : T} {c : Choice T} {e : SenderEvent}
    (h : Tally σ.stats ((σ.src.accepted ++ SenderSys.accepts e).flatMap UpperMessage.data)
      (σ.dst.delivered.flatMap Message.bytes))
    (he : σ.callSender timeout c e = some σ') : σ'.Tallied := by
  unfold Sim.callSender at he
  rw [Option.map_eq_some_iff] at he
  obtain ⟨o, -, rfl⟩ := he
  have hentered : Tallied { σ with src := σ.sender.after e o } := h
  exact (scanl_inv (I := Tallied) (fun a _ τ hτ => hτ.senderCall timeout a) hentered).2

/-- A handler of the sender that is handed no message. -/
lemma Tallied.callSender_of_accepts {σ σ' : Sim T} (h : σ.Tallied) {timeout : T} {c : Choice T}
    {e : SenderEvent} (hnone : SenderSys.accepts e = [])
    (he : σ.callSender timeout c e = some σ') : σ'.Tallied := by
  refine Tallied.callSender ?_ he
  rw [hnone, List.append_nil]
  exact h

lemma Tallied.upperLayer {σ σ' : Sim T} (h : σ.Tallied) {c : Choice T}
    (he : σ.upperLayer p c = some σ') : σ'.Tallied := by
  unfold Sim.upperLayer at he
  simp only [Option.bind_eq_bind, Option.bind_eq_some_iff, Option.pure_def, Option.some.injEq] at he
  obtain ⟨σ₁, hcall, rfl⟩ := he
  have h₁ : σ₁.Tallied := by
    refine Tallied.callSender ?_ hcall
    rw [SenderSys.accepts, List.flatMap_append, List.flatMap_singleton]
    exact h.generateMsg c.size
  split
  · exact h₁
  · exact h₁

lemma Tallied.callReceiver {σ σ' : Sim T} (h : σ.Tallied) {c : Choice T} {pkt : Packet}
    (hread : ∀ m ∈ σ'.dst.delivered, ∃ r : ReadableMessage, r.toMessage = m)
    (he : σ.callReceiver fresh c pkt = some σ') : σ'.Tallied := by
  unfold Sim.callReceiver at he
  rw [Option.map_eq_some_iff] at he
  obtain ⟨o, -, rfl⟩ := he
  rw [(receiverCalls_frame _ _).2.1] at hread
  have hentered : Tallied { σ with
      dst := σ.dst.absorb o
      stats := o.delivered.foldl Stats.receiverToUpperLayer σ.stats } := by
    unfold Tallied ReceiverSys.absorb
    rw [List.flatMap_append]
    exact h.deliverAll fun m hm => hread m (List.mem_append_right _ hm)
  exact (scanl_inv (I := Tallied) (fun a _ τ hτ => hτ.toLowerLayer _ a.2 a.1) hentered).2

/-- **One round** keeps the statistics in step with the endpoints, as long as the messages that
are delivered can be read. -/
theorem Tallied.step {σ σ' : Sim T} (h : σ.Tallied) {c : Choice T}
    (hread : ∀ m ∈ σ'.dst.delivered, ∃ r : ReadableMessage, r.toMessage = m)
    (he : σ.step p fresh c = some σ') : σ'.Tallied := by
  obtain ⟨e, rest, -, hcase⟩ := step_eq_some he
  have hpop : ∀ timer, Tallied { σ with core := ⟨e.schedTime, rest⟩, senderTimer := timer } :=
    fun _ => h
  cases htype : e.eventType with
  | senderFromUpperLayer =>
    rw [htype] at hcase
    exact (hpop _).upperLayer hcase
  | senderFromLowerLayer pkt =>
    rw [htype] at hcase
    exact (hpop _).callSender_of_accepts rfl hcase
  | senderTimeout =>
    rw [htype] at hcase
    exact (hpop _).callSender_of_accepts rfl hcase
  | receiverFromLowerLayer pkt =>
    rw [htype] at hcase
    exact (hpop _).callReceiver hread hcase

variable [IsOrderedAddMonoid T]

/-- What the receiver has delivered in a run is a beginning of what the sender was handed. -/
lemma delivered_isPrefix (ht : 0 ≤ p.timeout) {σ : Sim T} (h : Run (step p fresh) Sound Init σ) :
    σ.dst.delivered <+: σ.src.accepted.map UpperMessage.toMessage :=
  (Sys.assembled_of_run (Sys.bufferFits_of_bounded (reached_of_run ht h).2)).isPrefix

lemma tallied_of_run (ht : 0 ≤ p.timeout) {σ : Sim T} (h : Run (step p fresh) Sound Init σ) :
    σ.Tallied := by
  refine Run.invariant (I := Tallied) ?_ ?_ h
  · rintro σ ⟨windows, window, rfl⟩
    exact Tally.init
  · intro σ c σ' hrun hσ he hs
    refine hσ.step ?_ he
    intro m hm
    obtain ⟨u, -, rfl⟩ := List.mem_map.mp ((delivered_isPrefix ht (hrun.next he hs)).subset hm)
    exact ⟨u.readable, rfl⟩

omit [LinearOrder T] [AddCommGroup T] [IsOrderedAddMonoid T] in
lemma bytes_accepted (σ : Sim T) :
    (σ.src.accepted.map UpperMessage.toMessage).flatMap Message.bytes =
      σ.src.accepted.flatMap UpperMessage.data := by
  rw [List.flatMap_map]
  exact List.flatMap_congr fun m _ => m.bytes_toMessage

/-- When the main loop finds the event chain empty, the verdict is good. -/
lemma verdict_of_nextEvent_none (ht : 0 ≤ p.timeout) {σ : Sim T}
    (h : Run (step p fresh) Sound Init σ) (hnone : σ.core.nextEvent = none) :
    σ.stats.verdict = true := by
  rw [(tallied_of_run ht h).verdict, delivered_of_nextEvent_none ht h hnone, bytes_accepted]

/-- **A simulation that ends is congratulated.** In every state of every run in which fewer than
`2 ^ 31` characters have been generated, the totals are `int`s, the numbers of bytes generated and
delivered; and when the main loop finds the event chain empty the verdict is good. -/
theorem simulation_congratulated (ht : 0 ≤ p.timeout) {σ : Sim T}
    (h : Run (step p fresh) Sound Init σ)
    (hchars : (σ.src.accepted.flatMap UpperMessage.data).length < 2 ^ 31) :
    σ.stats.totCharsSent = (σ.src.accepted.flatMap UpperMessage.data).length ∧
    (0 ≤ σ.stats.totCharsDelivered ∧ σ.stats.totCharsDelivered ≤ σ.stats.totCharsSent ∧
      σ.stats.totCharsSent < 2 ^ 31) ∧
    (σ.core.nextEvent = none → σ.stats.verdict = true) := by
  have htally := tallied_of_run ht h
  refine ⟨htally.totCharsSent, ?_, verdict_of_nextEvent_none ht h⟩
  have hle := ((delivered_isPrefix ht h).flatMap Message.bytes).length_le
  rw [bytes_accepted] at hle
  rw [htally.totCharsSent, htally.totCharsDelivered]
  omega

/-- Six calm rounds send and acknowledge two characters, and then the chain is empty. -/
lemma exists_calm_end : ∃ σ : Sim ℤ, Run (step ⟨1, 3⟩ fun _ _ => 0) Sound Init σ ∧
    σ.core.nextEvent = none ∧ (σ.src.accepted.flatMap UpperMessage.data).length = 2 := by
  have heval : (calmRounds 6).map (fun σ =>
      (σ.core.nextEvent.isNone, (σ.src.accepted.flatMap UpperMessage.data).length)) =
      some (true, 2) := by decide +kernel
  obtain ⟨σ, hσ, hend⟩ := Option.map_eq_some_iff.mp heval
  rw [Prod.mk.injEq, Option.isNone_iff_eq_none] at hend
  exact ⟨σ, run_calmRounds 6 hσ, hend⟩

/-- After them `main` congratulates. -/
theorem calm_simulation_congratulated : ∃ σ : Sim ℤ, σ.stats.totCharsSent = 2 ∧
    σ.stats.verdict = true := by
  obtain ⟨σ, hrun, hnone, hchars⟩ := exists_calm_end
  obtain ⟨hsent, -, hverdict⟩ := simulation_congratulated (by decide) hrun (by omega)
  rw [hchars] at hsent
  exact ⟨σ, hsent, hverdict hnone⟩

end Sim
end NetLabs.Rdt
