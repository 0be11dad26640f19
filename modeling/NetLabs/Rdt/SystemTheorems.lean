import NetLabs.Rdt.ReceiverOrder
import NetLabs.Rdt.System

/-!
# What holds of the two endpoints and the network together

`Linked` ties the four parts of the system together: what the receiver consumed is a beginning
of what the sender built, what it holds are packets the sender built, every undamaged packet
in flight is one the sender built, and every undamaged ack in flight is older than `expected`.
What the sender does enters only through `SenderSys.step_sent`, and what the receiver does
only through `Refines.step`. From `Linked` and the invariants of the two endpoints follow the
agreement of the windows (`windows_agree`) and the delivery of the messages in order
(`in_order_delivery`).
-/

namespace NetLabs.Rdt

open NetLabs.Lib NetLabs.Lib.Bytes UpperMessage

namespace Sys

variable {fresh : ℤ → ℕ → Byte}

/-- Fewer than `2 ^ 31 - 10` packets are numbered. -/
def FewPackets (_ : Sys) (_ : SysEvent) (σ' : Sys) : Prop := σ'.src.snd.pktSeq < 2 ^ 31 - 10

/-- So they are, and `msg_buffer_num` never exceeds `MAX_BUFFER_SIZE`. -/
def Bounded (σ : Sys) (e : SysEvent) (σ' : Sys) : Prop :=
  FewPackets σ e σ' ∧ ∀ msg junk, e = .fromUpperLayer msg junk →
    σ.src.snd.msgBufferNum + 1 ≤ maxBufferSize

/-- `msg_buffer_num` never exceeds `MAX_BUFFER_SIZE`, whatever the number of packets. -/
def BufferFits (σ : Sys) (e : SysEvent) (_ : Sys) : Prop :=
  ∀ msg junk, e = .fromUpperLayer msg junk → σ.src.snd.msgBufferNum + 1 ≤ maxBufferSize

lemma bufferFits_of_bounded {σ : Sys} (h : Run (step fresh) Bounded Init σ) :
    Run (step fresh) BufferFits Init σ :=
  h.mono fun _ _ _ _ hok => hok.2

/-! ## The sender in the system -/

/-- The sender of a run of the system is in a run of its own. -/
lemma run_src {ok : Sys → SysEvent → Sys → Prop}
    {okS : SenderSys → SenderEvent → SenderSys → Prop}
    (hok : ∀ σ e σ' e' src, ok σ e σ' →
      (∀ msg junk, e' = .fromUpperLayer msg junk → e = .fromUpperLayer msg junk) →
      (∀ junk, e' = .timeout junk → σ.src.timer = true) → okS σ.src e' src)
    {σ : Sys} (h : Run (step fresh) ok Init σ) : Run SenderSys.step okS SenderSys.Init σ.src := by
  refine Run.invariant (I := fun σ : Sys => Run SenderSys.step okS SenderSys.Init σ.src) ?_ ?_ h
  · rintro σ ⟨windows, window, rfl⟩
    exact .start ⟨windows, rfl⟩
  · intro σ e σ' _ hsrc he hallow
    rcases step_cases he with ⟨e', src, new, acks, hstep, -, rfl, -, hup, -, htime⟩ |
      ⟨_, _, _, _, -, -, -, -, rfl⟩ | ⟨_, _, rfl, -⟩
    · exact hsrc.next hstep (hok σ e _ e' src hallow hup htime)
    · exact hsrc
    · exact hsrc

lemma run_src_expiresSet {ok : Sys → SysEvent → Sys → Prop} {σ : Sys}
    (h : Run (step fresh) ok Init σ) :
    Run SenderSys.step SenderSys.ExpiresSet SenderSys.Init σ.src :=
  run_src (fun _ _ _ _ _ _ _ htime => htime) h

lemma run_src_orderly {σ : Sys} (h : Run (step fresh) BufferFits Init σ) :
    Run SenderSys.step SenderSys.Orderly SenderSys.Init σ.src :=
  run_src (fun _ _ _ _ _ hallow hup htime =>
    ⟨htime, fun msg junk heq => hallow msg junk (hup msg junk heq)⟩) h

lemma few_packets {ok : Sys → SysEvent → Sys → Prop}
    (hok : ∀ σ e σ', ok σ e σ' → FewPackets σ e σ') {σ : Sys}
    (h : Run (step fresh) ok Init σ) : σ.src.snd.pktSeq < 2 ^ 31 - 10 := by
  cases h with
  | start hs =>
    obtain ⟨windows, window, rfl⟩ := hs
    show (0 : ℤ) < _
    norm_num
  | next _ _ hallow => exact hok _ _ _ hallow

/-! ## The invariant -/

/-- How the endpoints and the packets in flight belong together, where `L` is the reorder
buffer that the receiver refines. -/
structure Linked (fresh : ℤ → ℕ → Byte) (σ : Sys) (L : ReorderBuffer.Log Packet) : Prop where
  refines : ReceiverSys.Refines fresh σ.dst L
  consumed : σ.dst.consumed <+: σ.src.built
  holds : L.buf.HoldsOf σ.src.built
  data_mem : ∀ p ∈ σ.data, rdtVerifyChecksum p = true → p ∈ σ.src.built
  ack_range : ∀ p ∈ σ.acks, rdtVerifyChecksum p = true →
    -1 ≤ p.seq ∧ p.seq < σ.dst.rcv.expected
  ack_le : σ.src.snd.ackExpected ≤ σ.dst.rcv.expected
  sorted : (σ.dst.acks.map Packet.seq).Pairwise (· ≤ ·)
  acked : ∀ p ∈ σ.dst.acks, p.seq < σ.dst.rcv.expected

/-- A log of acks stays sorted when a newer one is added. -/
lemma sorted_push {acks : List Packet} {a : Packet}
    (h : (acks.map Packet.seq).Pairwise (· ≤ ·)) (ha : ∀ p ∈ acks, p.seq ≤ a.seq) :
    ((acks ++ [a]).map Packet.seq).Pairwise (· ≤ ·) := by
  rw [List.map_append, List.pairwise_append]
  refine ⟨h, List.pairwise_singleton _ _, fun x hx y hy => ?_⟩
  obtain ⟨p, hp, rfl⟩ := List.mem_map.mp hx
  obtain rfl : y = a.seq := by simpa using hy
  exact ha p hp

namespace Linked

/-- The receiver is fed from the packets the sender built. -/
lemma fed {σ : Sys} {L : ReorderBuffer.Log Packet} (h : Linked fresh σ L) :
    ReceiverSys.FedFrom fresh σ.src.built σ.dst L :=
  ⟨h.refines, h.consumed, h.holds⟩

lemma expected_eq {σ : Sys} {L : ReorderBuffer.Log Packet} (h : Linked fresh σ L) :
    σ.dst.rcv.expected = σ.dst.consumed.length :=
  h.fed.expected_eq

/-- The receiver is never ahead of the sender. -/
lemma expected_le {σ : Sys} {L : ReorderBuffer.Log Packet} (h : Linked fresh σ L)
    (hw : SenderSys.Windowed σ.src) : σ.dst.rcv.expected ≤ σ.src.snd.pktSeq := by
  rw [h.expected_eq, hw.length_eq]
  exact_mod_cast h.consumed.length_le

/-- The sender is at most a window ahead of the receiver. -/
lemma pktSeq_le {σ : Sys} {L : ReorderBuffer.Log Packet} (h : Linked fresh σ L)
    (hr : SenderSys.Resting σ.src) : σ.src.snd.pktSeq ≤ σ.dst.rcv.expected + 10 := by
  have h₁ := hr.1.window_eq
  have h₂ := hr.1.window_le
  have h₃ := h.ack_le
  omega

/-- An undamaged data packet in flight is one the sender built, and its number is its place,
unless that is no `int` and the number has become negative. -/
lemma number {σ : Sys} {L : ReorderBuffer.Log Packet} (h : Linked fresh σ L)
    (hr : SenderSys.Resting σ.src) (hw : SenderSys.Windowed σ.src) {p : Packet}
    (hp : p ∈ σ.data) (hver : rdtVerifyChecksum p = true) :
    ∃ k : ℕ, k < σ.src.built.length ∧ σ.src.built[k]? = some p ∧ (p.seq = k ∨ p.seq < 0) := by
  have hlen := hw.length_eq
  obtain ⟨k, hk, hpk⟩ := List.mem_iff_getElem.mp (h.data_mem p hp hver)
  have hget : σ.src.built[k]? = some p := by rw [List.getElem?_eq_getElem hk, hpk]
  refine ⟨k, hk, hget, ?_⟩
  rcases lt_or_ge (k : ℤ) (2 ^ 31) with hlt | hge
  · exact Or.inl (hw.numbered.seq_eq hget hlt)
  -- the receiver has not gone past the last `int`, so `k` is just behind it
  · right
    have h₁ := h.fed.expected_le
    have h₂ := h.pktSeq_le hr
    rw [Packet.seq_eq_toInt, (hw.numbered k p hget).1, BitVec.toInt_ofInt, Int.bmod]
    omega

/-- With few packets, the number is always the place. -/
lemma place {σ : Sys} {L : ReorderBuffer.Log Packet} (h : Linked fresh σ L)
    (hw : SenderSys.Windowed σ.src) (hfew : σ.src.snd.pktSeq ≤ 2 ^ 31) {p : Packet}
    (hp : p ∈ σ.data) (hver : rdtVerifyChecksum p = true) :
    ∃ k : ℕ, k < σ.src.built.length ∧ σ.src.built[k]? = some p ∧ p.seq = k := by
  have hlen := hw.length_eq
  obtain ⟨k, hk, hpk⟩ := List.mem_iff_getElem.mp (h.data_mem p hp hver)
  have hget : σ.src.built[k]? = some p := by rw [List.getElem?_eq_getElem hk, hpk]
  exact ⟨k, hk, hget, hw.numbered.seq_eq hget (by omega)⟩

lemma init {σ : Sys} (h : Init σ) : Linked fresh σ ⟨.empty, [], []⟩ := by
  obtain ⟨windows, window, rfl⟩ := h
  refine ⟨ReceiverSys.Refines.init fresh window, List.nil_prefix, .empty _, ?_, ?_, le_refl _, ?_, ?_⟩
  · intro p hp; simp at hp
  · intro p hp; simp at hp
  · exact List.Pairwise.nil
  · intro p hp; simp [ReceiverSys.init] at hp

/-- A call into the sender. -/
lemma sender {σ : Sys} {L : ReorderBuffer.Log Packet} (h : Linked fresh σ L)
    (hr : SenderSys.Resting σ.src) (hw : SenderSys.Windowed σ.src) {e : SenderEvent}
    {src : SenderSys} {new : List Packet} {acks : Multiset Packet}
    (he : σ.src.step e = some src) (hsent : src.sent = σ.src.sent ++ new)
    (hacks : ∀ p ∈ acks, p ∈ σ.acks)
    (hpkt : ∀ pkt junk, e = .fromLowerLayer pkt junk → pkt ∈ σ.acks) :
    Linked fresh { σ with src := src, data := σ.data + new, acks := acks } L := by
  obtain ⟨n, more, hbuilt, -, -, hsent', -⟩ := SenderSys.step_sent hr hw he
  have hnew : new = src.built.drop n := List.append_cancel_left (hsent.symm.trans hsent')
  have hkeep : ∀ p ∈ σ.src.built, p ∈ src.built := by
    intro p hp; rw [hbuilt]; exact List.mem_append_left _ hp
  refine ⟨h.refines, ?_, ?_, ?_, fun p hp => h.ack_range p (hacks p hp), ?_, h.sorted, h.acked⟩
  · show σ.dst.consumed <+: src.built
    rw [hbuilt]
    exact h.consumed.trans (List.prefix_append _ _)
  · show L.buf.HoldsOf src.built
    rw [hbuilt]
    exact h.holds.append more
  · intro p hp hver
    rcases Multiset.mem_add.mp hp with hp | hp
    · exact hkeep p (h.data_mem p hp hver)
    · rw [hnew] at hp
      exact List.mem_of_mem_drop (Multiset.mem_coe.mp hp)
  · -- an ack that moves the window was in flight, so it is older than `expected`
    show src.snd.ackExpected ≤ σ.dst.rcv.expected
    rcases SenderSys.step_ackExpected hr he with hsame | ⟨pkt, junk, heq, hver, hmoved⟩
    · rw [hsame]; exact h.ack_le
    · have := (h.ack_range pkt (hpkt pkt junk heq) hver).2
      omega

/-- What the network does by itself. -/
lemma network {σ : Sys} {L : ReorderBuffer.Log Packet} (h : Linked fresh σ L)
    {data acks : Multiset Packet}
    (hdata : ∀ p ∈ data, rdtVerifyChecksum p = true → p ∈ σ.data)
    (hacks : ∀ p ∈ acks, rdtVerifyChecksum p = true → p ∈ σ.acks) :
    Linked fresh { σ with data := data, acks := acks } L :=
  ⟨h.refines, h.consumed, h.holds, fun p hp hver => h.data_mem p (hdata p hp hver) hver,
    fun p hp hver => h.ack_range p (hacks p hp hver) hver, h.ack_le, h.sorted, h.acked⟩

/-- A damaged packet reaches the receiver. -/
lemma receive_damaged {σ : Sys} {L : ReorderBuffer.Log Packet} (h : Linked fresh σ L)
    {pkt junk : Packet} (hver : rdtVerifyChecksum pkt = false) {dst : ReceiverSys}
    {new : List Packet} (he : σ.dst.step fresh (pkt, junk) = some dst)
    (hacks : dst.acks = σ.dst.acks ++ new) :
    Linked fresh { σ with dst := dst, data := σ.data.erase pkt, acks := σ.acks + new } L := by
  have hsame : σ.dst.step fresh (pkt, junk) = some σ.dst := by
    simp [ReceiverSys.step, Receiver.fromLowerLayer, hver, ReceiverSys.absorb]
  obtain rfl : σ.dst = dst := Option.some.inj (hsame.symm.trans he)
  obtain rfl : new = [] := by simpa using hacks
  exact h.network (fun p hp _ => Multiset.mem_of_mem_erase hp) (fun p hp _ => by simpa using hp)

/-- **An undamaged packet reaches the receiver.** It is answered with one ack, and if its number
is an `int` below the end of the window it is consumed or held afterwards. -/
theorem receive {σ : Sys} {L : ReorderBuffer.Log Packet} (h : Linked fresh σ L)
    (hr : SenderSys.Resting σ.src) (hw : SenderSys.Windowed σ.src) {pkt : Packet}
    (hmem : pkt ∈ σ.data) (hver : rdtVerifyChecksum pkt = true) (junk : Packet) :
    ∃ dst L', σ.dst.step fresh (pkt, junk) = some dst ∧
      dst.acks = σ.dst.acks ++ [receiverAck junk (dst.rcv.expected - 1)] ∧
      (receiverAck junk (dst.rcv.expected - 1)).seq = dst.rcv.expected - 1 ∧
      Linked fresh { σ with
        dst := dst
        data := σ.data.erase pkt
        acks := σ.acks + [receiverAck junk (dst.rcv.expected - 1)] } L' ∧
      (0 ≤ pkt.seq → pkt.seq < σ.dst.rcv.expected + 10 → pkt ∈ dst.consumed ∨
        (dst.rcv.validChecks.get pkt.seq = true ∧ dst.rcv.window.get pkt.seq = pkt)) := by
  obtain ⟨k, -, hget, hseq⟩ := h.number hr hw hmem hver
  obtain ⟨dst, hstep, hfed, hacks, hackseq, hle, hkept⟩ :=
    h.fed.step (a := (pkt, junk)) hget hseq hver
  dsimp only at hacks hackseq hkept
  have hnonneg : 0 ≤ dst.rcv.expected := by rw [hfed.expected_eq]; omega
  refine ⟨dst, _, hstep, hacks, hackseq,
    ⟨hfed.refines, hfed.consumed, hfed.holds, ?_, ?_, ?_, ?_, ?_⟩, hkept⟩
  · exact fun p hp hp' => h.data_mem p (Multiset.mem_of_mem_erase hp) hp'
  · intro p hp hp'
    show -1 ≤ p.seq ∧ p.seq < dst.rcv.expected
    rcases Multiset.mem_add.mp hp with hp | hp
    · have := h.ack_range p hp hp'
      omega
    · obtain rfl : p = receiverAck junk (dst.rcv.expected - 1) := by simpa using hp
      omega
  · exact le_trans h.ack_le hle
  · show (dst.acks.map Packet.seq).Pairwise (· ≤ ·)
    rw [hacks]
    refine sorted_push h.sorted fun p hp => ?_
    show p.seq ≤ (receiverAck junk (dst.rcv.expected - 1)).seq
    have := h.acked p hp
    omega
  · intro p hp
    show p.seq < dst.rcv.expected
    change p ∈ dst.acks at hp
    rw [hacks] at hp
    rcases List.mem_append.mp hp with hp | hp
    · exact lt_of_lt_of_le (h.acked p hp) hle
    · obtain rfl : p = receiverAck junk (dst.rcv.expected - 1) := by simpa using hp
      omega

end Linked

/-- The system is linked in every state of every run. -/
theorem linked_of_run {ok : Sys → SysEvent → Sys → Prop} {σ : Sys}
    (h : Run (step fresh) ok Init σ) : ∃ L, Linked fresh σ L := by
  refine Run.invariant (I := fun σ => ∃ L, Linked fresh σ L)
    (fun σ hσ => ⟨_, Linked.init hσ⟩) ?_ h
  rintro σ e σ' hrun ⟨L, hL⟩ he -
  obtain ⟨hr, hw⟩ := SenderSys.resting_windowed (run_src_expiresSet hrun)
  rcases step_cases he with ⟨e', src, new, acks, hstep, hsent, rfl, hacks, -, hpkt, -⟩ |
    ⟨pkt, junk, dst, new, rfl, hmem, hstep, hacks, rfl⟩ | ⟨data, acks, rfl, hdata, hacks⟩
  · exact ⟨L, hL.sender hr hw hstep hsent hacks hpkt⟩
  · cases hver : rdtVerifyChecksum pkt with
    | false => exact ⟨L, hL.receive_damaged hver hstep hacks⟩
    | true =>
      obtain ⟨dst', L', hstep', hacks', -, hL', -⟩ :=
        hL.receive hr hw hmem hver junk
      obtain rfl : dst' = dst := Option.some.inj (hstep'.symm.trans hstep)
      obtain rfl := List.append_cancel_left (hacks'.symm.trans hacks)
      exact ⟨L', hL'⟩
  · exact ⟨L, hL.network hdata hacks⟩

/-! ## The windows -/

/-- **The two windows always agree.** In every state of every run with fewer than `2 ^ 31 - 10`
packets: `ack_expected ≤ expected ≤ pkt_seq ≤ ack_expected + 10`; undamaged acks in flight lie
in `[-1, expected)` and undamaged data packets in `[0, pkt_seq)`. So a data packet that reaches
the receiver undamaged is one it consumed already, or lies in its window; it is consumed or
held afterwards and answered with exactly one ack, the new `expected - 1`, and the acks never
decrease. More than `MAX_BUFFER_SIZE` messages may be waiting in these runs, in which case a copy of
the receiver can leave `cur_msg->data`; what is said here is about the counters and the acks, which
the copies do not touch. -/
theorem windows_agree {σ : Sys} (h : Run (step fresh) FewPackets Init σ) :
    (σ.src.snd.ackExpected ≤ σ.dst.rcv.expected ∧ σ.dst.rcv.expected ≤ σ.src.snd.pktSeq ∧
      σ.src.snd.pktSeq ≤ σ.src.snd.ackExpected + 10) ∧
    (∀ a ∈ σ.acks, rdtVerifyChecksum a = true → -1 ≤ a.seq ∧ a.seq < σ.dst.rcv.expected) ∧
    (∀ p ∈ σ.data, rdtVerifyChecksum p = true → 0 ≤ p.seq ∧ p.seq < σ.src.snd.pktSeq ∧
      (p.seq < σ.dst.rcv.expected ∧ p ∈ σ.dst.consumed ∨
        σ.dst.rcv.expected ≤ p.seq ∧ p.seq < σ.dst.rcv.expected + windowsSize)) ∧
    (∀ p ∈ σ.data, rdtVerifyChecksum p = true → ∀ junk, ∃ σ',
      σ.step fresh (.deliverData p junk) = some σ' ∧
      (p ∈ σ'.dst.consumed ∨ (σ'.dst.rcv.validChecks.get p.seq = true ∧
        σ'.dst.rcv.window.get p.seq = p)) ∧
      ∃ ack, σ'.dst.acks = σ.dst.acks ++ [ack] ∧ ack.seq = σ'.dst.rcv.expected - 1) ∧
    (σ.dst.acks.map Packet.seq).Pairwise (· ≤ ·) := by
  obtain ⟨L, hL⟩ := linked_of_run h
  obtain ⟨hr, hw⟩ := SenderSys.resting_windowed (run_src_expiresSet h)
  have hfew : σ.src.snd.pktSeq ≤ 2 ^ 31 := by
    have := few_packets (fun _ _ _ hok => hok) h
    omega
  have hle := hL.ack_le
  have hexp := hL.expected_le hw
  have hwin : σ.src.snd.pktSeq ≤ σ.src.snd.ackExpected + 10 := by
    have h₁ := hr.1.window_eq
    have h₂ := hr.1.window_le
    omega
  have hlen := hw.length_eq
  refine ⟨⟨hle, hexp, hwin⟩, hL.ack_range, fun p hp hver => ?_, fun p hp hver junk => ?_, hL.sorted⟩
  · obtain ⟨k, hk, hget, hseq⟩ := hL.place hw hfew hp hver
    refine ⟨by omega, by omega, ?_⟩
    rcases lt_or_ge p.seq σ.dst.rcv.expected with hlt | hge
    · left
      refine ⟨hlt, ?_⟩
      have hcount := hL.expected_eq
      rw [List.prefix_iff_eq_take.mp hL.consumed]
      exact List.mem_of_getElem? (i := k) (by rw [List.getElem?_take, if_pos (by omega), hget])
    · exact Or.inr ⟨hge, by show p.seq < σ.dst.rcv.expected + 10; omega⟩
  · obtain ⟨k, hk, -, hseq⟩ := hL.place hw hfew hp hver
    obtain ⟨dst, L', hstep, hacks, hack, -, hkept⟩ := hL.receive hr hw hp hver junk
    obtain ⟨new, -, hσ'⟩ := step_deliverData (a := (p, junk)) hp hstep
    exact ⟨_, hσ', hkept (by omega) (by omega), _, hacks, hack⟩

/-! ## A rough history -/

/-- `paragraph` is on its way, and `word` waits: the first packet is lost, the last one comes first,
the other one comes once and is altered once; and the timer expires, so that `word` follows. -/
def roughMoves : List (Sys → SysEvent) :=
  [fun _ => .fromUpperLayer SenderSys.paragraph .zero,
    fun _ => .fromUpperLayer SenderSys.word .zero,
    fun σ => .onData (.lose (σ.src.built.getD 0 .zero)),
    fun σ => .deliverData (σ.src.built.getD 2 .zero) .zero,
    fun σ => .onData (.duplicate (σ.src.built.getD 1 .zero)),
    fun σ => .deliverData (σ.src.built.getD 1 .zero) .zero,
    fun σ => .onData (.alter (σ.src.built.getD 1 .zero) .zero),
    fun _ => .timeout .zero]

/-- The numbers stay small, and the message is not empty and finds room. -/
def boundedTest (σ : Sys) (e : SysEvent) (σ' : Sys) : Bool :=
  σ'.src.snd.pktSeq < 2 ^ 31 - 10 &&
    match e with
    | .fromUpperLayer msg _ => σ.src.snd.msgBufferNum + 1 ≤ maxBufferSize ∧ 1 ≤ msg.data.length
    | _ => true

lemma bounded_of_test {σ σ' : Sys} {e : SysEvent} (h : boundedTest σ e σ' = true) :
    Bounded σ e σ' := by
  unfold boundedTest at h
  rw [Bool.and_eq_true, decide_eq_true_eq] at h
  refine ⟨h.1, ?_⟩
  rintro msg junk rfl
  exact (of_decide_eq_true h.2).1

/-- The state they lead to: two packets came early, and the first one is in flight again. -/
structure Rough (σ : Sys) : Prop where
  timer : σ.src.timer = true
  accepted : σ.src.accepted = [SenderSys.paragraph, SenderSys.word]
  ackExpected : σ.src.snd.ackExpected = 0
  pktSeq : σ.src.snd.pktSeq = 4
  expected : σ.dst.rcv.expected = 0
  early : σ.dst.rcv.validChecks.get 1 = true
  first_mem : σ.src.built.getD 0 .zero ∈ σ.data
  first_step : (σ.step (fun _ _ => 0) (.deliverData (σ.src.built.getD 0 .zero) .zero)).map
    (fun σ' => (σ'.src.snd.pktSeq, σ'.dst.delivered.length)) = some (4, 1)

instance (σ : Sys) : Decidable (Rough σ) :=
  decidable_of_iff (_ ∧ _ ∧ _ ∧ _ ∧ _ ∧ _ ∧ _ ∧ _)
    ⟨fun ⟨h₁, h₂, h₃, h₄, h₅, h₆, h₇, h₈⟩ => ⟨h₁, h₂, h₃, h₄, h₅, h₆, h₇, h₈⟩,
      fun ⟨h₁, h₂, h₃, h₄, h₅, h₆, h₇, h₈⟩ => ⟨h₁, h₂, h₃, h₄, h₅, h₆, h₇, h₈⟩⟩

lemma exists_rough {ok : Sys → SysEvent → Sys → Prop}
    (hok : ∀ σ e σ', boundedTest σ e σ' = true → ok σ e σ') :
    ∃ σ, Run (step fun _ _ => 0) ok Init σ ∧ Rough σ := by
  have heval : (play (step fun _ _ => 0) boundedTest
      ⟨.init (Ring.fill _ .zero), .init (Ring.fill _ .zero), 0, 0⟩ roughMoves).map (fun σ =>
        decide (Rough σ)) = some true := by
    decide +kernel
  obtain ⟨σ, hσ, hrough⟩ := Option.map_eq_some_iff.mp heval
  have hrun : Run (step fun _ _ => 0) ok Init σ :=
    Run.play (fun σ e σ' (_ : True) => hok σ e σ') (fun _ _ _ => trivial) (.start ⟨_, _, rfl⟩) hσ
  exact ⟨σ, hrun, of_decide_eq_true hrough⟩

/-- The first packet, as every packet in the run, is numbered and has the right checksum. -/
lemma Rough.first_spec {ok : Sys → SysEvent → Sys → Prop} {σ : Sys} (h : Rough σ)
    (hrun : Run (step fun _ _ => 0) ok Init σ) : (σ.src.built.getD 0 .zero).seq = 0 ∧
    rdtVerifyChecksum (σ.src.built.getD 0 .zero) = true := by
  obtain ⟨-, hw⟩ := SenderSys.resting_windowed (run_src_expiresSet hrun)
  have hlt : ((0 : ℕ) : ℤ) < σ.src.snd.pktSeq := by rw [h.pktSeq]; decide
  exact (hw.built_spec hlt (by decide)).2

/-- The first packet is in flight again, and the receiver will take it. -/
theorem first_packet_taken : ∃ σ, Rough σ ∧ ∃ σ' ack,
    σ.step (fun _ _ => 0) (.deliverData (σ.src.built.getD 0 .zero) .zero) = some σ' ∧
    σ'.dst.acks = σ.dst.acks ++ [ack] ∧ ack.seq = σ'.dst.rcv.expected - 1 := by
  obtain ⟨σ, hrun, hσ⟩ := exists_rough fun _ _ _ h => (bounded_of_test h).1
  obtain ⟨-, -, -, htaken, -⟩ := windows_agree hrun
  obtain ⟨σ', hstep, -, ack, hacks, hack⟩ := htaken _ hσ.first_mem (hσ.first_spec hrun).2 .zero
  exact ⟨σ, hσ, σ', ack, hstep, hacks, hack⟩

/-! ## The messages -/

/-- What the receiver has reassembled, in a state of a run in which the buffer is never
overfull. -/
lemma assembled_of_run {σ : Sys} (h : Run (step fresh) BufferFits Init σ) :
    Assembled σ.src.accepted σ.dst.consumed σ.dst.rcv.toAssembly σ.dst.delivered := by
  obtain ⟨L, hL⟩ := linked_of_run h
  have hs := SenderSys.stream_of_orderly (run_src_orderly h)
  exact hL.fed.assembled hs.sizes (SenderSys.payload_isPrefix hs)

/-- **In-order, exactly-once, error-free delivery.** In every state of every run, the messages
handed to the upper layer of the receiver are a beginning of those the sender was handed. -/
theorem in_order_delivery {σ : Sys} (h : Run (step fresh) Bounded Init σ) :
    σ.dst.delivered <+: σ.src.accepted.map toMessage :=
  (assembled_of_run (bufferFits_of_bounded h)).isPrefix

/-- When the first packet has come after all, `paragraph` is handed on, and `word` not yet. -/
theorem paragraph_delivered : ∃ σ, Run (step fun _ _ => 0) Bounded Init σ ∧
    σ.dst.delivered.length = 1 ∧ σ.dst.delivered <+: σ.src.accepted.map toMessage := by
  obtain ⟨σ, hrun, hσ⟩ := exists_rough fun _ _ _ h => bounded_of_test h
  obtain ⟨σ', hstep, heq⟩ := Option.map_eq_some_iff.mp hσ.first_step
  rw [Prod.mk.injEq] at heq
  have hrun' : Run (step fun _ _ => 0) Bounded Init σ' :=
    hrun.next hstep ⟨by show σ'.src.snd.pktSeq < _; rw [heq.1]; norm_num, by simp⟩
  exact ⟨σ', hrun', heq.2, in_order_delivery hrun'⟩

/-- A sender whose timer is off has nothing outstanding and nothing waiting, so the receiver has
everything. -/
lemma delivered_of_timer_off {σ : Sys} (h : Run (step fresh) Bounded Init σ)
    (hoff : σ.src.timer = false) : σ.dst.delivered = σ.src.accepted.map toMessage := by
  obtain ⟨L, hL⟩ := linked_of_run h
  have hfits := bufferFits_of_bounded h
  have hsrc := run_src_orderly hfits
  obtain ⟨⟨hc, -⟩, ht⟩ := SenderSys.timerRight_of_orderly hsrc
  obtain ⟨-, hw⟩ := SenderSys.resting_windowed hsrc
  -- timer off: nothing outstanding and nothing waiting
  have hout := mt ht.timer_iff.mpr (by rw [hoff]; simp)
  have hwait := mt ht.waiting (by rw [hoff]; simp)
  have hcur := hc.cur_le
  -- everything built has been consumed
  have hall : σ.dst.consumed = σ.src.built := by
    apply hL.consumed.eq_of_length
    have hle := hL.ack_le
    have h₁ := hL.expected_le hw
    have h₂ := hL.expected_eq
    have h₃ := hw.length_eq
    omega
  have hpay := SenderSys.payload_eq (SenderSys.stream_of_orderly hsrc) (by omega)
  exact ((assembled_of_run hfits).complete (by rw [hall, hpay])).1

end Sys
end NetLabs.Rdt
