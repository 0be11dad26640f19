import NetLabs.Rdt.SystemTheorems
import NetLabs.Rdt.SenderBuffer

/-!
# The copies of the receiver

The loop of `Receiver_FromLowerLayer` trusts the packets it consumes: neither the payload size
nor the message size is compared with anything before a `memcpy`. `InBounds` is what makes one
round harmless. It follows from the place of the packet in the stream of segments
(`Assembled.inBounds`), and `Along` keeps that place through the rounds of one call, which
consume the packets that were stored early as well as the one that arrived.
-/

namespace NetLabs.Rdt

open NetLabs.Lib NetLabs.Lib.Bytes NetLabs.Lib.Chunks UpperMessage

/-! ## One round -/

/-- A `memcpy` from a packet into `cur_msg->data`: the offset in the packet, the offset in the
block, and the number of bytes, a `size_t`. -/
structure Memcpy where
  source : ℕ
  target : ℤ
  count : ℕ

namespace Assembly

/-- The `memcpy` of a round. -/
def memcpy (pkt : Packet) (a : Assembly) : Memcpy :=
  if a.cursor = 0 then ⟨headerSize + 4, 0, sizeT (pkt.payloadSize - 4)⟩
  else ⟨headerSize, a.cursor, sizeT pkt.payloadSize⟩

/-- The block it writes to: a new one of the size just read, or the current one. -/
def block (fresh : ℕ → Byte) (pkt : Packet) (a : Assembly) : List Byte :=
  if a.cursor = 0 then (List.range (readInt (slice pkt.data headerSize 4)).toNat).map fresh
  else a.curMsg.data

/-- The copy of the model is this `memcpy`. -/
lemma data_copy (fresh : ℕ → Byte) (pkt : Packet) (a : Assembly) :
    (a.copy fresh pkt).curMsg.data = overwrite (a.block fresh pkt) (a.memcpy pkt).target.toNat
      (slice pkt.data (a.memcpy pkt).source (a.memcpy pkt).count) := by
  unfold copy block memcpy
  split
  · rfl
  · rfl

/-- A round that stays inside the packet and inside the message. -/
structure InBounds (fresh : ℕ → Byte) (pkt : Packet) (a : Assembly) : Prop where
  first : a.cursor = 0 → 5 ≤ pkt.payloadSize ∧ pkt.payloadSize ≤ 119 ∧
    pkt.payloadSize - 4 ≤ readInt (slice pkt.data headerSize 4) ∧
    (sizeT (pkt.payloadSize - 4) : ℤ) = pkt.payloadSize - 4
  later : a.cursor ≠ 0 → 1 ≤ pkt.payloadSize ∧ pkt.payloadSize ≤ 119 ∧
    a.cursor + pkt.payloadSize ≤ a.curMsg.size
  read : (a.memcpy pkt).source + (a.memcpy pkt).count ≤ pktSize
  write : 0 ≤ (a.memcpy pkt).target ∧
    (a.memcpy pkt).target + (a.memcpy pkt).count ≤ (a.block fresh pkt).length
  copied : (a.copy fresh pkt).curMsg.data = overwrite (a.block fresh pkt)
    (a.memcpy pkt).target.toNat (slice pkt.data (a.memcpy pkt).source (a.memcpy pkt).count)
  cursor_nonneg : 0 ≤ (a.consume fresh pkt).1.cursor
  cursor_le : (a.consume fresh pkt).1.cursor ≤ (a.consume fresh pkt).1.curMsg.size
  cursor_eq_zero : (a.consume fresh pkt).1.cursor = 0 ↔
    (a.copy fresh pkt).cursor = (a.copy fresh pkt).curMsg.size

/-- The message is complete exactly when the cursor has reached its size. -/
lemma cursor_consume {fresh : ℕ → Byte} {a : Assembly} {p : Packet}
    (hpos : 0 < (a.copy fresh p).cursor)
    (hle : (a.copy fresh p).cursor ≤ (a.copy fresh p).curMsg.size) :
    0 ≤ (a.consume fresh p).1.cursor ∧
    (a.consume fresh p).1.cursor ≤ (a.consume fresh p).1.curMsg.size ∧
    ((a.consume fresh p).1.cursor = 0 ↔
      (a.copy fresh p).cursor = (a.copy fresh p).curMsg.size) := by
  unfold consume deliver
  rcases eq_or_ne (a.copy fresh p).curMsg.size (a.copy fresh p).cursor with heq | hne
  · rw [if_pos heq]
    dsimp only
    omega
  · rw [if_neg hne]
    dsimp only
    omega

end Assembly

/-- **A packet that goes on along the segments of messages that are not empty stays in
bounds.** -/
theorem Assembled.inBounds {A : List UpperMessage} {C : List Packet} {a : Assembly}
    {D : List Message} (h : Assembled A C a D) (hA : ∀ m ∈ A, 1 ≤ m.data.length)
    (fresh : ℕ → Byte) {p : Packet} (hsize : p.payloadSize = p.payload.length)
    (hpre : (C ++ [p]).map Packet.payload <+: A.flatMap segment) : a.InBounds fresh p := by
  obtain ⟨j, i, m, -, -, -, hm, hlt, hp, h0, hpos, hcopy⟩ := h.copy fresh hsize hpre
  have hdata := hA m (List.mem_of_getElem? hm)
  have hint := m.length_lt
  have hlen : p.payload.length = min 119 (m.data.length + 4 - 119 * i) := by
    rw [hp, chunk, length_slice, length_encoded]
  rw [length_encoded] at hlt
  have hcur := hcopy.cursor_eq
  have hsz := hcopy.size_eq
  have hend := Assembly.cursor_consume (show 0 < (a.copy fresh p).cursor by omega)
    (show (a.copy fresh p).cursor ≤ (a.copy fresh p).curMsg.size by omega)
  rcases Nat.eq_zero_or_pos i with rfl | hi
  · have hzero := h0 rfl
    have hread : readInt (slice p.data headerSize 4) = m.data.length := by
      unfold Assembly.copy at hsz
      rw [if_pos hzero] at hsz
      exact hsz
    have hcount : sizeT (p.payloadSize - 4) = p.payload.length - 4 := by
      rw [hsize, show (p.payload.length : ℤ) - 4 = ((p.payload.length - 4 : ℕ) : ℤ) by omega]
      exact Assembly.sizeT_of_nonneg (by omega)
    refine ⟨fun _ => ?_, fun hne => absurd hzero hne, ?_, ?_, Assembly.data_copy fresh p a, hend.1,
      hend.2.1,
      hend.2.2⟩
    · rw [hread, hcount]
      omega
    · simp only [Assembly.memcpy, if_pos hzero, hcount, headerSize, pktSize]
      omega
    · simp only [Assembly.memcpy, Assembly.block, if_pos hzero, hcount, hread, List.length_map,
        List.length_range]
      omega
  · have hpart := hpos hi
    have hcursor := hpart.cursor_eq
    have hmsg := hpart.size_eq
    have hne : a.cursor ≠ 0 := by omega
    have hcount : sizeT p.payloadSize = p.payload.length := by
      rw [hsize]
      exact Assembly.sizeT_of_nonneg (by omega)
    refine ⟨fun hzero => absurd hzero hne, fun _ => ?_, ?_, ?_, Assembly.data_copy fresh p a, hend.1,
      hend.2.1, hend.2.2⟩
    · omega
    · simp only [Assembly.memcpy, if_neg hne, hcount, headerSize, pktSize]
      omega
    · simp only [Assembly.memcpy, Assembly.block, if_neg hne, hcount, hpart.length_eq]
      omega

/-! ## The rounds of one call -/

namespace Receiver

/-- The state in which `Receiver_FromLowerLayer` enters its loop, if it does. -/
def entersConsume (pkt : Packet) (r : Receiver) : Option Consume :=
  if rdtVerifyChecksum pkt = true ∧ pkt.seq = r.expected then some ⟨r, pkt, pkt.seq, true, [], []⟩
  else none

/-- A call that does not enter the loop consumes nothing, and one that does returns what the
loop leaves behind. -/
lemma fromLowerLayer_eq (fresh : ℤ → ℕ → Byte) (junk pkt : Packet) (r : Receiver) :
    (r.fromLowerLayer fresh junk pkt).map (fun o => (o.consumed, o.delivered)) =
      match r.entersConsume pkt with
      | none => some ([], [])
      | some start => (While.run Consume.running (Consume.body fresh) (windowsSize + 1) start).map
          fun c => (c.consumed, c.delivered) := by
  unfold fromLowerLayer entersConsume
  cases hver : rdtVerifyChecksum pkt with
  | false => simp
  | true =>
    by_cases hseq : pkt.seq = r.expected
    · simp only [hseq, Bool.not_true, Bool.false_eq_true, if_false, lt_irrefl, false_and, ne_eq,
        not_true_eq_false, and_self, if_true]
      cases While.run Consume.running (Consume.body fresh) (windowsSize + 1)
        ⟨r, pkt, r.expected, true, [], []⟩ with
      | none => rfl
      | some c => rfl
    · simp only [hseq, Bool.not_true, Bool.false_eq_true, if_false, ne_eq, not_false_eq_true,
        if_true, and_false]
      split
      · rfl
      · rfl

/-- In every round, the packet is the one the stream `B` of packets goes on with, and what came
before it has been reassembled. -/
structure Consume.Along (A : List UpperMessage) (B : List Packet) (c : Consume) : Prop where
  ready : ∃ b, c.Ready b ∧ b.HoldsOf B
  place : ∃ n : ℕ, c.rcv.expected = n ∧ B[n]? = some c.pkt ∧
    ∃ D, Assembled A (B.take n) c.rcv.toAssembly D

/-- A round goes on along the stream. -/
lemma Consume.Along.body {A : List UpperMessage} {B : List Packet} (fresh : ℤ → ℕ → Byte)
    {c : Consume} (h : c.Along A B) (hsizes : ∀ p ∈ B, p.payloadSize = p.payload.length)
    (hpre : B.map Packet.payload <+: A.flatMap segment) (hmore : (c.body fresh).running = true) :
    (c.body fresh).Along A B := by
  obtain ⟨b, hready, hholds⟩ := h.ready
  obtain ⟨n, hn, hget, D, hasm⟩ := h.place
  obtain ⟨-, hexp, hbody, -⟩ := Consume.body_logs fresh c
  cases hp : b.held.lookup (b.next + 1) with
  | none =>
    rw [(hready.body_of_none fresh hp).1] at hmore
    cases hmore
  | some p =>
    obtain ⟨hready', hpkt⟩ := hready.body_of_some fresh hp
    have hnext := hready.sim.next_eq
    obtain ⟨k, hk, hget'⟩ := hholds _ _ hp
    obtain rfl : k = n + 1 := by omega
    have htake := ReorderBuffer.take_append_of_getElem? hget
    have hstep := hasm.consume (fresh c.rcv.expected) (hsizes c.pkt (List.mem_of_getElem? hget))
      (by rw [htake]; exact ((List.take_prefix _ _).map _).trans hpre)
    rw [htake, ← hbody] at hstep
    exact ⟨⟨_, hready', hholds.erase _ _⟩, n + 1, by rw [hexp, hn]; push_cast; rfl,
      by rw [hpkt]; exact hget', _, hstep⟩

end Receiver

/-! ## Runs of the system -/

namespace SenderSys

/-- Every accepted message is one that was handed over. -/
lemma accepted_nonEmpty {σ : SenderSys} (h : Run step NonEmpty Init σ) :
    ∀ m ∈ σ.accepted, 1 ≤ m.data.length := by
  refine Run.invariant (I := fun σ => ∀ m ∈ σ.accepted, 1 ≤ m.data.length) ?_ ?_ h
  · rintro σ ⟨w, rfl⟩ m hm
    cases hm
  · intro σ e σ' _ hσ he hok
    have hpush : ∀ msg junk, e = .fromUpperLayer msg junk →
        ∀ m ∈ σ.accepted ++ [msg], 1 ≤ m.data.length := by
      intro msg junk heq m hm
      rcases List.mem_append.mp hm with hm | hm
      · exact hσ m hm
      · rw [List.mem_singleton.mp hm]
        exact hok msg junk heq
    rcases step_cases he with ⟨msg, junk, heq, -, rfl⟩ | ⟨msg, junk, o, heq, -, -, rfl⟩ |
      ⟨_, _, -, -, rfl⟩ | ⟨_, _, _, -, -, -, -, -, rfl⟩ | ⟨_, _, -, -, rfl⟩
    · exact hpush msg junk heq
    · exact hpush msg junk heq
    · exact hσ
    · exact hσ
    · exact hσ

end SenderSys

namespace Sys

open Receiver

variable {fresh : ℤ → ℕ → Byte}

/-- Every message has at least one byte, and `msg_buffer_num` never exceeds
`MAX_BUFFER_SIZE`. -/
def FitsNonEmpty (σ : Sys) (e : SysEvent) (σ' : Sys) : Prop :=
  BufferFits σ e σ' ∧ ∀ msg junk, e = .fromUpperLayer msg junk → 1 ≤ msg.data.length

/-- The loop is entered with the packet the stream goes on with. -/
lemma along_entersConsume {σ : Sys} (h : Run (step fresh) BufferFits Init σ) {pkt : Packet}
    (hpkt : pkt ∈ σ.data) {start : Consume} (hstart : σ.dst.rcv.entersConsume pkt = some start) :
    start.Along σ.src.accepted σ.src.built := by
  simp only [entersConsume, Option.ite_none_right_eq_some, Option.some.injEq] at hstart
  obtain ⟨⟨hver, hseq⟩, rfl⟩ := hstart
  obtain ⟨L, hL⟩ := linked_of_run h
  obtain ⟨hr, hw⟩ := SenderSys.resting_windowed (run_src_expiresSet h)
  obtain ⟨k, -, hget, hplace⟩ := hL.number hr hw hpkt hver
  have hexp := hL.expected_eq
  obtain rfl : k = σ.dst.consumed.length := by omega
  refine ⟨⟨L.buf, ⟨rfl, hL.refines.sim, hL.refines.not_held, hseq, rfl⟩, hL.holds⟩, _, hexp, hget,
    σ.dst.delivered, ?_⟩
  rw [← List.prefix_iff_eq_take.mp hL.consumed]
  exact assembled_of_run h

/-- **The receiver's copies never leave their buffers.** In every state of every run with
messages of at least one byte and at most `MAX_BUFFER_SIZE` of them waiting, whichever packet is
delivered: every round of the loop reads a payload size that fits the packet and what is left
of the message, copies inside the packet and inside the block, and leaves the cursor inside the
message, at 0 exactly when the message is complete. The counters have no bound here: the program is
that of runs in which its `int`s stay below `2 ^ 31`. -/
theorem copies_in_bounds {σ : Sys} (h : Run (step fresh) FitsNonEmpty Init σ) {pkt : Packet}
    (hpkt : pkt ∈ σ.data) {start c : Consume} (hstart : σ.dst.rcv.entersConsume pkt = some start)
    (hc : While.Round Consume.running (Consume.body fresh) start c) :
    c.rcv.toAssembly.InBounds (fresh c.rcv.expected) c.pkt := by
  have hfits : Run (step fresh) BufferFits Init σ := h.mono fun _ _ _ _ hok => hok.1
  have hs := SenderSys.stream_of_orderly (run_src_orderly hfits)
  have hpre := SenderSys.payload_isPrefix hs
  have hsrc : Run SenderSys.step SenderSys.NonEmpty SenderSys.Init σ.src :=
    run_src (fun _ _ _ _ _ hallow hup _ msg junk heq => hallow.2 msg junk (hup msg junk heq)) h
  have hsize := SenderSys.accepted_nonEmpty hsrc
  obtain ⟨hI, hrun⟩ := hc.inv
    (I := fun c => c.running = true → c.Along σ.src.accepted σ.src.built)
    (fun _ => along_entersConsume hfits hpkt hstart)
    (fun u hu hcond hmore => (hu hcond).body fresh hs.sizes hpre hmore)
  obtain ⟨n, -, hget, D, hasm⟩ := (hI hrun).place
  exact hasm.inBounds hsize _ (hs.sizes c.pkt (List.mem_of_getElem? hget)) (by
    rw [ReorderBuffer.take_append_of_getElem? hget]
    exact ((List.take_prefix _ _).map _).trans hpre)

lemma fitsNonEmpty_of_test {σ σ' : Sys} {e : SysEvent} (h : boundedTest σ e σ' = true) :
    FitsNonEmpty σ e σ' := by
  refine ⟨(bounded_of_test h).2, ?_⟩
  rintro msg junk rfl
  unfold boundedTest at h
  rw [Bool.and_eq_true] at h
  exact (of_decide_eq_true h.2).2

/-- When the first packet comes after the rough history, the second one is consumed with it: that
copy goes behind the cursor, and is in bounds. -/
theorem second_round_in_bounds : ∃ (σ : Sys) (start : Consume), Rough σ ∧
    σ.dst.rcv.entersConsume (σ.src.built.getD 0 .zero) = some start ∧
    (start.body fun _ _ => 0).rcv.expected = 1 ∧
    (start.body fun _ _ => 0).rcv.toAssembly.InBounds (fun _ => 0)
      (start.body fun _ _ => 0).pkt := by
  obtain ⟨σ, hrun, hσ⟩ := exists_rough fun _ _ _ h => fitsNonEmpty_of_test h
  obtain ⟨hseq, hver⟩ := hσ.first_spec hrun
  have hstart : σ.dst.rcv.entersConsume (σ.src.built.getD 0 .zero) =
      some ⟨σ.dst.rcv, σ.src.built.getD 0 .zero, (σ.src.built.getD 0 .zero).seq, true, [], []⟩ := by
    rw [entersConsume, if_pos ⟨hver, by rw [hseq, hσ.expected]⟩]
  have hnext : σ.dst.rcv.validChecks.get (σ.dst.rcv.expected + 1) = true := by
    rw [hσ.expected]
    exact hσ.early
  have hround := copies_in_bounds hrun hσ.first_mem hstart (.next (.first rfl) (by
    simp only [Consume.body, hnext, if_true]))
  refine ⟨σ, _, hσ, hstart, ?_, hround⟩
  simp only [Consume.body, hσ.expected, zero_add, hσ.early, if_true]

end Sys
end NetLabs.Rdt
