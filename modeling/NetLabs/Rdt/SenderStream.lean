import NetLabs.Lib.Chunks
import NetLabs.Rdt.SenderWindow

/-!
# The packet stream

What the sender cuts out of its messages. `segment` is the intended cut of one message: the
size in front of the data, in pieces of `MAX_PAYLOAD_SIZE` bytes. `Stream` is the position of
the cut between two packets: the messages before `cur_message_seq` are cut completely, the
current one up to the cursor, and the buffer still holds every message that is not cut yet.
As long as the buffer retains them, the payloads are a beginning of the concatenated segments
whatever the schedule was (`packet_stream`).
-/

namespace NetLabs.Rdt

open NetLabs.Lib NetLabs.Lib.Bytes NetLabs.Lib.Chunks

/-! ## The intended cut -/

/-- The byte string cut for a message: its size in four bytes, then its data. -/
def UpperMessage.encoded (m : UpperMessage) : List Byte := intBytes m.data.length ++ m.data

/-- The pieces of a message. -/
def UpperMessage.segment (m : UpperMessage) : List (List Byte) := chunks maxPayloadSize m.encoded

namespace UpperMessage

@[simp] lemma length_encoded (m : UpperMessage) : m.encoded.length = m.data.length + 4 := by
  rw [encoded, List.length_append, length_intBytes, Nat.add_comm]

lemma segment_eq (m : UpperMessage) : m.segment = chunks 119 m.encoded := rfl

/-- The segment of the message numbered `j`, if it was accepted. -/
def segmentAt (ms : List UpperMessage) (j : ℕ) : List (List Byte) := (ms[j]?).elim [] segment

end UpperMessage

namespace Sender

/-! ## Reading a filled packet -/

lemma payloadSize_fillPkt (pkt : Packet) (n : ℤ) {size : ℤ} (bs : List Byte) (h₀ : 0 ≤ size)
    (h₁ : size ≤ 119) : (fillPkt pkt n size bs).payloadSize = size := by
  have hlen : ([BitVec.ofInt 8 size] : List Byte).length = 1 := rfl
  -- the payload is written behind the size byte, the checksum in front of it
  have hslice : slice (fillPkt pkt n size bs).data (headerSize - 1) 1 =
      [BitVec.ofInt 8 size] := by
    rw [fillPkt, slice_rdtAddChecksum _ (by decide), Packet.data_write,
      slice_overwrite_disjoint _ (Or.inl (by decide)), Packet.data_write,
      slice_overwrite_self _ hlen (by rw [Packet.length_data]; decide)]
  have hbyte : (fillPkt pkt n size bs).data.getD (headerSize - 1) 0 = BitVec.ofInt 8 size := by
    have hfirst := congrArg (fun l => l[0]?) hslice
    simp only [getElem?_slice, Nat.one_pos, if_true, Nat.add_zero,
      List.getElem?_cons_zero] at hfirst
    rw [List.getD_eq_getElem?_getD, hfirst, Option.getD_some]
  rw [Packet.payloadSize, hbyte, BitVec.toInt_ofInt]
  exact Int.bmod_eq_of_le (by norm_num; omega) (by norm_num; omega)

lemma payload_fillPkt (pkt : Packet) (n : ℤ) {size : ℤ} {bs : List Byte} (h₀ : 0 ≤ size)
    (h₁ : size ≤ 119) (hlen : bs.length = size.toNat) :
    (fillPkt pkt n size bs).payload = bs := by
  rw [Packet.payload, payloadSize_fillPkt pkt n bs h₀ h₁, fillPkt,
    slice_rdtAddChecksum _ (by decide), Packet.data_write, slice_overwrite_self _ hlen]
  rw [Packet.length_data, headerSize]
  omega

/-! ## What the buffer stores -/

lemma stored_data (m : UpperMessage) : (stored m.toMessage).data = m.encoded := by
  simp [stored, UpperMessage.toMessage, UpperMessage.encoded, slice]

/-- The stored size is the length of the stored block, unless the conversion to `int` made it
negative. -/
lemma stored_size_of_nonneg {m : UpperMessage} (h : 0 ≤ (stored m.toMessage).size) :
    (stored m.toMessage).size = m.encoded.length := by
  have hlt := m.length_lt
  rw [UpperMessage.length_encoded]
  simp only [stored, UpperMessage.toMessage, BitVec.toInt_ofInt, Int.bmod] at h ⊢
  push_cast at h ⊢
  omega

lemma stored_size_of_le {m : UpperMessage} (h : m.data.length ≤ 2 ^ 31 - 5) :
    (stored m.toMessage).size = m.encoded.length := by
  rw [UpperMessage.length_encoded]
  simp only [stored, UpperMessage.toMessage]
  rw [toInt_ofInt32 (by omega) (by omega)]
  push_cast
  rfl

/-! ## The position of the cut -/

open UpperMessage (segment segmentAt)

/-- With the messages `A` accepted and the packets `B` built, the cut stands at the cursor of
message `cur_message_seq`, and the buffer holds all that is left to cut. -/
structure Stream (A : List UpperMessage) (B : List Packet) (s : Sender) : Prop where
  next_eq : s.nextMessageSeq = A.length
  retained : ∀ (k : ℕ) (m : UpperMessage), s.curMessageSeq ≤ k → A[k]? = some m →
    s.buffer.get k = stored m.toMessage
  sizes : ∀ p ∈ B, p.payloadSize = p.payload.length
  position : ∃ j i : ℕ, s.curMessageSeq = j ∧ s.cursorSender = 119 * i ∧
    B.map Packet.payload = (A.take j).flatMap segment ++ (segmentAt A j).take i ∧
    (0 < i → ∃ m, A[j]? = some m ∧ 119 * i < m.encoded.length)

namespace Stream

lemma init (w : Ring maxWindowSize Packet) : Stream [] [] (.init w) := by
  refine ⟨rfl, by simp, by simp, 0, 0, rfl, rfl, by simp, by simp⟩

/-- The message being cut, when one is waiting. -/
lemma current {A : List UpperMessage} {B : List Packet} {s : Sender} (h : Stream A B s)
    (hlt : s.curMessageSeq < s.nextMessageSeq) : ∃ (j i : ℕ) (m : UpperMessage),
      s.curMessageSeq = j ∧ s.cursorSender = 119 * i ∧ A[j]? = some m ∧
      s.buffer.get s.curMessageSeq = stored m.toMessage ∧ 119 * i < m.encoded.length ∧
      B.map Packet.payload = (A.take j).flatMap segment ++ m.segment.take i := by
  obtain ⟨j, i, hj, hi, hpay, hpos⟩ := h.position
  have hjA : j < A.length := by have := h.next_eq; omega
  have hm : A[j]? = some A[j] := List.getElem?_eq_getElem hjA
  have hbuf : s.buffer.get s.curMessageSeq = stored A[j].toMessage := by
    rw [hj]; exact h.retained j _ (le_of_eq hj) hm
  refine ⟨j, i, A[j], hj, hi, hm, hbuf, ?_, ?_⟩
  -- an uncut message has at least the four bytes of its size
  · rcases Nat.eq_zero_or_pos i with rfl | hpos'
    · rw [UpperMessage.length_encoded]; omega
    · obtain ⟨m, hm', hlt'⟩ := hpos hpos'
      obtain rfl : A[j] = m := Option.some.inj (hm.symm.trans hm')
      exact hlt'
  · rw [hpay, segmentAt, hm]; rfl

end Stream

/-- The payload the loop cuts next is the next piece of the message. -/
lemma payload_nextPkt {c : Construct} {m : UpperMessage} {i : ℕ} {n : ℤ}
    (hmsg : c.msg = stored m.toMessage) (hcur : c.snd.cursorSender = 119 * i) (h₀ : 0 ≤ n)
    (h₁ : n ≤ 119) (hsize : n = 119 ∨ n = m.encoded.length - 119 * i)
    (hle : 119 * i + n ≤ m.encoded.length) :
    (c.nextPkt n).payloadSize = (c.nextPkt n).payload.length ∧
      (c.nextPkt n).payload = chunk 119 m.encoded i := by
  have hnat : c.snd.cursorSender.toNat = 119 * i := by omega
  have hcut : slice c.msg.data c.snd.cursorSender.toNat n.toNat = chunk 119 m.encoded i := by
    rw [hmsg, stored_data, hnat, chunk]
    rcases hsize with hsize | hsize
    · rw [hsize]; rfl
    · -- the last piece: what is left is not longer than a piece
      rw [slice, slice, List.take_of_length_le (by rw [List.length_drop]; omega),
        List.take_of_length_le (by rw [List.length_drop]; omega)]
  have hlen : (slice c.msg.data c.snd.cursorSender.toNat n.toNat).length = n.toNat := by
    rw [hmsg, stored_data, hnat, length_slice]; omega
  have hpay := payload_fillPkt c.pkt c.snd.pktSeq h₀ h₁ hlen
  constructor
  · rw [Construct.nextPkt, hpay, hlen, payloadSize_fillPkt _ _ _ h₀ h₁]; omega
  · rw [Construct.nextPkt, hpay, hcut]

lemma sizes_push {B : List Packet} {q : Packet} (h : ∀ p ∈ B, p.payloadSize = p.payload.length)
    (hq : q.payloadSize = q.payload.length) : ∀ p ∈ B ++ [q], p.payloadSize = p.payload.length := by
  intro p hp
  rw [List.mem_append, List.mem_singleton] at hp
  rcases hp with hp | rfl
  · exact h p hp
  · exact hq

namespace Stream

/-- The first branch of the loop moves the cut by one piece. -/
lemma cut {A : List UpperMessage} {B : List Packet} {c : Construct}
    (h : Stream A (B ++ c.built) c.snd) (hc : c.cond = true)
    (hmsg : c.msg = c.snd.buffer.get c.snd.curMessageSeq)
    (hgt : c.msg.size - c.snd.cursorSender > maxPayloadSize) :
    Stream A (B ++ c.cut.built) c.cut.snd := by
  obtain ⟨j, i, m, hj, hi, hm, hbuf, hlt, hpay⟩ := h.current (c.cond_iff.mp hc).2
  rw [hbuf] at hmsg
  have hmax : (maxPayloadSize : ℤ) = 119 := rfl
  rw [hmax] at hgt
  have hsize : c.msg.size = m.encoded.length := by
    rw [hmsg] at hgt ⊢
    exact stored_size_of_nonneg (by omega)
  obtain ⟨hps, hp⟩ := payload_nextPkt (n := 119) hmsg hi (by omega) (by omega) (Or.inl rfl)
    (by omega)
  have hbuilt : B ++ c.cut.built = (B ++ c.built) ++ [c.nextPkt 119] := by
    simp [Construct.cut, hmax]
  refine ⟨h.next_eq, h.retained, ?_, j, i + 1, hj, ?_, ?_, fun _ => ⟨m, hm, by omega⟩⟩
  · rw [hbuilt]; exact sizes_push h.sizes hps
  · show c.snd.cursorSender + maxPayloadSize = 119 * ((i + 1 : ℕ) : ℤ)
    rw [hi, hmax]; push_cast; ring
  · rw [hbuilt, List.map_append, hpay, List.map_singleton, hp, segmentAt, hm, Option.elim_some,
      UpperMessage.segment_eq, take_chunks_succ (by norm_num) hlt, List.append_assoc]

/-- The second branch finishes the message. -/
lemma cutLast {A : List UpperMessage} {B : List Packet} {c : Construct}
    (h : Stream A (B ++ c.built) c.snd) (hc : c.cond = true)
    (hmsg : c.msg = c.snd.buffer.get c.snd.curMessageSeq)
    (hle : ¬ c.msg.size - c.snd.cursorSender > maxPayloadSize)
    (hgt : c.msg.size > c.snd.cursorSender) :
    Stream A (B ++ c.cutLast.built) c.cutLast.snd := by
  obtain ⟨j, i, m, hj, hi, hm, hbuf, hlt, hpay⟩ := h.current (c.cond_iff.mp hc).2
  rw [hbuf] at hmsg
  have hsize : c.msg.size = m.encoded.length := by
    rw [hmsg] at hgt ⊢
    exact stored_size_of_nonneg (by omega)
  have hmax : (maxPayloadSize : ℤ) = 119 := rfl
  rw [hmax] at hle
  obtain ⟨hps, hp⟩ := payload_nextPkt (n := c.msg.size - c.snd.cursorSender) hmsg hi
    (by omega) (by omega) (Or.inr (by rw [hsize, hi])) (by omega)
  have hbuilt : B ++ c.cutLast.built =
      (B ++ c.built) ++ [c.nextPkt (c.msg.size - c.snd.cursorSender)] := by
    simp [Construct.cutLast]
  -- what is left fits one packet, so this piece is the last
  have hcount : count 119 m.encoded = i + 1 :=
    count_eq_of_le (by norm_num) hlt (by omega)
  refine ⟨h.next_eq, ?_, ?_, j + 1, 0, ?_, rfl, ?_, by simp⟩
  · intro k m' hk hm'
    exact h.retained k m' (by simp only [Construct.cutLast] at hk; omega) hm'
  · rw [hbuilt]; exact sizes_push h.sizes hps
  · show c.snd.curMessageSeq + 1 = ((j + 1 : ℕ) : ℤ)
    rw [hj]; push_cast; rfl
  · have hall : m.segment.take i ++ [chunk 119 m.encoded i] = m.segment := by
      rw [UpperMessage.segment_eq, ← take_chunks_succ (by norm_num) hlt, ← hcount,
        ← length_chunks, List.take_length]
    rw [hbuilt, List.map_append, hpay, List.map_singleton, hp, List.append_assoc, hall,
      List.take_add_one, hm, List.flatMap_append]
    simp

/-- A round of the loop keeps the position, and its local `msg` is the current message. -/
lemma body {A : List UpperMessage} {B : List Packet} {c : Construct}
    (h : Stream A (B ++ c.built) c.snd) (hc : c.cond = true)
    (hmsg : c.msg = c.snd.buffer.get c.snd.curMessageSeq) :
    Stream A (B ++ c.body.built) c.body.snd ∧ (c.body.cond = true →
      c.body.msg = c.body.snd.buffer.get c.body.snd.curMessageSeq) := by
  unfold Construct.body
  split
  · rename_i hgt
    exact ⟨h.cut hc hmsg hgt, fun _ => hmsg⟩
  · rename_i hle
    split
    · rename_i hgt
      refine ⟨h.cutLast hc hmsg hle hgt, fun hnext => ?_⟩
      have hlt : c.snd.curMessageSeq + 1 < c.snd.nextMessageSeq := (Construct.cond_iff _).mp hnext |>.2
      simp only [Construct.cutLast, if_pos hlt]
    · exact ⟨h, fun _ => hmsg⟩

/-- `Sender_ConstructPKT` moves the cut along. -/
theorem constructPKT {A : List UpperMessage} {B : List Packet} {s : Sender} {junk : Packet}
    {c : Construct} (h : Stream A B s) (hc : constructPKT junk s = some c) :
    Stream A (B ++ c.built) c.snd := by
  -- the local `msg` is the current message whenever another round follows
  refine (While.run_inv (I := fun c => Stream A (B ++ c.built) c.snd ∧ (c.cond = true →
    c.msg = c.snd.buffer.get c.snd.curMessageSeq)) ?_ _ ⟨?_, fun _ => rfl⟩ hc).1.1
  · rintro d ⟨hs, hmsg⟩ hd
    exact hs.body hd (hmsg hd)
  · simpa [constructStart] using h

/-- No round is stuck on a message whose size is an `int` with its prefix. -/
lemma body_ne {A : List UpperMessage} {B : List Packet} {c : Construct}
    (h : Stream A (B ++ c.built) c.snd) (hc : c.cond = true)
    (hmsg : c.msg = c.snd.buffer.get c.snd.curMessageSeq)
    (hsize : ∀ m ∈ A, m.data.length ≤ 2 ^ 31 - 5) : c.body ≠ c := by
  obtain ⟨j, i, m, hj, hi, hm, hbuf, hlt, -⟩ := h.current (c.cond_iff.mp hc).2
  have hstored : c.msg.size = m.encoded.length := by
    rw [hmsg, hbuf]
    exact stored_size_of_le (hsize m (List.mem_of_getElem? hm))
  have hgt : c.msg.size > c.snd.cursorSender := by rw [hstored, hi]; exact_mod_cast hlt
  -- either branch adds a packet
  have hgrow : c.body.built.length = c.built.length + 1 := by
    unfold Construct.body
    split
    · simp [Construct.cut]
    · simp [Construct.cutLast]
  intro heq
  rw [heq] at hgrow
  omega

/-- **`Sender_ConstructPKT` returns** as long as the buffer retains the messages and their
sizes are `int`s with the prefix. -/
theorem exists_constructPKT {A : List UpperMessage} {B : List Packet} {s : Sender}
    (h : Stream A B s) (hsize : ∀ m ∈ A, m.data.length ≤ 2 ^ 31 - 5) (junk : Packet) :
    ∃ c, Sender.constructPKT junk s = some c := by
  refine While.exists_run (I := fun c => Stream A (B ++ c.built) c.snd ∧ (c.cond = true →
    c.msg = c.snd.buffer.get c.snd.curMessageSeq)) Construct.room ?_ _ ⟨?_, fun _ => rfl⟩ (le_refl _)
  · rintro d ⟨hs, hmsg⟩ hd
    refine ⟨hs.body hd (hmsg hd), ?_⟩
    rcases Construct.body_progress hd with heq | hless
    · exact absurd heq (hs.body_ne hd (hmsg hd) hsize)
    · exact hless
  · simpa [constructStart] using h

/-- The fields the position depends on. -/
lemma congr {A : List UpperMessage} {B : List Packet} {s t : Sender} (h : Stream A B s)
    (hb : t.buffer = s.buffer) (hn : t.nextMessageSeq = s.nextMessageSeq)
    (hm : t.curMessageSeq = s.curMessageSeq) (hc : t.cursorSender = s.cursorSender) :
    Stream A B t := by
  refine ⟨hn.trans h.next_eq, ?_, h.sizes, ?_⟩
  · rw [hm, hb]; exact h.retained
  · rw [hm, hc]; exact h.position

theorem constructAndSend {A : List UpperMessage} {B : List Packet} {s : Sender} {junk : Packet}
    {o : Outcome} (h : Stream A B s) (ho : s.constructAndSend junk = some o) :
    Stream A (B ++ o.built) o.snd := by
  obtain ⟨c, hc, hsnd, hbuilt, -⟩ := constructAndSend_eq_some ho
  rw [hsnd, hbuilt]
  exact (h.constructPKT hc).congr rfl rfl rfl rfl

end Stream

/-- A new message is stored in a slot that no waiting message needs: fewer than
`MAX_BUFFER_SIZE` messages wait, or the slot holds the same bytes already. -/
def Fits (s : Sender) (msg : UpperMessage) : Prop :=
  s.nextMessageSeq - s.curMessageSeq < maxBufferSize ∨
    s.buffer.get s.nextMessageSeq = stored msg.toMessage

lemma get_enqueue_of_fits {s : Sender} {msg : UpperMessage} (hf : Fits s msg) {k : ℤ}
    (h₁ : s.curMessageSeq ≤ k) (h₂ : k < s.nextMessageSeq) :
    (s.enqueue msg.toMessage).buffer.get k = s.buffer.get k := by
  show (s.buffer.set s.nextMessageSeq (stored msg.toMessage)).get k = s.buffer.get k
  rcases hf with hlt | hsame
  · exact Ring.get_set_of_near _ _ (by omega) (by omega) (by omega)
  · rw [Ring.get_set]
    split
    · rename_i hslot
      rw [← hsame, Ring.get_congr _ hslot]
    · rfl

namespace Stream

/-- Accepting a message that fits. -/
theorem enqueue {A : List UpperMessage} {B : List Packet} {s : Sender} (h : Stream A B s)
    (hcur : s.curMessageSeq ≤ s.nextMessageSeq) {msg : UpperMessage} (hf : Fits s msg) :
    Stream (A ++ [msg]) B (s.enqueue msg.toMessage) := by
  have hnext := h.next_eq
  refine ⟨?_, ?_, h.sizes, ?_⟩
  · show s.nextMessageSeq + 1 = _
    rw [hnext, List.length_append]; push_cast; rfl
  · intro k m hk hm
    change s.curMessageSeq ≤ k at hk
    -- an earlier message, or the new one
    rcases Nat.lt_or_ge k A.length with hlt | hge
    · rw [List.getElem?_append_left hlt] at hm
      rw [get_enqueue_of_fits hf hk (by omega)]
      exact h.retained k m hk hm
    · rw [List.getElem?_append_right hge] at hm
      obtain ⟨hlt, rfl⟩ := List.getElem?_eq_some_iff.mp hm
      obtain rfl : k = A.length := by simp at hlt; omega
      show (s.buffer.set s.nextMessageSeq (stored msg.toMessage)).get (A.length : ℤ) = _
      rw [← hnext]
      simp
  · obtain ⟨j, i, hj, hi, hpay, hpos⟩ := h.position
    have hjA : j ≤ A.length := by omega
    refine ⟨j, i, hj, hi, ?_, fun h0 => ?_⟩
    · rw [hpay, List.take_append_of_le_length hjA]
      congr 1
      rcases Nat.eq_zero_or_pos i with rfl | h0
      · simp
      · -- a message that is partly cut was accepted before
        obtain ⟨m, hm, -⟩ := hpos h0
        obtain ⟨hlt, -⟩ := List.getElem?_eq_some_iff.mp hm
        rw [segmentAt, segmentAt, List.getElem?_append_left hlt]
    · obtain ⟨m, hm, hlt⟩ := hpos h0
      obtain ⟨hjlt, -⟩ := List.getElem?_eq_some_iff.mp hm
      exact ⟨m, by rw [List.getElem?_append_left hjlt, hm], hlt⟩

end Stream
end Sender

/-! ## Runs -/

namespace SenderSys

open Sender UpperMessage

/-- Every message is accepted into a slot that no waiting message needs. -/
def Retaining (σ : SenderSys) (e : SenderEvent) (_ : SenderSys) : Prop :=
  ∀ msg junk, e = .fromUpperLayer msg junk → Fits σ.snd msg

/-- `msg_buffer_num` does not exceed `MAX_BUFFER_SIZE`. Only `Sender_FromUpperLayer` raises it,
by one and before anything else. -/
def BufferFits (σ : SenderSys) (e : SenderEvent) (_ : SenderSys) : Prop :=
  ∀ msg junk, e = .fromUpperLayer msg junk → σ.snd.msgBufferNum + 1 ≤ maxBufferSize

/-- One call keeps the position of the cut. -/
theorem stream_step {σ σ' : SenderSys} {e : SenderEvent} (hr : Resting σ)
    (h : Stream σ.accepted σ.built σ.snd) (he : σ.step e = some σ') (hok : Retaining σ e σ') :
    Stream σ'.accepted σ'.built σ'.snd := by
  have hcur := hr.1.cur_le
  rcases step_cases he with ⟨msg, junk, rfl, -, rfl⟩ | ⟨msg, junk, o, rfl, -, ho, rfl⟩ |
    ⟨pkt, junk, rfl, -, rfl⟩ | ⟨pkt, junk, o, rfl, -, h₁, h₂, ho, rfl⟩ | ⟨junk, o, rfl, ho, rfl⟩
  · exact h.enqueue hcur (hok msg junk rfl)
  · exact (h.enqueue hcur (hok msg junk rfl)).constructAndSend ho
  · exact h
  · exact (h.congr rfl rfl rfl rfl : Stream _ _ (σ.snd.slide pkt.seq)).constructAndSend ho
  · exact (h.congr rfl rfl rfl rfl : Stream _ _ σ.snd.rewind).constructAndSend ho

theorem stream_of_run {σ : SenderSys} (h : Run step Retaining Init σ) :
    Stream σ.accepted σ.built σ.snd := by
  refine Run.invariant (I := fun σ => Stream σ.accepted σ.built σ.snd) ?_ ?_ h
  · rintro s ⟨w, rfl⟩
    exact Stream.init w
  · intro s e t hrun hs he hok
    exact stream_step (resting_windowed hrun).1 hs he hok

/-- A buffer that is never overfull retains every message. -/
lemma retaining_of_bufferFits {σ : SenderSys} (h : Run step BufferFits Init σ) :
    Run step Retaining Init σ := by
  refine h.mono fun s e t hrun hok msg junk he => Or.inl ?_
  have hbuf := (resting_windowed hrun).1.1.buffer_eq
  have := hok msg junk he
  omega

lemma payload_isPrefix {A : List UpperMessage} {B : List Packet} {s : Sender}
    (h : Stream A B s) : B.map Packet.payload <+: A.flatMap segment := by
  obtain ⟨j, i, -, -, hpay, -⟩ := h.position
  rw [hpay]
  exact isPrefix_flatMap segment A j i

/-- With no message waiting, everything has been cut. -/
lemma payload_eq {A : List UpperMessage} {B : List Packet} {s : Sender} (h : Stream A B s)
    (hdone : s.curMessageSeq = s.nextMessageSeq) : B.map Packet.payload = A.flatMap segment := by
  obtain ⟨j, i, hj, -, hpay, -⟩ := h.position
  have hjA : j = A.length := by have := h.next_eq; omega
  rw [hpay, hjA, List.take_length, segmentAt, List.getElem?_eq_none (le_refl _)]
  simp

/-- **The packet stream depends only on the messages.** Whatever the schedule, as long as
`msg_buffer_num` stays within the buffer: the packets built are numbered `0, 1, 2, ...`, their
payloads are a beginning of the concatenated segments of the accepted messages, and all of it
once no message waits. So two runs that accept the same messages and build equally many
packets build the same payloads. The counters have no bound here: the program is that of runs in
which its `int`s stay below `2 ^ 31`. -/
theorem packet_stream :
    (∀ σ : SenderSys, Run step BufferFits Init σ →
      σ.snd.pktSeq = σ.built.length ∧
      (∀ (k : ℕ) (p : Packet), σ.built[k]? = some p →
        p.seqWord = BitVec.ofInt 32 k ∧ ((k : ℤ) < 2 ^ 31 → p.seq = k)) ∧
      (∀ p ∈ σ.built, p.payloadSize = p.payload.length) ∧
      σ.built.map Packet.payload <+: σ.accepted.flatMap segment ∧
      (σ.snd.curMessageSeq = σ.snd.nextMessageSeq →
        σ.built.map Packet.payload = σ.accepted.flatMap segment)) ∧
    (∀ σ τ : SenderSys, Run step BufferFits Init σ → Run step BufferFits Init τ →
      σ.accepted = τ.accepted → σ.built.length = τ.built.length →
      σ.built.map Packet.payload = τ.built.map Packet.payload) := by
  constructor
  · intro σ h
    obtain ⟨-, hw⟩ := resting_windowed h
    have hs := stream_of_run (retaining_of_bufferFits h)
    exact ⟨hw.length_eq, fun k p hp => ⟨(hw.numbered k p hp).1, hw.numbered.seq_eq hp⟩,
      hs.sizes, payload_isPrefix hs, payload_eq hs⟩
  · intro σ τ hσ hτ hacc hlen
    have h₁ := payload_isPrefix (stream_of_run (retaining_of_bufferFits hσ))
    have h₂ := payload_isPrefix (stream_of_run (retaining_of_bufferFits hτ))
    rw [← hacc] at h₂
    have hle : (σ.built.map Packet.payload).length = (τ.built.map Packet.payload).length := by
      simp [hlen]
    -- two beginnings of one list with the same length
    exact (List.prefix_of_prefix_length_le h₁ h₂ (le_of_eq hle)).eq_of_length hle

lemma run_rough_bufferFits : Run step BufferFits Init rough := by
  refine run_rough fun s e t h => ?_
  rintro msg junk rfl
  exact of_decide_eq_true h

lemma rough_sizes : ∀ m ∈ [paragraph, word], m.data.length ≤ 2 ^ 31 - 5 := by decide +kernel

lemma rough_segments : ([paragraph, word].flatMap segment).length = 4 := by decide +kernel

/-- In the rough history both messages are cut, `paragraph` into three packets. -/
theorem rough_payloads : Run step BufferFits Init rough ∧
    rough.built.map Packet.payload = segment paragraph ++ segment word := by
  refine ⟨run_rough_bufferFits, ?_⟩
  rw [(packet_stream.1 rough run_rough_bufferFits).2.2.2.2 rough_counters.2.2, rough_accepted,
    List.flatMap_cons, List.flatMap_singleton]

end SenderSys
end NetLabs.Rdt
