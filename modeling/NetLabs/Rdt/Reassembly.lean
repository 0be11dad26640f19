import NetLabs.Rdt.ReceiverTheorems
import NetLabs.Rdt.SenderStream

/-!
# Reassembly

The receiver finds the messages in a stream of payloads without any marker: a message begins
where the last one ended, its first four bytes are its size, and it ends when that many bytes
have come. `Partial` is the state in the middle of a message, `Assembled` the state between
two packets of a stream of segments; one consumed packet keeps it (`Assembled.consume`), so a
receiver that is fed the sender's packets in order hands on exactly the messages
(`reassembly_undoes_segmentation`).
-/

namespace NetLabs.Rdt

open NetLabs.Lib NetLabs.Lib.Bytes NetLabs.Lib.Chunks UpperMessage

namespace UpperMessage

/-- The size in front of the data. -/
lemma slice_encoded_size (m : UpperMessage) :
    slice m.encoded 0 4 = intBytes m.data.length := by
  have hlen : (intBytes m.data.length).length = 4 := length_intBytes _
  rw [slice, encoded, List.drop_zero, List.take_append_of_le_length (le_of_eq hlen.symm),
    List.take_of_length_le (le_of_eq hlen)]

/-- Behind the size come the bytes of the message. -/
lemma slice_encoded_data (m : UpperMessage) {k : ℕ} (hk : 4 ≤ k) (n : ℕ) :
    slice m.encoded k n = slice m.data (k - 4) n := by
  have hlen : (intBytes m.data.length).length = 4 := length_intBytes _
  rw [slice, slice, encoded, List.drop_append, List.drop_of_length_le (by omega), hlen,
    List.nil_append]

lemma length_segment (m : UpperMessage) : m.segment.length = count 119 m.encoded := by
  rw [segment_eq, length_chunks]

lemma length_segment_pos (m : UpperMessage) : 0 < m.segment.length := by
  rw [length_segment]
  exact count_pos (by norm_num) (by rw [length_encoded]; omega)

end UpperMessage

/-! ## One packet -/

/-- The first `k` bytes of the encoded message `m` have been taken in. -/
structure Partial (m : UpperMessage) (k : ℕ) (a : Assembly) : Prop where
  size_eq : a.curMsg.size = m.data.length
  length_eq : a.curMsg.data.length = m.data.length
  take_eq : a.curMsg.data.take (k - 4) = m.data.take (k - 4)
  cursor_eq : a.cursor = k - 4

namespace Assembly

lemma sizeT_of_nonneg {n : ℕ} (h : n < 2 ^ 64) : sizeT n = n := by
  rw [sizeT]; omega

/-- The first packet of a message. -/
lemma firstPacket_partial (fresh : ℕ → Byte) {a : Assembly} (ha : a.cursor = 0) {p : Packet}
    {m : UpperMessage} (hsize : p.payloadSize = p.payload.length)
    (hp : p.payload = chunk 119 m.encoded 0) :
    Partial m p.payload.length (a.firstPacket fresh p) := by
  have hm := m.length_lt
  have hlen : p.payload.length = min 119 (m.data.length + 4) := by
    rw [hp, chunk, length_slice, length_encoded]; omega
  have hnat : p.payloadSize.toNat = p.payload.length := by omega
  -- inside the payload, the packet reads as the encoded message
  have hread : ∀ o n, o + n ≤ p.payload.length →
      slice p.data (headerSize + o) n = slice m.encoded o n := by
    intro o n hon
    rw [← slice_slice p.data (k := p.payloadSize.toNat) (by omega), ← Packet.payload, hp, chunk,
      slice_slice _ (by omega), Nat.mul_zero, Nat.zero_add]
  have hint : readInt (slice p.data headerSize 4) = m.data.length := by
    rw [show headerSize = headerSize + 0 from rfl, hread 0 4 (by omega), m.slice_encoded_size,
      readInt_intBytes (by omega) (by omega)]
  have hcount : sizeT (p.payloadSize - 4) = p.payload.length - 4 := by
    rw [hsize, show (p.payload.length : ℤ) - 4 = ((p.payload.length - 4 : ℕ) : ℤ) by omega]
    exact sizeT_of_nonneg (by omega)
  have hcopy : slice p.data (headerSize + 4) (p.payload.length - 4) =
      m.data.take (p.payload.length - 4) := by
    rw [hread 4 _ (by omega), m.slice_encoded_data (le_refl 4)]
    rfl
  refine ⟨hint, ?_, ?_, ?_⟩
  · simp only [firstPacket, hint]
    simp
  · simp only [firstPacket, hint, hcount, hcopy]
    have hblock : (m.data.take (p.payload.length - 4)).length = p.payload.length - 4 := by
      rw [List.length_take]; omega
    have htake : (overwrite ((List.range (m.data.length : ℤ).toNat).map fresh) 0
        (m.data.take (p.payload.length - 4))).take
          (0 + (m.data.take (p.payload.length - 4)).length) = _ :=
      take_overwrite _ (by simp)
    rw [hblock, Nat.zero_add] at htake
    rw [htake]
    simp
  · simp only [firstPacket, ha]
    omega

/-- A later packet of a message. -/
lemma laterPacket_partial {a : Assembly} {p : Packet} {m : UpperMessage} {i : ℕ} (hi : 0 < i)
    (h : Partial m (119 * i) a) (hlt : 119 * i < m.encoded.length)
    (hsize : p.payloadSize = p.payload.length) (hp : p.payload = chunk 119 m.encoded i) :
    Partial m (119 * i + p.payload.length) (a.laterPacket p) := by
  have hm := m.length_lt
  rw [length_encoded] at hlt
  have hlen : p.payload.length = min 119 (m.data.length + 4 - 119 * i) := by
    rw [hp, chunk, length_slice, length_encoded]
  have hcursor := h.cursor_eq
  have hcur : a.cursor.toNat = 119 * i - 4 := by omega
  have hcount : sizeT p.payloadSize = p.payload.length := by
    rw [hsize]; exact sizeT_of_nonneg (by omega)
  have hpay : slice p.data headerSize p.payload.length = p.payload := by
    conv_rhs => rw [Packet.payload]
    congr 1
    omega
  have hdata : p.payload = slice m.data (119 * i - 4) p.payload.length := by
    conv_lhs => rw [hp, chunk, m.slice_encoded_data (by omega)]
    rw [slice, slice, List.take_eq_take_iff, List.length_drop]
    omega
  refine ⟨h.size_eq, ?_, ?_, ?_⟩
  · simp only [laterPacket, length_overwrite]
    exact h.length_eq
  · simp only [laterPacket, hcount, hpay, hcur]
    rw [show 119 * i + p.payload.length - 4 = 119 * i - 4 + p.payload.length by omega,
      take_overwrite _ (by rw [h.length_eq]; omega), h.take_eq, List.take_add]
    congr 1
  · simp only [laterPacket]
    push_cast
    omega

/-- The message is handed on exactly when all of it has been taken in. -/
lemma deliver_partial {a : Assembly} {m : UpperMessage} {k : ℕ} (h : Partial m k a) :
    a.deliver = if k = m.encoded.length then ({ a with cursor := 0 }, [m.toMessage])
      else (a, []) := by
  have hcursor := h.cursor_eq
  have hsize := h.size_eq
  have hlen := m.length_encoded
  unfold deliver
  by_cases hfull : k = m.encoded.length
  · have hdata : a.curMsg.data = m.data := by
      have htake := h.take_eq
      rwa [List.take_of_length_le (by rw [h.length_eq]; omega),
        List.take_of_length_le (by omega)] at htake
    have hmsg : a.curMsg = m.toMessage := by
      rw [toMessage, ← hsize, ← hdata]
    rw [if_pos hfull, if_pos (by omega), hmsg]
  · rw [if_neg hfull, if_neg (by omega)]

end Assembly

/-! ## A stream of packets -/

/-- With the packets `C` consumed from the segments of the messages `A`, the messages `D` have
been handed on, and the next one is taken in up to the last piece. -/
structure Assembled (A : List UpperMessage) (C : List Packet) (a : Assembly) (D : List Message) :
    Prop where
  position : ∃ j i : ℕ, j ≤ A.length ∧
    C.map Packet.payload = (A.take j).flatMap segment ++ (segmentAt A j).take i ∧
    D = (A.take j).map toMessage ∧ (i = 0 → a.cursor = 0) ∧
    (0 < i → ∃ m, A[j]? = some m ∧ 119 * i < m.encoded.length ∧ Partial m (119 * i) a)

namespace Assembled

lemma init (A : List UpperMessage) {a : Assembly} (ha : a.cursor = 0) : Assembled A [] a [] :=
  ⟨0, 0, Nat.zero_le _, by simp, by simp, fun _ => ha, fun h => absurd h (lt_irrefl 0)⟩

/-- The message and the piece that a stream of payloads continues with. -/
lemma next_piece {A : List UpperMessage} {P : List (List Byte)} {q : List Byte} {j i : ℕ}
    (hP : P = (A.take j).flatMap segment ++ (segmentAt A j).take i)
    (hpre : P ++ [q] <+: A.flatMap segment)
    (hi : 0 < i → ∃ m, A[j]? = some m ∧ 119 * i < m.encoded.length) :
    ∃ m, A[j]? = some m ∧ 119 * i < m.encoded.length ∧ q = chunk 119 m.encoded i := by
  rw [← List.take_append_drop j A, List.flatMap_append, hP, List.append_assoc,
    List.prefix_append_right_inj] at hpre
  rcases Nat.lt_or_ge j A.length with hlt | hge
  · have hm : A[j]? = some A[j] := List.getElem?_eq_getElem hlt
    have hin : 119 * i < A[j].encoded.length := by
      rcases Nat.eq_zero_or_pos i with rfl | h0
      · rw [length_encoded]; omega
      · obtain ⟨m, hm', hlt'⟩ := hi h0
        obtain rfl : A[j] = m := Option.some.inj (hm.symm.trans hm')
        exact hlt'
    refine ⟨A[j], hm, hin, ?_⟩
    have hcount : i < count 119 A[j].encoded := (lt_count_iff (by norm_num)).mpr hin
    have hlen : (A[j].segment.take i).length = i := by
      rw [List.length_take, length_segment]; omega
    rw [segmentAt, hm, Option.elim_some, List.drop_eq_getElem_cons hlt, List.flatMap_cons] at hpre
    -- both sides at position `i`
    have hget := hpre.getElem (i := i) (by rw [List.length_append, hlen]; simp)
    rw [List.getElem_append_right (by omega), List.getElem_append_left (by
      rw [length_segment]; exact hcount)] at hget
    simp only [hlen, Nat.sub_self, List.getElem_cons_zero] at hget
    rw [hget]
    simp [segment_eq, chunks]
  · rw [List.drop_of_length_le hge] at hpre
    have := hpre.length_le
    simp at this

/-- The packet's part of a message, if the payloads go on along the segments: the message and
the piece of it that the packet carries, and what has been taken in before and after. -/
lemma copy {A : List UpperMessage} {C : List Packet} {a : Assembly} {D : List Message}
    (h : Assembled A C a D) (fresh : ℕ → Byte) {p : Packet}
    (hsize : p.payloadSize = p.payload.length)
    (hpre : (C ++ [p]).map Packet.payload <+: A.flatMap segment) :
    ∃ j i m, j ≤ A.length ∧
      C.map Packet.payload = (A.take j).flatMap segment ++ (segmentAt A j).take i ∧
      D = (A.take j).map toMessage ∧ A[j]? = some m ∧ 119 * i < m.encoded.length ∧
      p.payload = chunk 119 m.encoded i ∧ (i = 0 → a.cursor = 0) ∧
      (0 < i → Partial m (119 * i) a) ∧
      Partial m (119 * i + p.payload.length) (a.copy fresh p) := by
  obtain ⟨j, i, hj, hC, hD, h0, hpos⟩ := h.position
  rw [List.map_append, List.map_singleton] at hpre
  obtain ⟨m, hm, hlt, hp⟩ := next_piece hC hpre fun hi => by
    obtain ⟨m, hm, hlt, -⟩ := hpos hi
    exact ⟨m, hm, hlt⟩
  have hpart : 0 < i → Partial m (119 * i) a := by
    intro hi
    obtain ⟨m', hm', -, hpart⟩ := hpos hi
    obtain rfl : m = m' := Option.some.inj (hm.symm.trans hm')
    exact hpart
  refine ⟨j, i, m, hj, hC, hD, hm, hlt, hp, h0, hpart, ?_⟩
  unfold Assembly.copy
  rcases Nat.eq_zero_or_pos i with rfl | hi
  · rw [if_pos (h0 rfl), Nat.mul_zero, Nat.zero_add]
    exact Assembly.firstPacket_partial fresh (h0 rfl) hsize hp
  · have hcur := (hpart hi).cursor_eq
    rw [if_neg (by omega)]
    exact Assembly.laterPacket_partial hi (hpart hi) hlt hsize hp

/-- **One consumed packet.** If the payloads go on along the segments, so does reassembly. -/
theorem consume {A : List UpperMessage} {C : List Packet} {a : Assembly} {D : List Message}
    (h : Assembled A C a D) (fresh : ℕ → Byte) {p : Packet}
    (hsize : p.payloadSize = p.payload.length)
    (hpre : (C ++ [p]).map Packet.payload <+: A.flatMap segment) :
    Assembled A (C ++ [p]) (a.consume fresh p).1 (D ++ (a.consume fresh p).2) := by
  obtain ⟨j, i, m, hj, hC, hD, hm, hlt, hp, -, -, hcopy⟩ := h.copy fresh hsize hpre
  have hlen : p.payload.length = min 119 (m.encoded.length - 119 * i) := by
    rw [hp, chunk, length_slice]
  have hnext : (C ++ [p]).map Packet.payload =
      (A.take j).flatMap segment ++ (segmentAt A j).take (i + 1) := by
    rw [List.map_append, hC, List.map_singleton, hp, segmentAt, hm, Option.elim_some, segment_eq,
      take_chunks_succ (by norm_num) hlt, List.append_assoc]
  rw [Assembly.consume, Assembly.deliver_partial hcopy]
  split
  · -- the last piece
    rename_i hfull
    have hcount : count 119 m.encoded = i + 1 := count_eq_of_le (by norm_num) hlt (by omega)
    obtain ⟨hjlt, hjm⟩ := List.getElem?_eq_some_iff.mp hm
    refine ⟨j + 1, 0, hjlt, ?_, ?_, fun _ => rfl, fun h => absurd h (lt_irrefl 0)⟩
    · rw [hnext, segmentAt, hm, Option.elim_some, ← hcount, ← length_segment, List.take_length,
        List.take_add_one, hm, List.flatMap_append]
      simp
    · rw [hD, List.take_add_one, hm, List.map_append]
      rfl
  · rename_i hmore
    have hpiece : p.payload.length = 119 := by omega
    rw [hpiece] at hcopy
    refine ⟨j, i + 1, hj, hnext, ?_, fun h => absurd h (Nat.succ_ne_zero i), fun _ => ?_⟩
    · rw [List.append_nil]; exact hD
    · exact ⟨m, hm, by omega, hcopy⟩

/-- A whole list of consumed packets. -/
theorem feed {A : List UpperMessage} (fresh : ℤ → ℕ → Byte) : ∀ (ps : List Packet) (e : ℤ)
    {C : List Packet} {a : Assembly} {D : List Message}, Assembled A C a D →
    (∀ p ∈ ps, p.payloadSize = p.payload.length) →
    (C ++ ps).map Packet.payload <+: A.flatMap segment →
    Assembled A (C ++ ps) (Assembly.feed fresh e ps a).1 (D ++ (Assembly.feed fresh e ps a).2) := by
  intro ps
  induction ps with
  | nil =>
    intro e C a D h _ _
    simpa [Assembly.feed] using h
  | cons p ps ih =>
    intro e C a D h hsize hpre
    have hsplit : C ++ p :: ps = (C ++ [p]) ++ ps := by simp
    rw [hsplit] at hpre ⊢
    have hfirst : (C ++ [p]).map Packet.payload <+: A.flatMap segment := by
      refine List.IsPrefix.trans ?_ hpre
      exact (List.prefix_append _ ps).map Packet.payload
    have hstep := h.consume (fresh e) (hsize p (List.mem_cons_self ..)) hfirst
    have hrest := ih (e + 1) hstep (fun q hq => hsize q (List.mem_cons_of_mem _ hq)) hpre
    rw [List.append_assoc D] at hrest
    exact hrest

/-- What has been handed on are the first messages. -/
lemma isPrefix {A : List UpperMessage} {C : List Packet} {a : Assembly} {D : List Message}
    (h : Assembled A C a D) : D <+: A.map toMessage := by
  obtain ⟨j, -, -, -, hD, -⟩ := h.position
  rw [hD]
  exact (List.take_prefix j A).map toMessage

/-- Once all the segments have come, all the messages have been handed on. -/
lemma complete {A : List UpperMessage} {C : List Packet} {a : Assembly} {D : List Message}
    (h : Assembled A C a D) (hC : C.map Packet.payload = A.flatMap segment) :
    D = A.map toMessage ∧ a.cursor = 0 := by
  obtain ⟨j, i, hj, hpay, hD, h0, hpos⟩ := h.position
  have hlen := congrArg List.length (hpay.symm.trans hC)
  rw [← List.take_append_drop j A, List.flatMap_append, List.length_append,
    List.length_append, List.take_append_drop, Nat.add_left_cancel_iff] at hlen
  rcases Nat.lt_or_ge j A.length with hlt | hge
  · -- a message that is not complete has more pieces
    have hm : A[j]? = some A[j] := List.getElem?_eq_getElem hlt
    rw [segmentAt, hm, Option.elim_some, List.drop_eq_getElem_cons hlt, List.flatMap_cons,
      List.length_append, List.length_take] at hlen
    have hmore : i < A[j].segment.length := by
      rcases Nat.eq_zero_or_pos i with rfl | hi
      · exact A[j].length_segment_pos
      · obtain ⟨m, hm', hin, -⟩ := hpos hi
        obtain rfl : A[j] = m := Option.some.inj (hm.symm.trans hm')
        rw [length_segment]
        exact (lt_count_iff (by norm_num)).mpr hin
    omega
  · obtain rfl : j = A.length := le_antisymm hj hge
    refine ⟨by rw [hD, List.take_length], ?_⟩
    rcases Nat.eq_zero_or_pos i with hi | hi
    · exact h0 hi
    · obtain ⟨m, hm, -⟩ := hpos hi
      rw [List.getElem?_eq_none (le_refl _)] at hm
      cases hm

end Assembled

/-! ## A run that cuts a list of messages -/

namespace SenderSys

open Sender

/-- Expiries happen only while the timer is set, and the buffer is never overfull. -/
def Orderly (σ : SenderSys) (e : SenderEvent) (σ' : SenderSys) : Prop :=
  ExpiresSet σ e σ' ∧ BufferFits σ e σ'

lemma stream_of_orderly {σ : SenderSys} (h : Run step Orderly Init σ) :
    Stream σ.accepted σ.built σ.snd :=
  stream_of_run (retaining_of_bufferFits (h.mono fun _ _ _ _ hok => hok.2))

lemma timerRight_of_orderly {σ : SenderSys} (h : Run step Orderly Init σ) :
    Resting σ ∧ TimerRight σ :=
  resting_timerRight (fun _ _ _ hok => hok.1) h

/-- While a message is waiting, the ack of the last packet makes the sender build more. -/
lemma exists_ack_step {σ : SenderSys} (h : Run step Orderly Init σ)
    (hsize : ∀ m ∈ σ.accepted, m.data.length ≤ 2 ^ 31 - 5) (hlt : σ.snd.pktSeq < 2 ^ 31)
    (hwait : σ.snd.curMessageSeq < σ.snd.nextMessageSeq) :
    ∃ σ', Run step Orderly Init σ' ∧ σ'.accepted = σ.accepted ∧
      σ.built.length < σ'.built.length := by
  obtain ⟨⟨hc, hn⟩, ht⟩ := timerRight_of_orderly h
  have hout := ht.timer_iff.mp (ht.waiting hwait)
  have hnn := hc.ack_nonneg
  obtain ⟨ack, hver, hseq⟩ : ∃ ack : Packet, rdtVerifyChecksum ack = true ∧
      ack.seq = σ.snd.pktSeq - 1 :=
    ⟨receiverAck .zero (σ.snd.pktSeq - 1), by simp, seq_receiverAck _ (by omega) (by omega)⟩
  have hs : Stream σ.accepted σ.built (σ.snd.slide ack.seq) :=
    (stream_of_orderly h).congr rfl rfl rfl rfl
  obtain ⟨c, hc'⟩ := hs.exists_constructPKT hsize .zero
  obtain ⟨o, ho⟩ := constructAndSend_isSome hc'
  have hin : σ.snd.ackExpected ≤ ack.seq ∧ ack.seq < σ.snd.pktSeq := by omega
  obtain ⟨σ', he⟩ : ∃ σ', σ.step (.fromLowerLayer ack .zero) = some σ' := by
    simp [step, handle, fromLowerLayer, hver, hin, ho]
  have hok : Orderly σ (.fromLowerLayer ack .zero) σ' :=
    ⟨fun _ heq => (by cases heq), fun _ _ heq => (by cases heq)⟩
  refine ⟨σ', h.next he hok, ?_⟩
  rcases step_cases he with ⟨_, _, heq, -⟩ | ⟨_, _, _, heq, -⟩ | ⟨_, _, heq, hpkt, -⟩ |
    ⟨_, _, o', heq, -, h₁, h₂, ho', rfl⟩ | ⟨_, _, heq, -⟩
  · cases heq
  · cases heq
  · cases heq
    rcases hpkt with hbad | hrange
    · rw [hver] at hbad; cases hbad
    · exact absurd hin hrange
  · cases heq
    have hwin := hc.window_eq
    obtain ⟨-, -, -, -, hbuilt, -, hgrow⟩ := (hc.slide h₁ h₂).constructAndSend (le_of_eq hn) ho'
    have hgt := hgrow (by simp only [Sender.slide]; omega) hwait
    refine ⟨rfl, ?_⟩
    show σ.built.length < (σ.built ++ o'.built).length
    simp only [Sender.slide] at hbuilt hgt
    rw [List.length_append]
    omega
  · cases heq

lemma length_built_le {σ : SenderSys} (h : Run step Orderly Init σ) :
    σ.built.length ≤ (σ.accepted.flatMap segment).length := by
  have hle := (payload_isPrefix (stream_of_orderly h)).length_le
  rwa [List.length_map] at hle

/-- As long as the cut is not at the end of what was accepted, it can be moved on. -/
lemma exists_longer {σ : SenderSys} (h : Run step Orderly Init σ)
    (hsize : ∀ m ∈ σ.accepted, m.data.length ≤ 2 ^ 31 - 5)
    (htotal : (σ.accepted.flatMap segment).length < 2 ^ 31 - 10)
    (hne : σ.snd.curMessageSeq ≠ σ.snd.nextMessageSeq) :
    ∃ σ', Run step Orderly Init σ' ∧ σ'.accepted = σ.accepted ∧
      σ.built.length < σ'.built.length := by
  obtain ⟨hr, hw⟩ := resting_windowed h
  have hcur := hr.1.cur_le
  have hlen := hw.length_eq
  have hle := length_built_le h
  exact exists_ack_step h hsize (by omega) (by omega)

/-- Acks alone bring the cut to the end of what was accepted. -/
lemma exists_cut : ∀ (n : ℕ) {σ : SenderSys}, Run step Orderly Init σ →
    (∀ m ∈ σ.accepted, m.data.length ≤ 2 ^ 31 - 5) →
    (σ.accepted.flatMap segment).length < 2 ^ 31 - 10 →
    (σ.accepted.flatMap segment).length - σ.built.length ≤ n →
    ∃ σ', Run step Orderly Init σ' ∧ σ'.accepted = σ.accepted ∧
      σ'.snd.curMessageSeq = σ'.snd.nextMessageSeq := by
  -- by induction on the packets that are left to build
  intro n
  induction n with
  | zero =>
    intro σ h hsize htotal hn
    refine ⟨σ, h, rfl, ?_⟩
    by_contra hne
    obtain ⟨σ', h', hacc, hmore⟩ := exists_longer h hsize htotal hne
    have hle := length_built_le h'
    rw [hacc] at hle
    omega
  | succ n ih =>
    intro σ h hsize htotal hn
    by_cases hdone : σ.snd.curMessageSeq = σ.snd.nextMessageSeq
    · exact ⟨σ, h, rfl, hdone⟩
    · obtain ⟨σ₁, h₁, hacc, hmore⟩ := exists_longer h hsize htotal hdone
      rw [← hacc] at hsize htotal hn
      obtain ⟨σ', h', hacc', hdone'⟩ := ih h₁ hsize htotal (by omega)
      exact ⟨σ', h', hacc'.trans hacc, hdone'⟩

/-- A message can always be handed over when none is waiting. -/
lemma exists_accept_step {σ : SenderSys} (h : Run step Orderly Init σ)
    (hdone : σ.snd.curMessageSeq = σ.snd.nextMessageSeq) (m : UpperMessage)
    (hsize : ∀ x ∈ σ.accepted ++ [m], x.data.length ≤ 2 ^ 31 - 5) :
    ∃ σ', Run step Orderly Init σ' ∧ σ'.accepted = σ.accepted ++ [m] := by
  have hc := (resting_windowed h).1.1
  have hbuf := hc.buffer_eq
  have hfits : Fits σ.snd m := Or.inl (by rw [hdone]; norm_num)
  have hs := (stream_of_orderly h).enqueue hc.cur_le hfits
  obtain ⟨c, hc'⟩ := hs.exists_constructPKT hsize .zero
  obtain ⟨o, ho⟩ := constructAndSend_isSome hc'
  obtain ⟨σ', he⟩ : ∃ σ', σ.step (.fromUpperLayer m .zero) = some σ' := by
    cases htimer : σ.timer with
    | true => simp [step, handle, fromUpperLayer, htimer]
    | false => simp [step, handle, fromUpperLayer, htimer, ho]
  have hok : Orderly σ (.fromUpperLayer m .zero) σ' := by
    refine ⟨fun _ heq => (by cases heq), fun _ _ _ => ?_⟩
    rw [hbuf, hdone]
    norm_num
  refine ⟨σ', h.next he hok, ?_⟩
  rcases step_cases he with ⟨_, _, heq, -, rfl⟩ | ⟨_, _, _, heq, -, -, rfl⟩ | ⟨_, _, heq, -⟩ |
    ⟨_, _, _, heq, -⟩ | ⟨_, _, heq, -⟩
  · cases heq; rfl
  · cases heq; rfl
  all_goals cases heq

/-- **Every list of messages can be cut**: there is a run that accepts exactly these messages
and in which none is left waiting. -/
theorem exists_run_accepting (A : List UpperMessage) :
    (∀ m ∈ A, m.data.length ≤ 2 ^ 31 - 5) → (A.flatMap segment).length < 2 ^ 31 - 10 →
    ∃ σ, Run step Orderly Init σ ∧ σ.accepted = A ∧
      σ.snd.curMessageSeq = σ.snd.nextMessageSeq := by
  induction A using List.reverseRecOn with
  | nil =>
    intro _ _
    exact ⟨_, .start ⟨Ring.fill _ .zero, rfl⟩, rfl, rfl⟩
  | append_singleton A m ih =>
    intro hsize htotal
    have hshort : (A.flatMap segment).length < 2 ^ 31 - 10 := by
      rw [List.flatMap_append, List.length_append] at htotal
      omega
    obtain ⟨σ, h, rfl, hdone⟩ :=
      ih (fun x hx => hsize x (List.mem_append_left _ hx)) hshort
    obtain ⟨σ₁, h₁, hacc⟩ := exists_accept_step h hdone m hsize
    rw [← hacc] at hsize htotal ⊢
    exact exists_cut _ h₁ hsize htotal (le_refl _)

/-! ## Feeding the receiver in order -/

/-- A receiver that is fed the packets of a numbered list in order consumes and acknowledges
each of them. -/
lemma receive_inOrder {B : List Packet} (hnum : Numbered B) (hB : (B.length : ℤ) < 2 ^ 31)
    (fresh : ℤ → ℕ → Byte) (w : Ring windowsSize Packet) {as : List (Packet × Packet)}
    (has : as.map Prod.fst = B) :
    ∃ ρ L, (ReceiverSys.init w).run fresh as = some ρ ∧ ReceiverSys.Refines fresh ρ L ∧
      ρ.consumed = B ∧ ρ.acks.map Packet.seq = (List.range B.length).map fun i : ℕ => (i : ℤ) := by
  have hver : ∀ a ∈ as, rdtVerifyChecksum a.1 = true := by
    intro a ha
    have hmem : a.1 ∈ B := by rw [← has]; exact List.mem_map_of_mem ha
    obtain ⟨k, hk, hp⟩ := List.mem_iff_getElem.mp hmem
    exact (hnum k a.1 (by rw [List.getElem?_eq_getElem hk, hp])).2
  obtain ⟨ρ, hrun, href⟩ := (ReceiverSys.Refines.init fresh w).run as hver
  have hseqs : (as.map fun a => (a.1.seq, a.1)).map Prod.fst =
      (List.range B.length).map fun i : ℕ => (0 : ℤ) + i := by
    have h := map_seq_drop hnum hB (Nat.zero_le _)
    rw [List.drop_zero, Nat.sub_zero, ← has, List.map_map] at h
    rw [List.map_map, ← has]
    exact h
  have hpkts : (as.map fun a => (a.1.seq, a.1)).map Prod.snd = B := by
    rw [List.map_map, ← has]; rfl
  have hlen : (as.map fun a => (a.1.seq, a.1)).length = B.length := by
    rw [← has, List.length_map, List.length_map]
  have hlog := ReorderBuffer.Log.foldl_arrive_inOrder 10 (as.map fun a => (a.1.seq, a.1)) 0 [] []
    (by rw [hlen]; exact hseqs)
  have hcons := href.consumed_eq
  have hacks := href.acks_eq
  rw [show (ReorderBuffer.empty : ReorderBuffer Packet) = ⟨0, ∅⟩ from rfl, hlog] at hcons hacks
  refine ⟨ρ, _, hrun, href, ?_, ?_⟩
  · rw [hcons, List.nil_append, hpkts]
  · rw [hacks, List.nil_append, hseqs]
    simp

/-- **Reassembly undoes segmentation.** Every list of messages can be cut by the sender, and
whenever it has been cut completely, the receiver that is fed the packets in order hands each
message to the upper layer once and in order, acknowledges `0, 1, 2, ...`, and is left between
two messages. -/
theorem reassembly_undoes_segmentation (A : List UpperMessage)
    (hsize : ∀ m ∈ A, m.data.length ≤ 2 ^ 31 - 5)
    (htotal : (A.flatMap segment).length < 2 ^ 31 - 10) :
    (∃ σ, Run step BufferFits Init σ ∧ σ.accepted = A ∧
      σ.snd.curMessageSeq = σ.snd.nextMessageSeq) ∧
    ∀ σ, Run step BufferFits Init σ → σ.accepted = A →
      σ.snd.curMessageSeq = σ.snd.nextMessageSeq →
      ∀ (fresh : ℤ → ℕ → Byte) (w : Ring windowsSize Packet) (as : List (Packet × Packet)),
        as.map Prod.fst = σ.built →
        ∃ ρ, (ReceiverSys.init w).run fresh as = some ρ ∧
          ρ.delivered = A.map toMessage ∧
          ρ.acks.map Packet.seq = (List.range σ.built.length).map (fun i : ℕ => (i : ℤ)) ∧
          ρ.rcv.cursor = 0 := by
  constructor
  · obtain ⟨σ, h, hacc, hdone⟩ := exists_run_accepting A hsize htotal
    exact ⟨σ, h.mono fun _ _ _ _ hok => hok.2, hacc, hdone⟩
  · rintro σ h rfl hdone fresh w as has
    have hs := stream_of_run (retaining_of_bufferFits h)
    have hpay := payload_eq hs hdone
    have hB : (σ.built.length : ℤ) < 2 ^ 31 := by
      have hlen := congrArg List.length hpay
      rw [List.length_map] at hlen
      omega
    obtain ⟨ρ, L, hrun, href, hcons, hacks⟩ :=
      receive_inOrder (resting_windowed h).2.numbered hB fresh w has
    have hasm := (Assembled.init σ.accepted (a := .start) rfl).feed fresh σ.built 0 hs.sizes
      (by rw [List.nil_append, hpay])
    rw [List.nil_append, List.nil_append, ← hcons, ← href.assembly_eq, ← href.delivered_eq,
      hcons] at hasm
    obtain ⟨hdel, hcursor⟩ := hasm.complete hpay
    exact ⟨ρ, hrun, hdel, hacks, hcursor⟩

/-- The packets of the rough history, in order, deliver both messages. -/
theorem rough_delivered : ∃ ρ,
    (ReceiverSys.init (Ring.fill _ .zero)).run (fun _ _ => 0)
      (rough.built.map fun p => (p, .zero)) = some ρ ∧
    ρ.delivered = [paragraph.toMessage, word.toMessage] := by
  obtain ⟨ρ, hρ, hdel, -⟩ := (reassembly_undoes_segmentation [paragraph, word] rough_sizes
    (by rw [rough_segments]; norm_num)).2 rough run_rough_bufferFits rough_accepted
    rough_counters.2.2 (fun _ _ => 0) (Ring.fill _ .zero) (rough.built.map fun p => (p, .zero))
    (by rw [List.map_map]; exact List.map_id _)
  exact ⟨ρ, hρ, hdel⟩

end SenderSys
end NetLabs.Rdt
