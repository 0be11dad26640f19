import NetLabs.Rdt.HeapReceiver
import NetLabs.Rdt.ReceiverBounds

/-!
# The receiver and any packets

`Receiver_FromLowerLayer` looks at the checksum and at the sequence number of a packet, and then
copies as the packet says. `Progress.Fits` is what the packet must say, `AllFit` says it of all that
are consumed, in their order. While they fit, the receiver with its pointers does what the one
without them does; the first that does not is a fault (`HeapReceiver.fromLowerLayer_spec`).

So the ring refines a reorder buffer for exactly those arrivals of which the reorder buffer consumes
packets that fit (`receiver_refines_reorder_buffer`). The packets of the sender do
(`copies_in_bounds`). -/

namespace NetLabs.Rdt

open NetLabs.Lib NetLabs.Lib.Bytes

/-! ## Packets that fit -/

/-- How far the message under construction has come: `cur_msg->size` and `cursor`. -/
structure Progress where
  size : ℤ
  cursor : ℤ

namespace Progress

/-- After `Receiver_Init`. -/
def start : Progress := ⟨0, 0⟩

/-- The copy that a packet asks for stays inside the packet and inside the message. -/
def Fits (q : Progress) (pkt : Packet) : Prop :=
  if q.cursor = 0 then
    4 ≤ pkt.payloadSize ∧ pkt.payloadSize ≤ maxPayloadSize ∧
      pkt.payloadSize - 4 ≤ readInt (slice pkt.data headerSize 4)
  else 0 ≤ pkt.payloadSize ∧ pkt.payloadSize ≤ maxPayloadSize ∧
    q.cursor + pkt.payloadSize ≤ q.size

instance (q : Progress) (pkt : Packet) : Decidable (q.Fits pkt) := by
  unfold Fits
  infer_instance

/-- After the copy. -/
def copy (q : Progress) (pkt : Packet) : Progress :=
  if q.cursor = 0 then ⟨readInt (slice pkt.data headerSize 4), pkt.payloadSize - 4⟩
  else ⟨q.size, q.cursor + pkt.payloadSize⟩

/-- A complete message is handed on. -/
def deliver (q : Progress) : Progress := if q.size = q.cursor then ⟨q.size, 0⟩ else q

/-- After a packet. -/
def consume (q : Progress) (pkt : Packet) : Progress := (q.copy pkt).deliver

/-- The packets fit, one after the other. -/
def AllFit : Progress → List Packet → Prop
  | _, [] => True
  | q, p :: ps => q.Fits p ∧ (q.consume p).AllFit ps

instance decidableAllFit : ∀ (q : Progress) (ps : List Packet), Decidable (q.AllFit ps)
  | _, [] => isTrue trivial
  | q, p :: ps => @instDecidableAnd _ _ _ (decidableAllFit (q.consume p) ps)

lemma allFit_append : ∀ (ps qs : List Packet) (q : Progress),
    q.AllFit (ps ++ qs) ↔ q.AllFit ps ∧ (ps.foldl consume q).AllFit qs := by
  intro ps
  induction ps with
  | nil => intro qs q; exact (true_and _).symm.to_iff
  | cons p ps ih =>
    intro qs q
    rw [List.cons_append, AllFit, ih, AllFit, and_assoc]
    rfl

end Progress

namespace Assembly

/-- A copy inside the packet and inside the block, into the message it belongs to. -/
structure CopyFits (fresh : ℕ → Byte) (pkt : Packet) (a : Assembly) : Prop where
  read : (a.memcpy pkt).source + (a.memcpy pkt).count ≤ pktSize
  write : 0 ≤ (a.memcpy pkt).target ∧
    (a.memcpy pkt).target + (a.memcpy pkt).count ≤ (a.block fresh pkt).length
  used : a.cursor ≠ 0 → a.curMsg.size ≠ 0
  length : ((a.copy fresh pkt).curMsg.data.length : ℤ) = (a.copy fresh pkt).curMsg.size
  empty : (a.copy fresh pkt).curMsg.size = 0 → (a.copy fresh pkt).cursor = 0

/-- The message under construction in numbers. -/
def progress (a : Assembly) : Progress := ⟨a.curMsg.size, a.cursor⟩

/-- A packet moves it on, whether it fits or not. -/
lemma progress_consume (fresh : ℕ → Byte) (pkt : Packet) (a : Assembly) :
    (a.consume fresh pkt).1.progress = a.progress.consume pkt := by
  have hcopy : (a.copy fresh pkt).progress = a.progress.copy pkt := by
    unfold copy Progress.copy progress
    by_cases hzero : a.cursor = 0
    · rw [if_pos hzero, if_pos hzero, firstPacket, hzero, zero_add]
    · rw [if_neg hzero, if_neg hzero, laterPacket]
  unfold consume Progress.consume
  rw [← hcopy]
  generalize a.copy fresh pkt = b
  unfold deliver Progress.deliver progress
  dsimp only
  by_cases hdone : b.curMsg.size = b.cursor
  · rw [if_pos hdone, if_pos hdone]
  · rw [if_neg hdone, if_neg hdone]

/-- The block is as long as the message says, and the cursor is inside. -/
structure Sized (a : Assembly) : Prop where
  length : (a.curMsg.data.length : ℤ) = a.curMsg.size
  cursor_nonneg : 0 ≤ a.cursor
  cursor_le : a.cursor ≤ a.curMsg.size

variable {fresh : ℕ → Byte} {pkt : Packet} {a : Assembly}

/-- The copy of a packet that fits. -/
lemma Sized.copy (h : a.Sized) (hfit : a.progress.Fits pkt) : (a.copy fresh pkt).Sized := by
  have hlen := h.length
  have hpos := h.cursor_nonneg
  unfold Progress.Fits progress at hfit
  unfold Assembly.copy
  by_cases hzero : a.cursor = 0
  · rw [if_pos hzero] at hfit
    rw [if_pos hzero]
    refine ⟨?_, ?_, ?_⟩
    · simp only [firstPacket, length_overwrite, List.length_map, List.length_range]
      omega
    · simp only [firstPacket]
      omega
    · simp only [firstPacket]
      omega
  · rw [if_neg hzero] at hfit
    dsimp only at hfit
    rw [if_neg hzero]
    refine ⟨?_, ?_, ?_⟩
    · simp only [laterPacket, length_overwrite]
      exact hlen
    · simp only [laterPacket]
      omega
    · simp only [laterPacket]
      omega

lemma Sized.consume (h : a.Sized) (hfit : a.progress.Fits pkt) :
    (a.consume fresh pkt).1.Sized := by
  have hcopy : (a.copy fresh pkt).Sized := h.copy hfit
  have hle := hcopy.cursor_nonneg.trans hcopy.cursor_le
  unfold Assembly.consume deliver
  split
  · exact ⟨hcopy.length, le_refl 0, hle⟩
  · exact hcopy

lemma Sized.copyFits (h : a.Sized) (hfit : a.progress.Fits pkt) : a.CopyFits fresh pkt := by
  have hcopy : (a.copy fresh pkt).Sized := h.copy hfit
  have hlen := h.length
  have hpos := h.cursor_nonneg
  have hle := h.cursor_le
  have hmax : (maxPayloadSize : ℤ) = 119 := rfl
  have hempty : (a.copy fresh pkt).curMsg.size = 0 → (a.copy fresh pkt).cursor = 0 := by
    have hpos' := hcopy.cursor_nonneg
    have hle' := hcopy.cursor_le
    omega
  unfold Progress.Fits progress at hfit
  by_cases hzero : a.cursor = 0
  · rw [if_pos hzero] at hfit
    have hcount : (sizeT (pkt.payloadSize - 4) : ℤ) = pkt.payloadSize - 4 := by
      unfold sizeT
      omega
    refine ⟨?_, ?_, fun hne => absurd hzero hne, hcopy.length, hempty⟩
    · simp only [memcpy, if_pos hzero, headerSize, pktSize]
      omega
    · simp only [memcpy, block, if_pos hzero, List.length_map, List.length_range]
      omega
  · rw [if_neg hzero] at hfit
    dsimp only at hfit
    have hcount : (sizeT pkt.payloadSize : ℤ) = pkt.payloadSize := by
      unfold sizeT
      omega
    refine ⟨?_, ?_, fun _ => by omega, hcopy.length, hempty⟩
    · simp only [memcpy, if_neg hzero, headerSize, pktSize]
      omega
    · simp only [memcpy, block, if_neg hzero]
      omega

end Assembly

/-! ## One round -/

/-- An entry with a block of its size. -/
lemma MessageRef.view_of_block {heap : Heap Byte} {m : MessageRef} {bs : List Byte}
    (hb : heap.block m.data = some bs) (hlen : (bs.length : ℤ) = m.size) :
    m.view heap = ⟨m.size, bs⟩ := by
  rw [MessageRef.view, Heap.contents_of_block hb]
  split_ifs with hsize
  · have hnil : bs = [] := List.length_eq_zero_iff.mp (by omega)
    rw [hnil]
  · rfl

namespace HeapAssembly

/-- The current message has its block, and besides it there are `n` blocks that nothing points
to. -/
structure Tidy (n : ℕ) (a : HeapAssembly) : Prop where
  block : a.curMsg.size ≠ 0 → ∃ bs, a.heap.block a.curMsg.data = some bs
  live : a.heap.live = n + if a.curMsg.size = 0 then 0 else 1

/-- The block of the message before is freed, unless that was empty. -/
lemma Tidy.release {n : ℕ} {a : HeapAssembly} (h : a.Tidy n) :
    ∃ heap, a.curMsg.release a.heap = .ok heap ∧ heap.live = n := by
  have hlive := h.live
  unfold MessageRef.release
  by_cases hsize : a.curMsg.size = 0
  · rw [if_pos hsize] at hlive
    exact ⟨a.heap, if_neg (not_not.mpr hsize), hlive⟩
  · rw [if_neg hsize] at hlive
    obtain ⟨bs, hbs⟩ := h.block hsize
    have hfreed := Heap.live_set none hbs
    rw [Option.isSome_none, if_neg Bool.false_ne_true] at hfreed
    refine ⟨_, (if_pos hsize).trans (Heap.free_eq hbs), by omega⟩

/-- What a packet leaves behind: the message it belongs to, with a block of its length. -/
structure Copied (n : ℕ) (a : HeapAssembly) : Prop where
  block : ∃ bs, a.heap.block a.curMsg.data = some bs ∧ (bs.length : ℤ) = a.curMsg.size
  live : a.heap.live = n + 1
  empty : a.curMsg.size = 0 → a.cursor = 0

variable {n : ℕ} {a : HeapAssembly} {fresh : ℕ → Byte} {pkt : Packet}

/-- The first packet of a message is copied into a new block. -/
lemma Tidy.firstPacket (h : a.Tidy n) (hzero : a.cursor = 0) (hfit : a.view.CopyFits fresh pkt) :
    ∃ a', a.firstPacket fresh pkt = .ok a' ∧ a'.view = a.view.firstPacket fresh pkt ∧
      a'.Copied n := by
  obtain ⟨heap, hfree, hlive⟩ := h.release
  have hview : a.view.cursor = 0 := hzero
  obtain ⟨hread, ⟨-, hwrite⟩, -, hlen, hempty⟩ := hfit
  simp only [Assembly.memcpy, Assembly.block, Assembly.copy, if_pos hview]
    at hread hwrite hlen hempty
  simp only [Assembly.firstPacket, length_overwrite] at hlen hempty
  set bs := (List.range (readInt (slice pkt.data headerSize 4)).toNat).map fresh with hbs
  set bytes := slice pkt.data (headerSize + 4) (sizeT (pkt.payloadSize - 4)) with hbytes
  have hcount : bytes.length ≤ sizeT (pkt.payloadSize - 4) := by
    rw [hbytes, length_slice]
    exact Nat.min_le_left _ _
  have hb : (heap.malloc bs).1.block (heap.malloc bs).2 = some bs := by
    rw [Heap.block_malloc, if_pos rfl]
  obtain ⟨heap', hw, hb', hlive'⟩ := Heap.exists_write hb (le_refl 0)
    (show 0 + (bytes.length : ℤ) ≤ bs.length by omega)
  have hlen' : ((overwrite bs (0 : ℤ).toNat bytes).length : ℤ) =
      readInt (slice pkt.data headerSize 4) := by
    rw [length_overwrite]
    exact hlen
  refine ⟨⟨⟨readInt (slice pkt.data headerSize 4), (heap.malloc bs).2⟩,
    a.cursor + (pkt.payloadSize - 4), heap'⟩, ?_, ?_, ⟨_, hb', hlen'⟩, ?_, hempty⟩
  · unfold HeapAssembly.firstPacket
    rw [hfree]
    change (Packet.read _ _ _ >>= _) = _
    rw [Packet.read, if_pos hread]
    change (writeFirst _ _ _ _ >>= _) = _
    rw [writeFirst, if_pos (by omega), hw]
    rfl
  · rw [HeapAssembly.view, MessageRef.view_of_block hb' hlen']
    rfl
  · show heap'.live = n + 1
    rw [hlive', Heap.live_malloc, hlive]

/-- A later packet is copied behind the cursor. -/
lemma Tidy.laterPacket (h : a.Tidy n) (hne : a.cursor ≠ 0) (hfit : a.view.CopyFits fresh pkt) :
    ∃ a', a.laterPacket pkt = .ok a' ∧ a'.view = a.view.laterPacket pkt ∧ a'.Copied n := by
  have hview : a.view.cursor ≠ 0 := hne
  have hused : a.curMsg.size ≠ 0 := hfit.used hne
  have hlive := h.live
  rw [if_neg hused] at hlive
  obtain ⟨bs, hbs⟩ := h.block hused
  have hdata : a.view.curMsg.data = bs := by
    show (if a.curMsg.size = 0 then _ else _) = _
    rw [if_neg hused, Heap.contents_of_block hbs]
  obtain ⟨hread, ⟨hpos, hwrite⟩, -, hlen, -⟩ := hfit
  simp only [Assembly.memcpy, Assembly.block, Assembly.copy, if_neg hview] at hread hwrite hlen hpos
  simp only [Assembly.laterPacket, length_overwrite] at hlen
  rw [hdata] at hwrite hlen
  set bytes := slice pkt.data headerSize (sizeT pkt.payloadSize) with hbytes
  have hcount : bytes.length ≤ sizeT pkt.payloadSize := by
    rw [hbytes, length_slice]
    exact Nat.min_le_left _ _
  have hcursor : a.view.cursor = a.cursor := rfl
  obtain ⟨heap', hw, hb', hlive'⟩ := Heap.exists_write hbs (show 0 ≤ a.cursor from hpos)
    (show a.cursor + (bytes.length : ℤ) ≤ bs.length by omega)
  have hlen' : ((overwrite bs a.cursor.toNat bytes).length : ℤ) = a.curMsg.size := by
    rw [length_overwrite]
    exact hlen
  refine ⟨{ a with heap := heap', cursor := a.cursor + pkt.payloadSize }, ?_, ?_,
    ⟨_, hb', hlen'⟩, hlive'.trans hlive, fun hzero => absurd hzero hused⟩
  · unfold HeapAssembly.laterPacket
    rw [Packet.read, if_pos hread]
    change (Heap.write _ _ _ _ >>= _) = _
    rw [hw]
    rfl
  · rw [HeapAssembly.view, MessageRef.view_of_block hb' hlen', Assembly.laterPacket, hdata]
    rfl

/-- **One round does not fault**, and it forgets a block exactly when it delivers an empty
message. -/
lemma Tidy.consume (h : a.Tidy n) (hfit : a.view.CopyFits fresh pkt) :
    ∃ a' D, a.consume fresh pkt = .ok (a', D) ∧
      (a'.view, D) = a.view.consume fresh pkt ∧ a'.Tidy (n + D.countP fun m => m.size = 0) := by
  obtain ⟨a₁, ha₁, hview, hcopied⟩ : ∃ a₁, a.copy fresh pkt = .ok a₁ ∧
      a₁.view = a.view.copy fresh pkt ∧ a₁.Copied n := by
    unfold HeapAssembly.copy Assembly.copy
    rw [show a.view.cursor = a.cursor from rfl]
    by_cases hzero : a.cursor = 0
    · rw [if_pos hzero, if_pos hzero]
      exact h.firstPacket hzero hfit
    · rw [if_neg hzero, if_neg hzero]
      exact h.laterPacket hzero hfit
  obtain ⟨bs, hbs, hlen⟩ := hcopied.block
  have hmsg := MessageRef.view_of_block hbs hlen
  have hlive := hcopied.live
  unfold HeapAssembly.consume Assembly.consume
  rw [ha₁, ← hview]
  show ∃ a' D, a₁.deliver = _ ∧ _
  unfold HeapAssembly.deliver Assembly.deliver
  rw [show a₁.view.curMsg = ⟨a₁.curMsg.size, bs⟩ from hmsg,
    show a₁.view.cursor = a₁.cursor from rfl]
  dsimp only
  by_cases hdone : a₁.curMsg.size = a₁.cursor
  · rw [if_pos hdone, if_pos hdone]
    have hread := Heap.read_eq hbs (le_refl 0) (show 0 ≤ a₁.curMsg.size by omega) (by omega)
    have hall : slice bs (0 : ℤ).toNat a₁.curMsg.size.toNat = bs := by
      rw [slice]
      exact List.take_of_length_le (by rw [List.length_drop]; omega)
    rw [hread, hall]
    refine ⟨{ a₁ with cursor := 0 }, _, rfl, ?_, fun _ => ⟨bs, hbs⟩, ?_⟩
    · rw [HeapAssembly.view, hmsg]
    show a₁.heap.live = _ + if a₁.curMsg.size = 0 then 0 else 1
    rw [List.countP_cons, List.countP_nil]
    by_cases hsize : a₁.curMsg.size = 0
    · simp only [hsize, decide_true, if_true]
      omega
    · simp only [hsize, decide_false, Bool.false_eq_true, if_false]
      omega
  · rw [if_neg hdone, if_neg hdone]
    have hused : a₁.curMsg.size ≠ 0 := fun hzero => hdone (hzero.trans (hcopied.empty hzero).symm)
    refine ⟨_, _, rfl, rfl, fun _ => ⟨bs, hbs⟩, ?_⟩
    rw [if_neg hused, List.countP_nil]
    omega

/-- The first packet of a message, when it does not fit. -/
lemma Tidy.firstPacket_error (h : a.Tidy n) (hbad : ¬ (4 ≤ pkt.payloadSize ∧
    pkt.payloadSize ≤ maxPayloadSize ∧
    pkt.payloadSize - 4 ≤ readInt (slice pkt.data headerSize 4))) :
    ∃ f, a.firstPacket fresh pkt = .error f := by
  obtain ⟨heap, hfree, -⟩ := h.release
  obtain ⟨hlo, hhi⟩ := pkt.payloadSize_mem
  unfold HeapAssembly.firstPacket
  rw [hfree]
  change ∃ f, (Packet.read _ _ _ >>= _) = _
  unfold Packet.read
  by_cases hread : headerSize + 4 + sizeT (pkt.payloadSize - 4) ≤ pktSize
  · -- the bytes are there, but they are more than the message has
    rw [if_pos hread]
    change ∃ f, (writeFirst _ _ _ _ >>= _) = _
    have hcount : (sizeT (pkt.payloadSize - 4) : ℤ) = pkt.payloadSize - 4 ∧
        pkt.payloadSize ≤ 119 := by
      unfold sizeT headerSize pktSize at *
      omega
    have hmax : (maxPayloadSize : ℤ) = 119 := rfl
    have hwrite : ∀ bs, heap.malloc ((List.range
        (readInt (slice pkt.data headerSize 4)).toNat).map fresh) = bs →
        writeFirst bs.1 bs.2 (readInt (slice pkt.data headerSize 4)) (slice pkt.data
          (headerSize + 4) (sizeT (pkt.payloadSize - 4))) = .error .write := by
      rintro _ rfl
      unfold writeFirst
      split
      · refine Heap.write_eq_error (Heap.block_malloc_self _ _) ?_
        rw [length_slice, pkt.length_data, List.length_map, List.length_range]
        unfold headerSize pktSize at *
        omega
      · rfl
    rw [hwrite _ rfl]
    exact ⟨_, rfl⟩
  · rw [if_neg hread]
    exact ⟨_, rfl⟩

/-- A later packet, when it does not fit. -/
lemma Tidy.laterPacket_error (h : a.Tidy n) (hs : a.view.Sized) (hne : a.cursor ≠ 0)
    (hbad : ¬ (0 ≤ pkt.payloadSize ∧ pkt.payloadSize ≤ maxPayloadSize ∧
      a.cursor + pkt.payloadSize ≤ a.curMsg.size)) :
    ∃ f, a.laterPacket pkt = .error f := by
  obtain ⟨hlo, hhi⟩ := pkt.payloadSize_mem
  have hpos : 0 ≤ a.cursor := hs.cursor_nonneg
  have hle : a.cursor ≤ a.curMsg.size := hs.cursor_le
  have hmax : (maxPayloadSize : ℤ) = 119 := rfl
  obtain ⟨bs, hbs⟩ := h.block (by omega)
  have hlen : (bs.length : ℤ) = a.curMsg.size := by
    have hdata : a.view.curMsg.data = bs := by
      show (if a.curMsg.size = 0 then _ else _) = _
      rw [if_neg (by omega), Heap.contents_of_block hbs]
    rw [← hdata]
    exact hs.length
  unfold HeapAssembly.laterPacket Packet.read
  by_cases hread : headerSize + sizeT pkt.payloadSize ≤ pktSize
  · rw [if_pos hread]
    change ∃ f, (Heap.write _ _ _ _ >>= _) = _
    rw [Heap.write_eq_error hbs]
    · exact ⟨_, rfl⟩
    · rw [length_slice, pkt.length_data]
      unfold sizeT headerSize pktSize at *
      omega
  · rw [if_neg hread]
    exact ⟨_, rfl⟩

/-- The blocks are in order, and the message under construction has come as far as `q`. -/
structure At (n : ℕ) (q : Progress) (a : HeapAssembly) : Prop where
  tidy : a.Tidy n
  sized : a.view.Sized
  progress_eq : a.view.progress = q

variable {q : Progress}

/-- A packet that fits is consumed as without the pointers. -/
lemma At.consume (fresh : ℕ → Byte) (h : a.At n q) (hfit : q.Fits pkt) :
    ∃ a' D, a.consume fresh pkt = .ok (a', D) ∧ (a'.view, D) = a.view.consume fresh pkt ∧
      a'.At (n + D.countP fun m => m.size = 0) (q.consume pkt) := by
  obtain ⟨htidy, hsized, rfl⟩ := h
  obtain ⟨a', D, ha', hview, htidy'⟩ := htidy.consume (hsized.copyFits hfit)
  have hasm : a'.view = (a.view.consume fresh pkt).1 := congrArg Prod.fst hview
  refine ⟨a', D, ha', hview, htidy', ?_, ?_⟩
  · rw [hasm]
    exact hsized.consume hfit
  · rw [hasm]
    exact Assembly.progress_consume _ _ _

/-- One that does not fit is a fault. -/
lemma At.consume_error (fresh : ℕ → Byte) (h : a.At n q) (hbad : ¬ q.Fits pkt) :
    ∃ f, a.consume fresh pkt = .error f := by
  obtain ⟨htidy, hsized, rfl⟩ := h
  unfold Progress.Fits at hbad
  change ¬ (if a.cursor = 0 then _ else _) at hbad
  obtain ⟨f, hf⟩ : ∃ f, a.copy fresh pkt = .error f := by
    unfold HeapAssembly.copy
    by_cases hzero : a.cursor = 0
    · rw [if_pos hzero] at hbad ⊢
      exact htidy.firstPacket_error hbad
    · rw [if_neg hzero] at hbad ⊢
      exact htidy.laterPacket_error hsized hzero hbad
  refine ⟨f, ?_⟩
  unfold HeapAssembly.consume
  rw [hf]
  rfl

end HeapAssembly

/-! ## `Receiver_FromLowerLayer` -/

namespace HeapReceiver

/-- The number of empty messages among those delivered. -/
def empties (D : List Message) : ℕ := D.countP fun m => m.size = 0

namespace Consume

lemma advance_logs (c : Consume) (a : HeapAssembly) (D : List Message) :
    (c.advance a D).rcv.toHeapAssembly = a ∧ (c.advance a D).delivered = c.delivered ++ D := by
  unfold advance
  dsimp only
  split
  · exact ⟨rfl, rfl⟩
  · exact ⟨rfl, rfl⟩

/-- The end of a round, seen without the pointers. -/
lemma advance_view {fresh : ℤ → ℕ → Byte} {c : Consume} {a : HeapAssembly} {D : List Message}
    (h : (a.view, D) = c.view.rcv.toAssembly.consume (fresh c.rcv.expected) c.pkt) :
    (c.advance a D).view = c.view.body fresh := by
  unfold Receiver.Consume.body
  rw [show c.view.rcv.expected = c.rcv.expected from rfl, show c.view.pkt = c.pkt from rfl, ← h]
  unfold advance
  show _ = if c.rcv.validChecks.get (c.rcv.expected + 1) then _ else _
  dsimp only
  split
  · rfl
  · rfl

end Consume

/-- **Specification of the consuming loop**: it does what the loop without the pointers does as long
as the packets that this one consumes fit, and faults otherwise. -/
theorem loop_spec (fresh : ℤ → ℕ → Byte) {k : ℕ} : ∀ (n : ℕ) {c : Consume} {c' : Receiver.Consume}
    {q : Progress}, c.rcv.At (k + empties c.delivered) q →
    While.run Receiver.Consume.running (Receiver.Consume.body fresh) n c.view = some c' →
    ∃ ps, c'.consumed = c.consumed ++ ps ∧
      (q.AllFit ps → ∃ d, While.runM Consume.running (Consume.body fresh) n c = .ok (some d) ∧
        d.view = c' ∧ d.rcv.At (k + empties d.delivered) (ps.foldl Progress.consume q)) ∧
      (¬ q.AllFit ps → ∃ f, While.runM Consume.running (Consume.body fresh) n c = .error f) := by
  intro n
  induction n with
  | zero =>
    intro c c' q hat h
    cases hc : c.running with
    | true => rw [While.run_zero_of_cond (show c.view.running = true from hc)] at h; cases h
    | false =>
      rw [While.run_of_not_cond (show c.view.running = false from hc)] at h
      obtain rfl := Option.some.inj h
      exact ⟨[], (List.append_nil _).symm, fun _ => ⟨c, While.runM_of_not_cond hc 0, rfl, hat⟩,
        fun hbad => absurd trivial hbad⟩
  | succ n ih =>
    intro c c' q hat h
    cases hc : c.running with
    | false =>
      rw [While.run_of_not_cond (show c.view.running = false from hc)] at h
      obtain rfl := Option.some.inj h
      exact ⟨[], (List.append_nil _).symm, fun _ => ⟨c, While.runM_of_not_cond hc _, rfl, hat⟩,
        fun hbad => absurd trivial hbad⟩
    | true =>
      rw [While.run_succ_of_cond (show c.view.running = true from hc)] at h
      have hlogs := (Receiver.Consume.body_logs fresh c.view).1
      rw [While.runM_succ_of_cond hc]
      unfold Consume.body
      by_cases hfit : q.Fits c.pkt
      · obtain ⟨a', D, ha', hview, hat'⟩ := hat.consume (fresh c.rcv.expected) hfit
        obtain ⟨hasm, hdel⟩ := c.advance_logs a' D
        have hbody := Consume.advance_view (c := c) hview
        rw [← hbody] at h hlogs
        have hat₁ : (c.advance a' D).rcv.At (k + empties (c.advance a' D).delivered)
            (q.consume c.pkt) := by
          rw [hasm, hdel, empties, List.countP_append, ← Nat.add_assoc]
          exact hat'
        obtain ⟨ps, hps, hok, herr⟩ := ih hat₁ h
        refine ⟨c.pkt :: ps, ?_, fun hall => ?_, fun hbad => ?_⟩
        · rw [hps, show (c.advance a' D).consumed = _ from hlogs, List.append_assoc]
          rfl
        · rw [ha']
          exact hok hall.2
        · rw [ha']
          exact herr fun hall => hbad ⟨hfit, hall⟩
      · obtain ⟨f, hf⟩ := hat.consume_error (fresh c.rcv.expected) hfit
        obtain ⟨ps, hps⟩ := Receiver.consumed_of_run h
        rw [hlogs, List.append_assoc] at hps
        refine ⟨c.pkt :: ps, hps, fun hall => absurd hall.1 hfit, fun _ => ⟨f, ?_⟩⟩
        rw [hf]
        rfl

lemma store_view (pkt : Packet) (r : HeapReceiver) :
    (r.store pkt).view = r.view.store pkt ∧ (r.store pkt).toHeapAssembly = r.toHeapAssembly := by
  unfold store Receiver.store
  show _ = (if r.validChecks.get pkt.seq then _ else _) ∧ _
  split
  · exact ⟨rfl, rfl⟩
  · exact ⟨rfl, rfl⟩

/-- **Specification of `Receiver_FromLowerLayer`**: it does what the handler without the pointers
does if the packets that this one consumes fit, and faults otherwise. -/
theorem fromLowerLayer_spec (fresh : ℤ → ℕ → Byte) (junk : Packet) {r : HeapReceiver} {k : ℕ}
    {q : Progress} {pkt : Packet} {o : Receiver.Outcome} (hat : r.At k q)
    (ho : r.view.fromLowerLayer fresh junk pkt = some o) :
    (q.AllFit o.consumed → ∃ o', r.fromLowerLayer fresh junk pkt = .ok (some o') ∧ o'.view = o ∧
      o'.rcv.At (k + empties o'.delivered) (o.consumed.foldl Progress.consume q)) ∧
    (¬ q.AllFit o.consumed → ∃ f, r.fromLowerLayer fresh junk pkt = .error f) := by
  unfold Receiver.fromLowerLayer at ho
  unfold fromLowerLayer
  cases hver : rdtVerifyChecksum pkt with
  | false =>
    rw [hver] at ho
    obtain rfl := Option.some.inj ho
    exact ⟨fun _ => ⟨_, rfl, rfl, hat⟩, fun hbad => absurd trivial hbad⟩
  | true =>
    rw [hver, Bool.not_true, if_neg Bool.false_ne_true,
      show r.view.expected = r.expected from rfl] at ho
    rw [Bool.not_true, if_neg Bool.false_ne_true]
    by_cases hearly : r.expected < pkt.seq ∧ pkt.seq < r.expected + windowsSize
    · rw [if_pos hearly] at ho ⊢
      obtain rfl := Option.some.inj ho
      obtain ⟨hview, hasm⟩ := r.store_view pkt
      refine ⟨fun _ => ⟨_, rfl, ?_, ?_⟩, fun hbad => absurd trivial hbad⟩
      · rw [← hview]
        rfl
      · show (r.store pkt).toHeapAssembly.At _ _
        rw [hasm]
        exact hat
    · rw [if_neg hearly] at ho ⊢
      by_cases hother : pkt.seq ≠ r.expected
      · rw [if_pos hother] at ho ⊢
        obtain rfl := Option.some.inj ho
        exact ⟨fun _ => ⟨_, rfl, rfl, hat⟩, fun hbad => absurd trivial hbad⟩
      · rw [if_neg hother] at ho ⊢
        obtain ⟨c', hc', ho⟩ := Option.bind_eq_some_iff.mp ho
        obtain rfl := Option.some.inj ho
        obtain ⟨ps, hps, hok, herr⟩ :=
          loop_spec fresh (windowsSize + 1) (c := ⟨r, pkt, pkt.seq, true, [], []⟩) hat hc'
        obtain rfl : ps = c'.consumed := hps.symm
        refine ⟨fun hall => ?_, fun hbad => ?_⟩
        · obtain ⟨d, hd, rfl, hat'⟩ := hok hall
          rw [hd]
          exact ⟨_, rfl, rfl, hat'⟩
        · obtain ⟨f, hf⟩ := herr hbad
          rw [hf]
          exact ⟨f, rfl⟩

end HeapReceiver

/-! ## Runs -/

namespace HeapReceiverSys

open HeapReceiver

/-- The blocks are in order, and the message under construction has come as far as the packets
consumed say. -/
def InOrder (ρ : HeapReceiverSys) : Prop :=
  ρ.rcv.At (empties ρ.delivered) (ρ.consumed.foldl Progress.consume .start)

lemma InOrder.init (w : Ring windowsSize Packet) : (init w).InOrder :=
  ⟨⟨fun h => absurd rfl h, rfl⟩, ⟨rfl, le_refl 0, le_refl 0⟩, rfl⟩

/-- One call, if the packets consumed before it fit. -/
lemma InOrder.step {ρ : HeapReceiverSys} (h : ρ.InOrder) (hall : Progress.start.AllFit ρ.consumed)
    {fresh : ℤ → ℕ → Byte} {a : Packet × Packet} {ρ' : ReceiverSys}
    (hstep : ρ.view.step fresh a = some ρ') :
    (Progress.start.AllFit ρ'.consumed → ∃ τ, ρ.step fresh a = .ok (some τ) ∧ τ.view = ρ' ∧
      τ.InOrder) ∧
    (¬ Progress.start.AllFit ρ'.consumed → ∃ f, ρ.step fresh a = .error f) := by
  obtain ⟨o, ho, rfl⟩ := Option.map_eq_some_iff.mp hstep
  obtain ⟨hok, herr⟩ := fromLowerLayer_spec fresh a.2 h ho
  change (Progress.start.AllFit (ρ.consumed ++ o.consumed) → _) ∧
    (¬ Progress.start.AllFit (ρ.consumed ++ o.consumed) → _)
  rw [Progress.allFit_append, and_iff_right hall]
  unfold HeapReceiverSys.step
  refine ⟨fun hfit => ?_, fun hbad => ?_⟩
  · obtain ⟨o', ho', rfl, hat⟩ := hok hfit
    rw [ho']
    refine ⟨ρ.absorb o', rfl, rfl, ?_⟩
    show HeapAssembly.At (empties (ρ.delivered ++ o'.delivered))
      ((ρ.consumed ++ o'.consumed).foldl Progress.consume .start) _
    rw [empties, List.countP_append, List.foldl_append]
    exact hat
  · obtain ⟨f, hf⟩ := herr hbad
    rw [hf]
    exact ⟨f, rfl⟩

/-- What was consumed stays consumed. -/
lemma consumed_isPrefix {fresh : ℤ → ℕ → Byte} : ∀ (as : List (Packet × Packet))
    {ρ ρ' : ReceiverSys}, ρ.run fresh as = some ρ' → ρ.consumed <+: ρ'.consumed := by
  intro as
  induction as with
  | nil =>
    intro ρ ρ' h
    obtain rfl := Option.some.inj h
    exact List.prefix_refl _
  | cons a as ih =>
    intro ρ ρ' h
    rw [ReceiverSys.run, List.foldlM_cons] at h
    obtain ⟨ρ₁, hstep, hrun⟩ := Option.bind_eq_some_iff.mp h
    obtain ⟨o, -, rfl⟩ := Option.map_eq_some_iff.mp hstep
    exact (List.prefix_append ρ.consumed o.consumed).trans (ih hrun)

/-- **A run** does what the run without the pointers does if the packets that this one consumes
fit, and faults otherwise. -/
theorem run_spec {fresh : ℤ → ℕ → Byte} : ∀ (as : List (Packet × Packet)) {ρ : HeapReceiverSys}
    {ρ' : ReceiverSys}, ρ.InOrder → Progress.start.AllFit ρ.consumed →
    ρ.view.run fresh as = some ρ' →
    (Progress.start.AllFit ρ'.consumed → ∃ τ, ρ.run fresh as = .ok (some τ) ∧ τ.view = ρ' ∧
      τ.InOrder) ∧
    (¬ Progress.start.AllFit ρ'.consumed → ∃ f, ρ.run fresh as = .error f) := by
  intro as
  induction as with
  | nil =>
    intro ρ ρ' h hall hrun
    obtain rfl := Option.some.inj hrun
    exact ⟨fun _ => ⟨ρ, rfl, rfl, h⟩, fun hbad => absurd hall hbad⟩
  | cons a as ih =>
    intro ρ ρ' h hall hrun
    rw [ReceiverSys.run, List.foldlM_cons] at hrun
    obtain ⟨ρ₁, hstep, hrun⟩ := Option.bind_eq_some_iff.mp hrun
    obtain ⟨hok, herr⟩ := h.step hall hstep
    unfold HeapReceiverSys.run
    by_cases hfit : Progress.start.AllFit ρ₁.consumed
    · obtain ⟨τ, hτ, rfl, h'⟩ := hok hfit
      rw [hτ]
      exact ih h' hfit hrun
    · -- what does not fit stays in the log
      obtain ⟨f, hf⟩ := herr hfit
      obtain ⟨rest, hrest⟩ := consumed_isPrefix as hrun
      have hbad : ¬ Progress.start.AllFit ρ'.consumed := by
        rw [← hrest, Progress.allFit_append]
        exact fun hall' => hfit hall'.1
      rw [hf]
      exact ⟨fun hall' => absurd hall' hbad, fun _ => ⟨f, rfl⟩⟩

/-- **The receiver's ring refines an unbounded reorder buffer.** Let packets with valid checksums
arrive, whatever their numbers, order, repetitions and contents. If those that the reorder buffer
with a window of ten consumes fit, one after the other, then the packets consumed, the value of
`expected` and the acks are those of the reorder buffer; the packets it holds are in their slots, no
two of them in one; every set entry of `valid_checks` is the slot of a held packet numbered strictly
between `expected` and `expected + 10`, the entry of `expected` itself is clear; and the next call,
too, returns after consuming at most ten packets, if they fit. Otherwise a copy leaves the packet or
the block. -/
theorem receiver_refines_reorder_buffer (fresh : ℤ → ℕ → Byte) (w : Ring windowsSize Packet)
    (as : List (Packet × Packet)) (hver : ∀ a ∈ as, rdtVerifyChecksum a.1 = true) :
    ∃ L, L = ReorderBuffer.Log.run 10 (as.map fun a => (a.1.seq, a.1)) ∧
    ((∃ f, (init w).run fresh as = .error f) ↔ ¬ Progress.start.AllFit L.consumed) ∧
    (Progress.start.AllFit L.consumed → ∃ ρ, (init w).run fresh as = .ok (some ρ) ∧
      ρ.consumed = L.consumed ∧ ρ.rcv.expected = L.buf.next ∧
      ρ.acks.map Packet.seq = L.acks ∧
      (∀ s p, L.buf.held.lookup s = some p →
        ρ.rcv.window.get s = p ∧ ρ.rcv.validChecks.get s = true) ∧
      (∀ s t, s ∈ L.buf.held → t ∈ L.buf.held →
        Ring.slot windowsSize s = Ring.slot windowsSize t → s = t) ∧
      (∀ i, ρ.rcv.validChecks.cell i = true → ∃ s, ρ.rcv.expected < s ∧
        s < ρ.rcv.expected + windowsSize ∧ Ring.slot windowsSize s = i ∧
        L.buf.held.lookup s = some (ρ.rcv.window.cell i) ∧ (ρ.rcv.window.cell i).seq = s) ∧
      ρ.rcv.validChecks.get ρ.rcv.expected = false ∧
      (∀ junk pkt, rdtVerifyChecksum pkt = true →
        Progress.start.AllFit (L.consumed ++ (L.buf.arrive 10 pkt.seq pkt).1) →
        ∃ o, ρ.rcv.fromLowerLayer fresh junk pkt = .ok (some o) ∧
          o.consumed.length ≤ windowsSize)) := by
  obtain ⟨ρ', L, hrun, hL, hcons, hexp, hacks, hheld, hinj, hvalid, hclear, hnext⟩ :=
    ReceiverSys.ring_refines_reorder_buffer fresh w as hver
  obtain ⟨hok, herr⟩ := run_spec as (InOrder.init w) trivial hrun
  rw [hcons] at hok herr
  refine ⟨L, hL, ⟨?_, herr⟩, fun hall => ?_⟩
  · rintro ⟨f, hf⟩ hall
    obtain ⟨ρ, hρ, -⟩ := hok hall
    rw [hf] at hρ
    cases hρ
  · obtain ⟨ρ, hρ, rfl, h⟩ := hok hall
    refine ⟨ρ, hρ, hcons, hexp, hacks, hheld, hinj, hvalid, hclear, fun junk pkt hpkt hfit => ?_⟩
    obtain ⟨o, ho, hnew, hlen⟩ := hnext junk pkt hpkt
    rw [Progress.allFit_append, ← hnew, ← hcons] at hfit
    obtain ⟨o', ho', rfl, -⟩ := (fromLowerLayer_spec fresh junk h ho).1 hfit.2
    exact ⟨o', ho', hlen⟩

/-- A packet on zeroed memory with the number `n` and the payload `bs`. -/
def partPacket (n : ℤ) (bs : List Byte) : Packet :=
  rdtAddChecksum (((Packet.zero.write checksumSize (intBytes n)).write (headerSize - 1)
    [BitVec.ofNat 8 bs.length]).write headerSize bs)

lemma verify_partPacket (n : ℤ) (bs : List Byte) : rdtVerifyChecksum (partPacket n bs) = true :=
  rdtVerifyChecksum_rdtAddChecksum _

/-- A message of 120 bytes in two packets, the second of which comes first and the first twice. -/
def shuffled : List (Packet × Packet) :=
  [partPacket 1 (List.replicate 5 0x42), partPacket 0 (intBytes 120 ++ List.replicate 115 0x41),
    partPacket 0 (intBytes 120 ++ List.replicate 115 0x41)].map
    (·, .zero)

/-- They fit. The reorder buffer answers the early packet with -1, the late one and its repetition
with 1. -/
theorem shuffled_acks : (∀ a ∈ shuffled, rdtVerifyChecksum a.1 = true) ∧
    (ReorderBuffer.Log.run 10 (shuffled.map fun a => (a.1.seq, a.1))).acks = [-1, 1, 1] := by
  have hver : ∀ a ∈ shuffled, rdtVerifyChecksum a.1 = true := by
    simp only [shuffled, List.forall_mem_map, List.forall_mem_cons, verify_partPacket,
      List.not_mem_nil, IsEmpty.forall_iff, implies_true, and_self]
  have heval : (((init (Ring.fill _ .zero)).run (fun _ _ => 0) shuffled).toOption.join.map
      fun ρ => ρ.acks.map Packet.seq) = some [-1, 1, 1] := by decide +kernel
  obtain ⟨L, hL, hfault, hfits⟩ :=
    receiver_refines_reorder_buffer (fun _ _ => 0) (Ring.fill _ .zero) shuffled hver
  have hall : Progress.start.AllFit L.consumed := by
    by_contra hbad
    obtain ⟨f, hf⟩ := hfault.mpr hbad
    rw [hf] at heval
    cases heval
  obtain ⟨ρ, hρ, -, -, hacks, -⟩ := hfits hall
  rw [hρ] at heval
  rw [← hL, ← hacks]
  exact ⟨hver, Option.some.inj heval⟩

/-- A packet that says that its message has a negative size. -/
def negativeSize : Packet := partPacket 0 (intBytes (-1) ++ [0x41])

/-- The reorder buffer answers it with 0, and the receiver crashes. -/
theorem negative_size_faults : rdtVerifyChecksum negativeSize = true ∧
    (ReorderBuffer.Log.run 10 [(negativeSize.seq, negativeSize)]).acks = [0] ∧
    ∃ f, (init (Ring.fill _ .zero)).run (fun _ _ => 0) [(negativeSize, .zero)] = .error f := by
  have heval : ((init (Ring.fill _ .zero)).run (fun _ _ => 0) [(negativeSize, .zero)]).isOk =
      false := by decide +kernel
  have hdrain : ReorderBuffer.drain (⟨1, ∅⟩ : ReorderBuffer Packet) = ([], ⟨1, ∅⟩) :=
    ReorderBuffer.drain_of_none (by simp)
  have hseq : negativeSize.seq = 0 := by decide +kernel
  refine ⟨verify_partPacket _ _, ?_, ?_⟩
  · simp [ReorderBuffer.Log.run, ReorderBuffer.Log.arrive, ReorderBuffer.arrive,
      ReorderBuffer.empty, hseq, hdrain]
  · cases hrun : (init (Ring.fill _ .zero)).run (fun _ _ => 0) [(negativeSize, .zero)] with
    | error f => exact ⟨f, rfl⟩
    | ok r =>
      rw [hrun] at heval
      cases heval

end HeapReceiverSys
end NetLabs.Rdt
