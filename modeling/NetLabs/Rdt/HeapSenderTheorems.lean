import NetLabs.Rdt.HeapSender
import NetLabs.Rdt.SenderTheorems

/-!
# The sender never misuses its memory

`Owned` is the invariant behind it: each entry of `buffer` whose size is not 0 owns one block, which
is long enough, and there are no other blocks. Under it every handler computes what the handler of
`Sender` computes, and none of them faults, also when the buffer is overfull and an entry is
replaced before it was cut.
-/

namespace NetLabs.Rdt

open NetLabs.Lib NetLabs.Lib.Bytes

namespace Sender

/-- The last lines of `Sender_FromLowerLayer`. -/
def Outcome.stopAt (ack : ℤ) (o : Outcome) : Outcome :=
  if ack = o.snd.pktSeq - 1 then { o with calls := o.calls ++ [.stopTimer] } else o

lemma fromLowerLayer_eq (junk pkt : Packet) (s : Sender) :
    s.fromLowerLayer junk pkt = if !rdtVerifyChecksum pkt then some ⟨s, [], []⟩
      else (if s.ackExpected ≤ pkt.seq ∧ pkt.seq < s.pktSeq then
        constructAndSend junk (s.slide pkt.seq) else some ⟨s, [], []⟩).map (Outcome.stopAt pkt.seq) := by
  unfold fromLowerLayer
  split
  · rfl
  · dsimp only
    split
    · cases constructAndSend junk (s.slide pkt.seq) with
      | none => rfl
      | some o => rfl
    · rfl

end Sender

namespace HeapSender

/-- The block of an entry. -/
def owner (s : HeapSender) (i : Fin maxBufferSize) : Option ℕ :=
  if (s.buffer.cell i).size ≠ 0 then some (s.buffer.cell i).data else none

/-- Each entry that is in use owns one block, which holds at least as many bytes as the entry
says. -/
structure Owned (s : HeapSender) : Prop where
  owns : Heap.Owns s.owner s.heap
  sized : ∀ i, (s.buffer.cell i).size ≠ 0 →
    (s.buffer.cell i).size ≤ (s.heap.contents (s.buffer.cell i).data).length
  cursor_nonneg : 0 ≤ s.cursorSender

lemma owner_eq_some {s : HeapSender} {i : Fin maxBufferSize} (h : (s.buffer.cell i).size ≠ 0) :
    s.owner i = some (s.buffer.cell i).data := by
  rw [owner, if_pos h]

lemma Owned.init (windows : Ring maxWindowSize Packet) : (HeapSender.init windows).Owned := by
  refine ⟨?_, fun i h => absurd rfl h, le_refl _⟩
  have hnone : (HeapSender.init windows).owner = fun _ => none := by
    funext i
    exact if_neg (fun h => h rfl)
  rw [hnone]
  exact Heap.Owns.empty

/-- A copy out of an entry's block, as far as its size goes. -/
lemma Owned.read {s : HeapSender} (h : s.Owned) (i : Fin maxBufferSize) {n : ℤ} (hn : 0 < n)
    (hle : s.cursorSender + n ≤ (s.buffer.cell i).size) :
    s.heap.read (s.buffer.cell i).data s.cursorSender n =
      .ok (slice ((s.buffer.cell i).view s.heap).data s.cursorSender.toNat n.toNat) := by
  have hcur := h.cursor_nonneg
  have hne : (s.buffer.cell i).size ≠ 0 := by omega
  have hsize := h.sized i hne
  obtain ⟨bs, hbs⟩ := h.owns.live (owner_eq_some hne)
  have hcontents := Heap.contents_of_block hbs
  rw [hcontents] at hsize
  have hview : ((s.buffer.cell i).view s.heap).data = bs := by
    rw [MessageRef.view, if_neg hne, hcontents]
  rw [hview]
  exact Heap.read_eq hbs hcur hn.le (by omega)

/-! ## `Sender_ConstructPKT` and `Sender_SendPKT` -/

namespace Construct

/-- The local `msg` is a copy of an entry. -/
structure Inv (c : Construct) : Prop where
  owned : c.snd.Owned
  entry : ∃ i, c.msg = c.snd.buffer.cell i

/-- The first branch reads inside a live block. -/
lemma Inv.cut {c : Construct} (h : c.Inv) (hsize : c.msg.size - c.snd.cursorSender > maxPayloadSize) :
    ∃ c', c.cut = .ok c' ∧ c'.Inv ∧ c'.view = c.view.cut := by
  obtain ⟨i, hi⟩ := h.entry
  have hread := h.owned.read i (n := maxPayloadSize) (by decide)
    (by rw [← hi]; omega)
  rw [← hi] at hread
  unfold Construct.cut
  rw [hread]
  refine ⟨_, rfl, ⟨⟨h.owned.owns, h.owned.sized, ?_⟩, i, hi⟩, rfl⟩
  have hcur := h.owned.cursor_nonneg
  show 0 ≤ c.snd.cursorSender + maxPayloadSize
  omega

/-- So does the second one. -/
lemma Inv.cutLast {c : Construct} (h : c.Inv) (hsize : c.msg.size > c.snd.cursorSender) :
    ∃ c', c.cutLast = .ok c' ∧ c'.Inv ∧ c'.view = c.view.cutLast := by
  obtain ⟨i, hi⟩ := h.entry
  have hread := h.owned.read i (n := c.msg.size - c.snd.cursorSender) (by omega)
    (by rw [← hi]; omega)
  rw [← hi] at hread
  unfold Construct.cutLast
  dsimp only
  rw [hread]
  refine ⟨_, rfl, ⟨⟨h.owned.owns, h.owned.sized, le_refl _⟩, ?_⟩, ?_⟩
  · by_cases hmore : c.snd.curMessageSeq + 1 < c.snd.nextMessageSeq
    · exact ⟨_, if_pos hmore⟩
    · exact ⟨i, (if_neg hmore).trans hi⟩
  · unfold Construct.view Sender.Construct.cutLast
    dsimp only
    rw [apply_ite (MessageRef.view c.snd.heap)]
    rfl

/-- One round. -/
lemma Inv.body {c : Construct} (h : c.Inv) :
    ∃ c', c.body = .ok c' ∧ c'.Inv ∧ c'.view = c.view.body := by
  unfold Construct.body Sender.Construct.body
  rw [show c.view.msg.size = c.msg.size from rfl,
    show c.view.snd.cursorSender = c.snd.cursorSender from rfl]
  by_cases hfull : c.msg.size - c.snd.cursorSender > maxPayloadSize
  · rw [if_pos hfull, if_pos hfull]
    exact h.cut hfull
  · rw [if_neg hfull, if_neg hfull]
    by_cases hlast : c.msg.size > c.snd.cursorSender
    · rw [if_pos hlast, if_pos hlast]
      exact h.cutLast hlast
    · rw [if_neg hlast, if_neg hlast]
      exact ⟨c, rfl, h, rfl⟩

end Construct

lemma Owned.constructPKT {s : HeapSender} (h : s.Owned) (junk : Packet) :
    Refines Construct.view Construct.Inv (s.constructPKT junk) (s.view.constructPKT junk) := by
  have hstart : (s.constructStart junk).Inv := ⟨h, _, rfl⟩
  have hcond : ∀ c : Construct, c.Inv → c.cond = c.view.cond := fun _ _ => rfl
  have hbody : ∀ c : Construct, c.Inv → c.cond = true →
      ∃ c', c.body = .ok c' ∧ c'.Inv ∧ c'.view = c.view.body := fun _ hc _ => hc.body
  exact While.runM_refines hcond hbody _ hstart

/-- `Sender_SendPKT` touches neither the entries nor the heap. -/
lemma Owned.sendPKT {s : HeapSender} (h : s.Owned) {d : Sending} (hd : s.sendPKT = some d) :
    d.snd.Owned := by
  have hbody : ∀ d : Sending, d.snd.Owned → d.cond = true → d.body.snd.Owned :=
    fun _ hd _ => ⟨hd.owns, hd.sized, hd.cursor_nonneg⟩
  exact (While.run_inv hbody _ h hd).1

/-- The variables of `Sender_SendPKT` without the pointers. -/
def Sending.view (d : Sending) : Sender.Sending := ⟨d.snd.view, d.sent⟩

lemma sendPKT_view (s : HeapSender) : s.sendPKT.map Sending.view = s.view.sendPKT := by
  have hcond : ∀ d : Sending, d.cond = d.view.cond := fun _ => rfl
  have hbody : ∀ d : Sending, d.body.view = d.view.body := fun _ => rfl
  exact While.run_view hcond hbody _ _

/-- **The lines all handlers share.** -/
lemma Owned.constructAndSend {s : HeapSender} (h : s.Owned) (junk : Packet) :
    Refines Outcome.view (fun o => o.snd.Owned) (s.constructAndSend junk)
      (s.view.constructAndSend junk) := by
  obtain ⟨r, hr, hview, hinv⟩ := h.constructPKT junk
  unfold HeapSender.constructAndSend Sender.constructAndSend
  rw [hr, ← hview]
  refine ⟨_, rfl, ?_, ?_⟩
  · cases r with
    | none => rfl
    | some c =>
      have hsend := sendPKT_view c.snd
      show ((c.snd.sendPKT).map _).map _ = c.view.snd.sendPKT >>= _
      rw [show c.view.snd.sendPKT = _ from hsend.symm]
      cases c.snd.sendPKT with
      | none => rfl
      | some d => rfl
  · intro o ho
    obtain ⟨c, hc, hd⟩ := Option.bind_eq_some_iff.mp ho
    obtain ⟨d, hsent, rfl⟩ := Option.map_eq_some_iff.mp hd
    exact (hinv c hc).owned.sendPKT hsent

/-! ## The handlers -/

/-- The block of the entry that is replaced is freed, if there is one. -/
lemma Owned.release {s : HeapSender} (h : s.Owned) (i : Fin maxBufferSize) :
    ∃ heap, (s.buffer.cell i).release s.heap = .ok heap ∧
      Heap.Owns (Function.update s.owner i none) heap ∧
      ∀ j a, j ≠ i → s.owner j = some a → heap.block a = s.heap.block a := by
  by_cases hsize : (s.buffer.cell i).size ≠ 0
  · have hown := owner_eq_some hsize
    obtain ⟨bs, hbs⟩ := h.owns.live hown
    refine ⟨_, (if_pos hsize).trans (Heap.free_eq hbs), h.owns.free hown, ?_⟩
    intro j a hne hj
    rw [Heap.block_set none hbs, if_neg]
    rintro rfl
    exact hne (h.owns.inj hj hown)
  · have hnone : s.owner i = none := if_neg hsize
    refine ⟨s.heap, if_neg hsize, ?_, fun _ _ _ _ => rfl⟩
    rw [← hnone, Function.update_eq_self]
    exact h.owns

/-- The size of a stored entry is not 0, and not above the length of its block. -/
lemma stored_size {n : ℤ} (h0 : 0 ≤ n) (hn : n < 2 ^ 31) :
    (BitVec.ofInt 32 (n + 4)).toInt ≠ 0 ∧ (BitVec.ofInt 32 (n + 4)).toInt ≤ n + 4 := by
  rw [BitVec.toInt_ofInt, Int.bmod]
  norm_num
  split <;> omega

/-- An entry is replaced by one that owns a block of its own, and the other blocks stay. -/
lemma Owned.replace {s : HeapSender} (h : s.Owned) {heap : Heap Byte} {m : MessageRef} {n : ℤ}
    (howns : Heap.Owns (Function.update s.owner (Ring.slot _ n) (some m.data)) heap)
    (hother : ∀ j, j ≠ Ring.slot _ n → (s.buffer.cell j).size ≠ 0 →
      heap.contents (s.buffer.cell j).data = s.heap.contents (s.buffer.cell j).data)
    (hsize : m.size ≠ 0) (hle : m.size ≤ (heap.contents m.data).length) :
    { s with heap := heap, buffer := s.buffer.set n m }.Owned ∧
      (⟨fun i => ((s.buffer.set n m).cell i).view heap⟩ : Ring maxBufferSize Message) =
        s.view.buffer.set n ⟨m.size, heap.contents m.data⟩ := by
  have hcell : ∀ j, (s.buffer.set n m).cell j =
      if j = Ring.slot maxBufferSize n then m else s.buffer.cell j :=
    fun j => Function.update_apply _ _ _ _
  refine ⟨⟨?_, ?_, h.cursor_nonneg⟩, ?_⟩
  · have howner : { s with heap := heap, buffer := s.buffer.set n m }.owner =
        Function.update s.owner (Ring.slot _ n) (some m.data) := by
      funext j
      rcases eq_or_ne j (Ring.slot _ n) with rfl | hj
      · rw [owner, Function.update_self]
        dsimp only
        rw [hcell, if_pos rfl, if_pos hsize]
      · rw [owner, Function.update_of_ne hj]
        dsimp only
        rw [hcell, if_neg hj]
        rfl
    rw [howner]
    exact howns
  · intro j
    dsimp only
    rw [hcell]
    split_ifs with hj
    · exact fun _ => hle
    · intro hused
      rw [hother j hj hused]
      exact h.sized j hused
  · apply Lib.Ring.ext
    funext j
    show ((s.buffer.set n m).cell j).view heap =
      Function.update s.view.buffer.cell (Ring.slot _ n) ⟨m.size, heap.contents m.data⟩ j
    rcases eq_or_ne j (Ring.slot _ n) with rfl | hj
    · rw [hcell, if_pos rfl, Function.update_self, MessageRef.view, if_neg hsize]
    · rw [hcell, if_neg hj, Function.update_of_ne hj]
      show _ = (s.buffer.cell j).view s.heap
      unfold MessageRef.view
      split_ifs with hused
      · rfl
      · rw [hother j hj hused]

/-- **`Sender_FromUpperLayer` up to its timer**: whatever the entry held, the block it loses is
freed once, and the entry owns a new one. -/
lemma Owned.enqueue {s : HeapSender} (h : s.Owned) (fresh : ℕ → Byte) (msg : UpperMessage) :
    ∃ s', s.enqueue fresh msg.toMessage = .ok s' ∧ s'.Owned ∧
      s'.view = s.view.enqueue msg.toMessage := by
  obtain ⟨heap, hfree, howns, hkeep⟩ := h.release (Ring.slot _ s.nextMessageSeq)
  have hint := msg.length_lt
  have hsize : msg.toMessage.size = msg.data.length := rfl
  obtain ⟨hne, hle⟩ := stored_size (n := msg.toMessage.size) (by omega) (by omega)
  have hpart : (slice msg.toMessage.data 0 msg.toMessage.size.toNat).length = msg.data.length := by
    rw [length_slice, hsize]
    show min _ (msg.data.length - 0) = _
    omega
  have hlen : ((List.range (sizeT (msg.toMessage.size + 4))).map fresh).length =
      (intBytes msg.toMessage.size).length +
        (slice msg.toMessage.data 0 msg.toMessage.size.toNat).length := by
    rw [List.length_map, List.length_range, length_intBytes, hpart, hsize, sizeT]
    omega
  -- the new block is filled by the two copies
  obtain ⟨heap₁, heap₂, hw₁, hw₂, howns₂, hblock⟩ := howns.fill (Function.update_self _ _ _) hlen
  rw [Function.update_idem] at howns₂
  rw [length_intBytes] at hw₂
  generalize hnew : (heap.malloc ((List.range (sizeT (msg.toMessage.size + 4))).map fresh)).2 = a
    at hw₁ hw₂ howns₂ hblock
  -- the blocks of the other entries are as they were
  have hother : ∀ j, j ≠ Ring.slot maxBufferSize s.nextMessageSeq → (s.buffer.cell j).size ≠ 0 →
      heap₂.contents (s.buffer.cell j).data = s.heap.contents (s.buffer.cell j).data := by
    intro j hj hused
    have hsame := hkeep j _ hj (owner_eq_some hused)
    obtain ⟨bs, hbs⟩ := h.owns.live (owner_eq_some hused)
    rw [hbs] at hsame
    rw [Heap.contents, Heap.contents, hblock, if_neg (hnew ▸ Heap.ne_malloc hsame), hsame, hbs]
  have hself : heap₂.contents a = (Sender.stored msg.toMessage).data :=
    Heap.contents_of_block ((hblock a).trans (if_pos rfl))
  have hstored : (heap₂.contents a).length = msg.data.length + 4 := by
    rw [hself, Sender.stored, List.length_append, length_intBytes, hpart]
    omega
  obtain ⟨howned, hbuffer⟩ := h.replace (n := s.nextMessageSeq)
    (m := ⟨(BitVec.ofInt 32 (msg.toMessage.size + 4)).toInt, a⟩) howns₂ hother hne
    (by dsimp only; omega)
  refine ⟨{ s with
    heap := heap₂
    buffer := s.buffer.set s.nextMessageSeq
      ⟨(BitVec.ofInt 32 (msg.toMessage.size + 4)).toInt, a⟩
    nextMessageSeq := s.nextMessageSeq + 1
    msgBufferNum := s.msgBufferNum + 1 }, ?_, ⟨howned.owns, howned.sized, howned.cursor_nonneg⟩, ?_⟩
  · unfold HeapSender.enqueue
    rw [show (s.buffer.get s.nextMessageSeq).release s.heap = .ok heap from hfree]
    change (Heap.write _ _ _ _ >>= _) = _
    rw [hnew, hw₁]
    change (Heap.write _ _ _ _ >>= _) = _
    rw [show (4 : ℤ) = ((4 : ℕ) : ℤ) from rfl, hw₂]
    rfl
  · unfold Sender.enqueue
    rw [HeapSender.view]
    dsimp only
    rw [hbuffer, hself]
    rfl

/-- Freeing nothing, keeping the entries and moving counters keeps the blocks in order. -/
lemma Owned.withCounters {s s' : HeapSender} (h : s.Owned) (hbuffer : s'.buffer = s.buffer)
    (hheap : s'.heap = s.heap) (hcursor : s'.cursorSender = s.cursorSender) : s'.Owned := by
  obtain ⟨howns, hsized, hpos⟩ := h
  refine ⟨?_, ?_, by rw [hcursor]; exact hpos⟩
  · unfold owner at howns ⊢
    rw [hbuffer, hheap]
    exact howns
  · rw [hbuffer, hheap]
    exact hsized

lemma Outcome.stopAt_view (ack : ℤ) (o : Outcome) :
    (o.stopAt ack).snd = o.snd ∧ (o.stopAt ack).view = o.view.stopAt ack := by
  unfold Outcome.stopAt Sender.Outcome.stopAt
  rw [show o.view.snd.pktSeq = o.snd.pktSeq from rfl]
  split
  · exact ⟨rfl, rfl⟩
  · exact ⟨rfl, rfl⟩

lemma Owned.fromLowerLayer {s : HeapSender} (h : s.Owned) (junk pkt : Packet) :
    Refines Outcome.view (fun o => o.snd.Owned) (s.fromLowerLayer junk pkt)
      (s.view.fromLowerLayer junk pkt) := by
  have hstop : ∀ o : Outcome, o.snd.Owned → (o.stopAt pkt.seq).snd.Owned ∧
      (o.stopAt pkt.seq).view = o.view.stopAt pkt.seq := by
    intro o ho
    obtain ⟨hsnd, hview⟩ := o.stopAt_view pkt.seq
    rw [hsnd]
    exact ⟨ho, hview⟩
  rw [Sender.fromLowerLayer_eq]
  unfold HeapSender.fromLowerLayer
  cases rdtVerifyChecksum pkt with
  | false => exact .pure h
  | true =>
    apply Refines.map _ hstop
    show Refines _ _ _ (if s.ackExpected ≤ pkt.seq ∧ pkt.seq < s.pktSeq then _ else _)
    split
    · have hslide : (s.slide pkt.seq).Owned := h.withCounters rfl rfl rfl
      exact hslide.constructAndSend junk
    · exact .pure h

/-- `Sender_Final` frees every block, each once; there are at most `MAX_BUFFER_SIZE` of them. -/
lemma Owned.final {s : HeapSender} (h : s.Owned) :
    (∃ heap, s.final = .ok heap ∧ heap.live = 0) ∧ s.heap.live ≤ maxBufferSize := by
  have hf : ∀ (heap : Heap Byte) i, (s.buffer.cell i).release heap =
      heap.freeOf (s.owner i) := by
    intro heap i
    unfold MessageRef.release owner
    split_ifs
    · rfl
    · rfl
  obtain ⟨heap, rest, hfold, howns, hnone, -, hlive⟩ := Heap.Owns.freeAll hf h.owns
    (List.nodup_finRange maxBufferSize) (fun _ _ => rfl)
  have hzero := howns.live_eq_zero fun i => hnone i (List.mem_finRange i)
  rw [hzero, List.length_finRange, Nat.zero_add] at hlive
  exact ⟨⟨heap, hfold, hzero⟩, hlive⟩

end HeapSender

/-! ## Runs -/

namespace HeapSenderSys

open HeapSender

/-- **Every handler refines the handler of `SenderSys`**, whatever it is called with. -/
theorem handle_refines (fresh : ℤ → ℕ → Byte) {σ : HeapSenderSys} (h : σ.snd.Owned)
    (e : SenderEvent) :
    Refines Outcome.view (fun o => o.snd.Owned) (σ.handle fresh e) (σ.view.handle e) := by
  cases e with
  | fromUpperLayer msg junk =>
    obtain ⟨s', hs', howned, hview⟩ := h.enqueue (fresh σ.snd.nextMessageSeq) msg
    show Refines _ _ (HeapSender.fromUpperLayer _ _ _ _ _) (Sender.fromUpperLayer _ _ _ _)
    unfold HeapSender.fromUpperLayer Sender.fromUpperLayer
    rw [hs', show σ.view.snd.enqueue _ = _ from hview.symm]
    show Refines _ _ (if σ.timer then _ else _) (if σ.timer then _ else _)
    cases σ.timer with
    | true => exact .pure howned
    | false => exact howned.constructAndSend junk
  | fromLowerLayer pkt junk =>
    exact h.fromLowerLayer junk pkt
  | timeout junk =>
    have hrewind : σ.snd.rewind.Owned := h.withCounters rfl rfl rfl
    exact hrewind.constructAndSend junk

/-- One call refines one call. -/
lemma call_refines (fresh : ℤ → ℕ → Byte) {σ : HeapSenderSys} (h : σ.snd.Owned) (e : SenderEvent) :
    Refines view (fun σ => σ.snd.Owned) (σ.call fresh e) (σ.view.step e) := by
  apply (handle_refines fresh h e).map
  exact fun o ho => ⟨ho, rfl⟩

lemma step_eq_some {fresh : ℤ → ℕ → Byte} {σ σ' : HeapSenderSys} {e : SenderEvent}
    (h : σ.step fresh e = some σ') : σ.call fresh e = .ok (some σ') := by
  unfold step at h
  cases hcall : σ.call fresh e with
  | error _ => rw [hcall] at h; cases h
  | ok r => rw [hcall] at h; exact congrArg Except.ok h

/-- The blocks stay in order, and the run is a run of `SenderSys`. -/
lemma owned_of_run {fresh : ℤ → ℕ → Byte}
    {ok : HeapSenderSys → SenderEvent → HeapSenderSys → Prop} {σ : HeapSenderSys}
    (h : Run (step fresh) ok Init σ) :
    σ.snd.Owned ∧ Run SenderSys.step (fun _ _ _ => True) SenderSys.Init σ.view := by
  refine Run.invariant (I := fun σ => σ.snd.Owned ∧
    Run SenderSys.step (fun _ _ _ => True) SenderSys.Init σ.view) ?_ ?_ h
  · rintro σ ⟨w, rfl⟩
    exact ⟨.init w, .start ⟨w, rfl⟩⟩
  · rintro σ e σ' - ⟨howned, hrun⟩ he -
    obtain ⟨hstep, howned'⟩ := (call_refines fresh howned e).of_eq_some (step_eq_some he)
    exact ⟨howned', hrun.next hstep trivial⟩

/-- The `int` variables stay in their range: there are few enough packets and messages, and each
message has a size that is an `int` also with its prefix. -/
def InRange (_ : HeapSenderSys) (e : SenderEvent) (σ' : HeapSenderSys) : Prop :=
  σ'.snd.nextMessageSeq < 2 ^ 31 - 1 ∧ σ'.snd.pktSeq < 2 ^ 31 - 10 ∧
    ∀ msg junk, e = .fromUpperLayer msg junk → msg.data.length ≤ 2 ^ 31 - 5

/-- **The sender never misuses its memory.** In every state of every run, with any packets from the
network and however many messages are waiting, no handler frees a block twice or copies from outside
of a live block, each does what the handler without pointers does, at most `MAX_BUFFER_SIZE` blocks
are live, and `Sender_Final` frees them all. -/
theorem sender_memory_safe {fresh : ℤ → ℕ → Byte} {σ : HeapSenderSys}
    (h : Run (step fresh) InRange Init σ) :
    Run SenderSys.step (fun _ _ _ => True) SenderSys.Init σ.view ∧
    (∀ e, ∃ r, σ.call fresh e = .ok r ∧ r.map view = σ.view.step e) ∧
    σ.snd.heap.live ≤ maxBufferSize ∧ ∃ heap, σ.snd.final = .ok heap ∧ heap.live = 0 := by
  obtain ⟨howned, hrun⟩ := owned_of_run h
  obtain ⟨hfinal, hlive⟩ := howned.final
  refine ⟨hrun, fun e => ?_, hlive, hfinal⟩
  obtain ⟨r, hr, hview, -⟩ := call_refines fresh howned e
  exact ⟨r, hr, hview⟩

/-- The state on zeroed memory after the upper layer handed over one byte. -/
def afterFirstByte : HeapSenderSys :=
  (step (fun _ _ => 0) ⟨.init (Ring.fill _ .zero), false, [], [], []⟩ SenderSys.firstByte).get
    (by decide)

/-- Its block is the one `Sender_Final` frees. -/
theorem afterFirstByte_released : afterFirstByte.snd.heap.live = 1 ∧
    ∃ heap, afterFirstByte.snd.final = .ok heap ∧ heap.live = 0 := by
  have hrun : Run (step fun _ _ => 0) InRange Init afterFirstByte :=
    (Run.start ⟨_, rfl⟩).next (Option.some_get _).symm
      ⟨by decide, by decide, fun _ _ heq => by cases heq; decide⟩
  exact ⟨by decide, (sender_memory_safe hrun).2.2.2⟩

end HeapSenderSys
end NetLabs.Rdt
