import NetLabs.Rdt.HeapReceiverTheorems
import NetLabs.Rdt.HeapSenderTheorems

/-!
# The two endpoints and their pointers

The system of `Sys`, with the pointers of both endpoints. Every run of it is a run of `Sys` in which
nothing faults (`HeapSys.refines_sys`), so that whatever holds of the runs of `Sys` holds of it.

The receiver is tidier than it looks and less tidy than it should be: at most one block is in use at
a time, but the block of an empty message is forgotten when the next message begins, as `free` is
guarded by `cur_msg->size != 0`. `HeapAssembly.Tidy` counts them.
-/

namespace NetLabs.Rdt

open NetLabs.Lib NetLabs.Lib.Bytes NetLabs.Lib.Chunks UpperMessage

/-! ## The packets of the sender fit -/

/-- The next packet of a stream of segments fits, also that of an empty message. -/
lemma Assembled.fits {A : List UpperMessage} {C : List Packet} {a : Assembly} {D : List Message}
    (h : Assembled A C a D) {p : Packet} (hsize : p.payloadSize = p.payload.length)
    (hpre : (C ++ [p]).map Packet.payload <+: A.flatMap segment) : a.progress.Fits p := by
  obtain ⟨j, i, m, -, -, -, -, hlt, hp, h0, hpos, hcopy⟩ := h.copy (fun _ => 0) hsize hpre
  have hmax : (maxPayloadSize : ℤ) = 119 := rfl
  have hlen : p.payload.length = min 119 (m.data.length + 4 - 119 * i) := by
    rw [hp, chunk, length_slice, length_encoded]
  rw [length_encoded] at hlt
  unfold Progress.Fits
  change if a.cursor = 0 then _ else _ ∧ _ ∧ a.cursor + _ ≤ a.curMsg.size
  rcases Nat.eq_zero_or_pos i with rfl | hi
  · have hzero := h0 rfl
    have hread : readInt (slice p.data headerSize 4) = m.data.length := by
      have hsz := hcopy.size_eq
      unfold Assembly.copy at hsz
      rw [if_pos hzero] at hsz
      exact hsz
    rw [if_pos hzero, hread]
    omega
  · have hcursor := (hpos hi).cursor_eq
    have hsz := (hpos hi).size_eq
    rw [if_neg (by omega)]
    omega

lemma Assembled.allFit {A : List UpperMessage} : ∀ (ps : List Packet) {C : List Packet}
    {a : Assembly} {D : List Message}, Assembled A C a D →
    (∀ p ∈ ps, p.payloadSize = p.payload.length) →
    (C ++ ps).map Packet.payload <+: A.flatMap segment → a.progress.AllFit ps := by
  intro ps
  induction ps with
  | nil => exact fun _ _ _ => trivial
  | cons p ps ih =>
    intro C a D h hsizes hpre
    rw [show C ++ p :: ps = (C ++ [p]) ++ ps by simp] at hpre
    have hsize := hsizes p List.mem_cons_self
    have hfirst : (C ++ [p]).map Packet.payload <+: A.flatMap segment :=
      ((List.prefix_append _ ps).map Packet.payload).trans hpre
    have hrest := ih (h.consume (fun _ => 0) hsize hfirst)
      (fun q hq => hsizes q (List.mem_cons_of_mem _ hq)) hpre
    rw [Assembly.progress_consume] at hrest
    exact ⟨h.fits hsize hfirst, hrest⟩

/-- In every run of the system, what the receiver has consumed fits. -/
lemma Sys.allFit_consumed {fresh : ℤ → ℕ → Byte} {σ : Sys}
    (h : Run (step fresh) BufferFits Init σ) : Progress.start.AllFit σ.dst.consumed := by
  obtain ⟨L, hL⟩ := linked_of_run h
  have hs := SenderSys.stream_of_orderly (run_src_orderly h)
  have hstart : Assembled σ.src.accepted [] .start [] := Assembled.init _ rfl
  apply hstart.allFit
  · exact fun p hp => hs.sizes p (hL.consumed.subset hp)
  · rw [List.nil_append]
    exact (hL.consumed.map Packet.payload).trans (SenderSys.payload_isPrefix hs)

/-! ## The whole system -/

/-- The two endpoints with their pointers, and what is in flight. -/
structure HeapSys where
  src : HeapSenderSys
  dst : HeapReceiverSys
  data : Multiset Packet
  acks : Multiset Packet

namespace HeapSys

/-- The system without the pointers. -/
def view (σ : HeapSys) : Sys := ⟨σ.src.view, σ.dst.view, σ.data, σ.acks⟩

/-- After `Sender_Init` and `Receiver_Init`, with whatever `malloc` returned. -/
def Init (σ : HeapSys) : Prop :=
  ∃ windows window, σ = ⟨⟨.init windows, false, [], [], []⟩, .init window, 0, 0⟩

/-- A call into the sender. -/
def send (found : ℤ → ℕ → Byte) (σ : HeapSys) (e : SenderEvent) :
    Except Heap.Fault (Option HeapSys) :=
  (σ.src.handle found e).map (Option.map fun o =>
    { σ with src := σ.src.after e o, data := σ.data + o.view.sent })

/-- A call into the receiver. -/
def receive (fresh : ℤ → ℕ → Byte) (σ : HeapSys) (pkt junk : Packet) :
    Except Heap.Fault (Option HeapSys) :=
  (σ.dst.rcv.fromLowerLayer fresh junk pkt).map (Option.map fun o =>
    { σ with dst := σ.dst.absorb o, acks := σ.acks + o.acks })

/-- One step, which may fault; `found` and `fresh` are the bytes `malloc` finds for the sender and
for the receiver. -/
def call (found fresh : ℤ → ℕ → Byte) (σ : HeapSys) :
    SysEvent → Except Heap.Fault (Option HeapSys)
  | .fromUpperLayer msg junk => σ.send found (.fromUpperLayer msg junk)
  | .timeout junk => if σ.src.timer then σ.send found (.timeout junk) else .ok none
  | .deliverData pkt junk =>
    if pkt ∈ σ.data then { σ with data := σ.data.erase pkt }.receive fresh pkt junk else .ok none
  | .deliverAck pkt junk =>
    if pkt ∈ σ.acks then { σ with acks := σ.acks.erase pkt }.send found (.fromLowerLayer pkt junk)
    else .ok none
  | .onData e => .ok ((e.apply σ.data).map fun d => { σ with data := d })
  | .onAcks e => .ok ((e.apply σ.acks).map fun d => { σ with acks := d })

/-- One step that returns. -/
def step (found fresh : ℤ → ℕ → Byte) (σ : HeapSys) (e : SysEvent) : Option HeapSys :=
  (σ.call found fresh e).toOption.join

/-- The blocks of both endpoints are in order. -/
structure InOrder (σ : HeapSys) : Prop where
  src : σ.src.snd.Owned
  dst : σ.dst.InOrder

variable {found fresh : ℤ → ℕ → Byte} {σ : HeapSys}

lemma InOrder.send (h : σ.InOrder) (e : SenderEvent) :
    Refines view InOrder (σ.send found e) (σ.view.send e) := by
  apply (HeapSenderSys.handle_refines found h.src e).map
  exact fun o ho => ⟨⟨ho, h.dst⟩, rfl⟩

lemma InOrder.receive (h : σ.InOrder) (hrun : Run (Sys.step fresh) Sys.BufferFits Sys.Init σ.view)
    {pkt : Packet} (hpkt : pkt ∈ σ.data) (junk : Packet) :
    Refines view InOrder ({ σ with data := σ.data.erase pkt }.receive fresh pkt junk)
      ({ σ.view with data := σ.view.data.erase pkt }.receive fresh pkt junk) := by
  obtain ⟨o, ho⟩ := Receiver.fromLowerLayer_isSome fresh junk pkt σ.dst.rcv.view
  have hstep : σ.view.step fresh (.deliverData pkt junk) =
      some { σ.view with
        dst := σ.dst.view.absorb o
        data := σ.data.erase pkt
        acks := σ.acks + o.acks } := by
    rw [Sys.step, if_pos (show pkt ∈ σ.view.data from hpkt)]
    exact congrArg (Option.map _) ho
  -- what this call consumes goes on along the stream, too
  have hall : Progress.start.AllFit (σ.dst.consumed ++ o.consumed) :=
    Sys.allFit_consumed (hrun.next hstep fun _ _ heq => by cases heq)
  rw [Progress.allFit_append] at hall
  obtain ⟨o', ho', hview, hat⟩ := (HeapReceiver.fromLowerLayer_spec fresh junk h.dst ho).1 hall.2
  refine ⟨some { σ with
    dst := σ.dst.absorb o'
    data := σ.data.erase pkt
    acks := σ.acks + o'.acks }, congrArg (Except.map _) ho', ?_, ?_⟩
  · show _ = Option.map _ (Receiver.fromLowerLayer fresh junk pkt σ.dst.rcv.view)
    rw [ho, ← hview]
    rfl
  · rintro _ ⟨⟩
    refine ⟨h.src, ?_⟩
    show HeapAssembly.At (HeapReceiver.empties (σ.dst.delivered ++ o'.delivered))
      ((σ.dst.consumed ++ o'.consumed).foldl Progress.consume .start) _
    rw [HeapReceiver.empties, List.countP_append, List.foldl_append,
      show o'.consumed = o.consumed from congrArg Receiver.Outcome.consumed hview]
    exact hat

/-- **One step refines one step.** -/
theorem InOrder.call (h : σ.InOrder) (found : ℤ → ℕ → Byte)
    (hrun : Run (Sys.step fresh) Sys.BufferFits Sys.Init σ.view) (e : SysEvent) :
    Refines view InOrder (σ.call found fresh e) (σ.view.step fresh e) := by
  have hnone : Refines view InOrder (.ok none : Except Heap.Fault _) none :=
    ⟨none, rfl, rfl, fun _ hx => by cases hx⟩
  cases e with
  | fromUpperLayer msg junk => exact h.send _
  | timeout junk =>
    show Refines _ _ (if σ.src.timer then _ else _) (if σ.src.timer then _ else _)
    split
    · exact h.send _
    · exact hnone
  | deliverData pkt junk =>
    show Refines _ _ (if pkt ∈ σ.data then _ else _) (if pkt ∈ σ.data then _ else _)
    split
    case isTrue hpkt => exact h.receive hrun hpkt junk
    case isFalse => exact hnone
  | deliverAck pkt junk =>
    show Refines _ _ (if pkt ∈ σ.acks then _ else _) (if pkt ∈ σ.acks then _ else _)
    have h' : { σ with acks := σ.acks.erase pkt }.InOrder := ⟨h.src, h.dst⟩
    split
    · exact h'.send _
    · exact hnone
  | onData e =>
    show Refines _ _ (.ok _) ((e.apply σ.data).map _)
    cases e.apply σ.data with
    | none => exact hnone
    | some d => exact .pure ⟨h.src, h.dst⟩
  | onAcks e =>
    show Refines _ _ (.ok _) ((e.apply σ.acks).map _)
    cases e.apply σ.acks with
    | none => exact hnone
    | some d => exact .pure ⟨h.src, h.dst⟩

lemma call_eq_of_step {σ' : HeapSys} {e : SysEvent} (h : σ.step found fresh e = some σ') :
    σ.call found fresh e = .ok (some σ') := by
  unfold step at h
  cases hcall : σ.call found fresh e with
  | error _ => rw [hcall] at h; cases h
  | ok r => rw [hcall] at h; exact congrArg Except.ok h

/-- The restrictions on the runs of `Sys`, on those with pointers. -/
def Bounded (σ : HeapSys) (e : SysEvent) (σ' : HeapSys) : Prop := Sys.Bounded σ.view e σ'.view

lemma inOrder_of_run (h : Run (step found fresh) Bounded Init σ) :
    σ.InOrder ∧ Run (Sys.step fresh) Sys.Bounded Sys.Init σ.view := by
  refine Run.invariant
    (I := fun σ => σ.InOrder ∧ Run (Sys.step fresh) Sys.Bounded Sys.Init σ.view) ?_ ?_ h
  · rintro σ ⟨windows, window, rfl⟩
    exact ⟨⟨.init windows, .init window⟩, .start ⟨windows, window, rfl⟩⟩
  · rintro σ e σ' - ⟨horder, hrun⟩ he hok
    have hcall := horder.call found (Sys.bufferFits_of_bounded hrun) e
    obtain ⟨hstep, horder'⟩ := hcall.of_eq_some (call_eq_of_step he)
    exact ⟨horder', hrun.next hstep hok⟩

/-- **The program with pointers is the program without them.** In every state of every run of the
two endpoints, over any losses, duplications, reorderings and alterations, no step faults, each
does what the step of `Sys` does, `Sender_Final` releases every block of the sender, and the blocks
that `Receiver_Final` leaves behind are the one of the last message, unless that is empty, and one
for each empty message delivered. -/
theorem refines_sys (h : Run (step found fresh) Bounded Init σ) :
    Run (Sys.step fresh) Sys.Bounded Sys.Init σ.view ∧
    (∀ e, ∃ r, σ.call found fresh e = .ok r ∧ r.map view = σ.view.step fresh e) ∧
    (∃ heap, σ.src.snd.final = .ok heap ∧ heap.live = 0) ∧
    σ.dst.rcv.heap.live = σ.dst.delivered.countP (fun m => m.size = 0) +
      if σ.dst.rcv.curMsg.size = 0 then 0 else 1 := by
  obtain ⟨horder, hrun⟩ := inOrder_of_run h
  refine ⟨hrun, fun e => ?_, horder.src.final.1, horder.dst.tidy.live⟩
  obtain ⟨r, hr, hview, -⟩ := horder.call found (Sys.bufferFits_of_bounded hrun) e
  exact ⟨r, hr, hview⟩

/-- The system on zeroed memory after the sender was handed one byte. -/
def sentByte : HeapSys :=
  (step (fun _ _ => 0) (fun _ _ => 0)
    ⟨⟨.init (Ring.fill _ .zero), false, [], [], []⟩, .init (Ring.fill _ .zero), 0, 0⟩
    (.fromUpperLayer (.byte 0x41) .zero)).get (by decide)

/-- Its packet is received without a fault. -/
theorem sentByte_received : ∃ r, sentByte.call (fun _ _ => 0) (fun _ _ => 0)
    (.deliverData (ReceiverSys.bytePacket 0 0x41) .zero) = .ok r := by
  have hrun : Run (step (fun _ _ => 0) fun _ _ => 0) Bounded Init sentByte :=
    (Run.start ⟨_, _, rfl⟩).next (Option.some_get _).symm
      ⟨by show (1 : ℤ) < _; norm_num, fun _ _ _ => by decide⟩
  obtain ⟨r, hr, -⟩ := (refines_sys hrun).2.1 (.deliverData (ReceiverSys.bytePacket 0 0x41) .zero)
  exact ⟨r, hr⟩

end HeapSys
end NetLabs.Rdt
