import NetLabs.Rdt.Reassembly

/-!
# The order of arrival

`FedFrom` is the state of a receiver that has been fed packets of one stream: it has consumed
a beginning of the stream and holds packets of it. Which beginning, and which packets, depends
only on the set of the numbers that arrived (`FedFrom.run`), and how far a beginning of the
stream has been reassembled depends on nothing but its length (`Assembled.unique`). So two
receivers that got the same numbers agree (`arrival_order_irrelevant`), whatever their memory
held before.
-/

namespace NetLabs.Rdt

open NetLabs.Lib NetLabs.Lib.Bytes NetLabs.Lib.Chunks UpperMessage

/-! ## Reassembly is a function of what was consumed -/

namespace Assembled

/-- Reassembly ends inside the message it is at. -/
lemma inside {A : List UpperMessage} {j i : ℕ} {a : Assembly}
    (hpos : 0 < i → ∃ m, A[j]? = some m ∧ 119 * i < m.encoded.length ∧ Partial m (119 * i) a) :
    (A[j]?).elim (i = 0) fun m => i < m.segment.length := by
  rcases Nat.eq_zero_or_pos i with rfl | hi
  · cases A[j]? with
    | none => rfl
    | some m => exact m.length_segment_pos
  · obtain ⟨m, hm, hlt, -⟩ := hpos hi
    rw [hm, Option.elim_some, length_segment]
    exact (lt_count_iff (by norm_num)).mpr hlt

lemma length_position {A : List UpperMessage} {j i : ℕ}
    (hi : (A[j]?).elim (i = 0) fun m => i < m.segment.length) :
    ((A.take j).flatMap segment ++ (segmentAt A j).take i).length =
      ((A.take j).flatMap segment).length + i := by
  rw [List.length_append, List.length_take, segmentAt]
  cases hm : A[j]? with
  | none =>
    rw [hm, Option.elim_none] at hi
    simp [hi]
  | some m =>
    rw [hm, Option.elim_some] at hi
    rw [Option.elim_some]
    omega

/-- **What has been handed on, and what has been taken in of the next message, is determined
by the packets consumed.** -/
theorem unique {A : List UpperMessage} {C : List Packet} {a a' : Assembly} {D D' : List Message}
    (h : Assembled A C a D) (h' : Assembled A C a' D') :
    D = D' ∧ a.cursor = a'.cursor ∧ (a.cursor ≠ 0 → a.curMsg.size = a'.curMsg.size) ∧
      a.curMsg.data.take a.cursor.toNat = a'.curMsg.data.take a'.cursor.toNat := by
  obtain ⟨j, i, hj, hC, hD, h0, hpos⟩ := h.position
  obtain ⟨j', i', hj', hC', hD', h0', hpos'⟩ := h'.position
  have hi := inside hpos
  have hi' := inside hpos'
  have hlen := congrArg List.length (hC.symm.trans hC')
  rw [length_position hi, length_position hi'] at hlen
  obtain ⟨rfl, rfl⟩ := stretch_unique segment A hj hj' hi hi' hlen
  refine ⟨hD.trans hD'.symm, ?_⟩
  rcases Nat.eq_zero_or_pos i with hz | hp
  · rw [h0 hz, h0' hz]
    simp
  · obtain ⟨m, hm, -, hpart⟩ := hpos hp
    obtain ⟨m', hm', -, hpart'⟩ := hpos' hp
    obtain rfl : m = m' := Option.some.inj (hm.symm.trans hm')
    have hcur : a.cursor.toNat = 119 * i - 4 := by have := hpart.cursor_eq; omega
    rw [hpart'.cursor_eq, ← hpart.cursor_eq, hcur]
    exact ⟨rfl, fun _ => hpart.size_eq.trans hpart'.size_eq.symm,
      hpart.take_eq.trans hpart'.take_eq.symm⟩

end Assembled

/-! ## A receiver that is fed from one stream -/

namespace ReceiverSys

open Receiver

/-- The receiver, which refines the reorder buffer of `L`, has consumed a beginning of the
stream `B` and holds packets of it. -/
structure FedFrom (fresh : ℤ → ℕ → Byte) (B : List Packet) (ρ : ReceiverSys)
    (L : ReorderBuffer.Log Packet) : Prop where
  refines : Refines fresh ρ L
  consumed : ρ.consumed <+: B
  holds : L.buf.HoldsOf B

/-- The packet is the one of the stream that its number says. -/
def OfStream (B : List Packet) (pkt : Packet) : Prop := ∃ k : ℕ, B[k]? = some pkt ∧ pkt.seq = k

namespace FedFrom

variable {fresh : ℤ → ℕ → Byte} {B : List Packet} {ρ : ReceiverSys} {L : ReorderBuffer.Log Packet}

lemma init (fresh : ℤ → ℕ → Byte) (B : List Packet) (w : Ring windowsSize Packet) :
    FedFrom fresh B (.init w) ⟨.empty, [], []⟩ :=
  ⟨Refines.init fresh w, List.nil_prefix, .empty B⟩

lemma next_eq (h : FedFrom fresh B ρ L) : L.buf.next = ρ.consumed.length := by
  rw [h.refines.next_eq, h.refines.consumed_eq]

lemma expected_eq (h : FedFrom fresh B ρ L) : ρ.rcv.expected = ρ.consumed.length := by
  rw [← h.refines.sim.next_eq, h.next_eq]

lemma expected_le (h : FedFrom fresh B ρ L) : ρ.rcv.expected ≤ 2 ^ 31 := by
  rw [← h.refines.sim.next_eq]
  exact h.refines.next_le

/-- **A packet of the stream arrives.** It is answered with one ack, and if its number is an
`int` below the end of the window it is consumed or held afterwards. -/
theorem step (h : FedFrom fresh B ρ L) {a : Packet × Packet} {k : ℕ} (hget : B[k]? = some a.1)
    (hseq : a.1.seq = k ∨ a.1.seq < 0) (hver : rdtVerifyChecksum a.1 = true) :
    ∃ ρ', ρ.step fresh a = some ρ' ∧ FedFrom fresh B ρ' (L.arrive 10 (a.1.seq, a.1)) ∧
      ρ'.acks = ρ.acks ++ [receiverAck a.2 (ρ'.rcv.expected - 1)] ∧
      (receiverAck a.2 (ρ'.rcv.expected - 1)).seq = ρ'.rcv.expected - 1 ∧
      ρ.rcv.expected ≤ ρ'.rcv.expected ∧
      (0 ≤ a.1.seq → a.1.seq < ρ.rcv.expected + 10 → a.1 ∈ ρ'.consumed ∨
        (ρ'.rcv.validChecks.get a.1.seq = true ∧ ρ'.rcv.window.get a.1.seq = a.1)) := by
  have hnext := h.next_eq
  have hexp := h.expected_eq
  obtain ⟨ρ', hstep, href, hacks⟩ := h.refines.step hver
  -- the reorder buffer goes on along the stream
  obtain ⟨m, hnm, hnext', htake, hholds, hkept⟩ :
      ∃ m : ℕ, ρ.consumed.length ≤ m ∧ (L.buf.arrive 10 a.1.seq a.1).2.next = m ∧
        B.take ρ.consumed.length ++ (L.buf.arrive 10 a.1.seq a.1).1 = B.take m ∧
        (L.buf.arrive 10 a.1.seq a.1).2.HoldsOf B ∧
        (0 ≤ a.1.seq → a.1.seq < L.buf.next + 10 →
          a.1.seq < (L.buf.arrive 10 a.1.seq a.1).2.next ∨
            (L.buf.arrive 10 a.1.seq a.1).2.held.lookup a.1.seq = some a.1) := by
    rcases hseq with hseq | hneg
    · obtain ⟨m, h₁, -, h₂, h₃, h₄, h₅⟩ :=
        ReorderBuffer.arrive_stream (W := 10) hnext h.consumed.length_le h.holds hget
      rw [← hseq] at h₂ h₃ h₄ h₅
      exact ⟨m, h₁, h₂, h₃, h₄, fun _ => h₅⟩
    · rw [ReorderBuffer.arrive_of_lt (by omega)]
      exact ⟨_, le_refl _, hnext, List.append_nil _, h.holds, fun hpos => absurd hneg (by omega)⟩
  have hcons : ρ'.consumed = B.take m := by
    rw [href.consumed_eq, ← htake, ← List.prefix_iff_eq_take.mp h.consumed,
      h.refines.consumed_eq]
    rfl
  have hfed : FedFrom fresh B ρ' (L.arrive 10 (a.1.seq, a.1)) :=
    ⟨href, by rw [hcons]; exact List.take_prefix _ _, hholds⟩
  have hexp' : ρ'.rcv.expected = m := href.sim.next_eq.symm.trans hnext'
  have hmax := hfed.expected_le
  refine ⟨ρ', hstep, hfed, hacks, seq_receiverAck _ (by omega) (by omega), by omega,
    fun hpos hlt => ?_⟩
  rcases hkept hpos (by rw [h.refines.sim.next_eq]; exact hlt) with hdone | hheld
  · left
    rw [hcons]
    exact List.mem_of_getElem? (i := k) (by rw [List.getElem?_take, if_pos (by omega), hget])
  · right
    have hmem := Finmap.mem_of_lookup_eq_some hheld
    obtain ⟨hlo, hhi⟩ := href.sim.keys _ hmem
    exact ⟨(href.sim.valid_iff _ hlo hhi).mpr hmem, href.sim.window_eq _ _ hheld⟩

/-- What the receiver has reassembled, when the stream is one of segments. -/
lemma assembled {A : List UpperMessage} (h : FedFrom fresh B ρ L)
    (hsizes : ∀ p ∈ B, p.payloadSize = p.payload.length)
    (hpre : B.map Packet.payload <+: A.flatMap segment) :
    Assembled A ρ.consumed ρ.rcv.toAssembly ρ.delivered := by
  have hasm := (Assembled.init A (a := .start) rfl).feed fresh ρ.consumed 0
    (fun p hp => hsizes p (h.consumed.subset hp))
    (by rw [List.nil_append]; exact (h.consumed.map Packet.payload).trans hpre)
  rw [List.nil_append, List.nil_append, ← h.refines.assembly_eq, ← h.refines.delivered_eq] at hasm
  exact hasm

end FedFrom

/-! ## Sequences of arrivals -/

/-- Every packet of the sequence is below the end of the window when it arrives. -/
def InWindow (fresh : ℤ → ℕ → Byte) (ρ : ReceiverSys) (as : List (Packet × Packet)) : Prop :=
  ∀ before a, before ++ [a] <+: as → ∀ ρ', ρ.run fresh before = some ρ' →
    a.1.seq < ρ'.rcv.expected + windowsSize

lemma run_append_singleton (fresh : ℤ → ℕ → Byte) (ρ : ReceiverSys) (as : List (Packet × Packet))
    (a : Packet × Packet) : ρ.run fresh (as ++ [a]) = (ρ.run fresh as).bind (step fresh · a) := by
  unfold run
  rw [List.foldlM_append]
  cases List.foldlM (step fresh) ρ as with
  | none => rfl
  | some ρ' => simp

lemma run_consumed {fresh : ℤ → ℕ → Byte} {ρ : ReceiverSys} {as : List (Packet × Packet)} :
    ∀ {ρ'}, ρ.run fresh as = some ρ' → ρ.consumed <+: ρ'.consumed := by
  induction as using List.reverseRecOn with
  | nil =>
    intro ρ' h
    obtain rfl : ρ = ρ' := Option.some.inj h
    exact List.prefix_refl _
  | append_singleton as a ih =>
    intro ρ' h
    rw [run_append_singleton, Option.bind_eq_some_iff] at h
    obtain ⟨ρ₁, hrun, hstep⟩ := h
    obtain ⟨o, -, rfl⟩ := Option.map_eq_some_iff.mp hstep
    exact (ih hrun).trans (List.prefix_append _ _)

/-- The window only moves up, so what is below its end at first is so when it arrives. -/
lemma Refines.inWindow {fresh : ℤ → ℕ → Byte} {ρ : ReceiverSys} {L : ReorderBuffer.Log Packet}
    (h : Refines fresh ρ L) {as : List (Packet × Packet)}
    (hver : ∀ a ∈ as, rdtVerifyChecksum a.1 = true)
    (hlt : ∀ a ∈ as, a.1.seq < ρ.rcv.expected + 10) : InWindow fresh ρ as := by
  intro before a hpre ρ' hrun
  have hsub := hpre.subset
  obtain ⟨ρ'', hrun', h'⟩ := h.run before (fun x hx => hver x (hsub (List.mem_append_left _ hx)))
  obtain rfl : ρ'' = ρ' := Option.some.inj (hrun'.symm.trans hrun)
  have ha := hlt a (hsub (List.mem_append_right _ (List.mem_singleton_self a)))
  -- `expected` counts the packets consumed
  have hle := (run_consumed hrun).length_le
  rw [h.consumed_eq, h'.consumed_eq] at hle
  have h₁ := h.sim.next_eq
  have h₂ := h.next_eq
  have h₃ := h'.sim.next_eq
  have h₄ := h'.next_eq
  push_cast
  omega

/-- **What is known after a sequence of arrivals are the numbers that arrived**, and the last ack
carries the number before `expected`. -/
theorem FedFrom.run {fresh : ℤ → ℕ → Byte} {B : List Packet} (hB : Sender.Numbered B) {ρ : ReceiverSys}
    {L : ReorderBuffer.Log Packet} (h : FedFrom fresh B ρ L) (as : List (Packet × Packet)) :
    (∀ a ∈ as, OfStream B a.1) → InWindow fresh ρ as →
    ∃ ρ' L', ρ.run fresh as = some ρ' ∧ FedFrom fresh B ρ' L' ∧
      (∀ t, L'.buf.Known t ↔ L.buf.Known t ∨ ∃ a ∈ as, a.1.seq = t) ∧
      ∃ new, ρ'.acks = ρ.acks ++ new ∧ (as ≠ [] → ∃ before ack, new = before ++ [ack] ∧
        ack.seq = ρ'.rcv.expected - 1 ∧ rdtVerifyChecksum ack = true) := by
  -- the last arrival is split off, so that its ack is the last one
  induction as using List.reverseRecOn with
  | nil =>
    intro _ _
    exact ⟨ρ, L, rfl, h, by simp, [], by simp, fun hne => absurd rfl hne⟩
  | append_singleton as a ih =>
    intro hmem hwin
    obtain ⟨ρ₁, L₁, hrun, hfed, hknown, new, hnew, -⟩ := ih
      (fun x hx => hmem x (List.mem_append_left _ hx))
      (fun before x hpre => hwin before x (hpre.trans (List.prefix_append _ _)))
    obtain ⟨k, hget, hseq⟩ := hmem a (List.mem_append_right _ (List.mem_singleton_self a))
    obtain ⟨ρ', hstep, hfed', hacks, hack, -, -⟩ := hfed.step hget (Or.inl hseq) (hB k a.1 hget).2
    have hlt : a.1.seq < L₁.buf.next + 10 := by
      rw [hfed.refines.sim.next_eq]
      exact hwin as a (List.prefix_refl _) ρ₁ hrun
    refine ⟨ρ', _, by rw [run_append_singleton, hrun]; exact hstep, hfed', fun t => ?_, new ++ [_],
      by rw [hacks, hnew, List.append_assoc], fun _ => ⟨new, _, rfl, hack, by simp⟩⟩
    show (L₁.buf.arrive 10 a.1.seq a.1).2.Known t ↔ _
    rw [ReorderBuffer.known_arrive hlt, hknown, or_assoc]
    simp only [List.mem_append, List.mem_singleton, or_and_right, exists_or, exists_eq_left]
    rw [eq_comm (a := t)]

/-- The number that is waited for is not known. -/
lemma FedFrom.not_known {fresh : ℤ → ℕ → Byte} {B : List Packet} {ρ : ReceiverSys}
    {L : ReorderBuffer.Log Packet} (h : FedFrom fresh B ρ L) : ¬L.buf.Known L.buf.next := by
  rintro (hlt | hheld)
  · exact lt_irrefl _ hlt
  · exact h.refines.not_held hheld

/-- A receiver that knows just the numbers that came waits for the least of the others. -/
lemma FedFrom.isLeast_expected {fresh : ℤ → ℕ → Byte} {B : List Packet} {ρ : ReceiverSys}
    {L : ReorderBuffer.Log Packet} (h : FedFrom fresh B ρ L) {as : List (Packet × Packet)}
    (hknown : ∀ t, L.buf.Known t ↔
      (ReorderBuffer.empty : ReorderBuffer Packet).Known t ∨ ∃ a ∈ as, a.1.seq = t) :
    IsLeast {s : ℤ | 0 ≤ s ∧ ¬∃ a ∈ as, a.1.seq = s} ρ.rcv.expected := by
  rw [← h.refines.sim.next_eq]
  refine ⟨⟨?_, ?_⟩, ?_⟩
  · rw [h.refines.sim.next_eq, h.expected_eq]
    omega
  · intro hcome
    exact h.not_known ((hknown _).mpr (Or.inr hcome))
  · rintro s ⟨hpos, hout⟩
    by_contra hlt
    rcases (hknown s).mp (Or.inl (not_le.mp hlt)) with (hneg | hheld) | hcome
    · exact absurd hneg (not_lt.mpr hpos)
    · exact absurd hheld (by simp [ReorderBuffer.empty, Finmap.notMem_empty])
    · exact hout hcome

/-- Receivers that know the same numbers of one stream hold the same packets. -/
lemma FedFrom.rings_eq {fresh fresh' : ℤ → ℕ → Byte} {B : List Packet} {ρ ρ' : ReceiverSys}
    {L L' : ReorderBuffer.Log Packet} (h : FedFrom fresh B ρ L) (h' : FedFrom fresh' B ρ' L')
    (hnext : L.buf.next = L'.buf.next) (hknown : ∀ t, L.buf.Known t ↔ L'.buf.Known t) :
    ρ.rcv.validChecks = ρ'.rcv.validChecks ∧
      ∀ i, ρ.rcv.validChecks.cell i = true → ρ.rcv.window.cell i = ρ'.rcv.window.cell i := by
  have hsim := h.refines.sim
  have hsim' := h'.refines.sim
  -- inside the window, what is known is what is held
  have hheld : ∀ s, L.buf.next ≤ s → (s ∈ L.buf.held ↔ s ∈ L'.buf.held) := by
    intro s hs
    have hs' : L'.buf.next ≤ s := hnext ▸ hs
    have := hknown s
    unfold ReorderBuffer.Known at this
    rwa [or_iff_right (not_lt.mpr hs), or_iff_right (not_lt.mpr hs')] at this
  have hvalid : ∀ i, ρ.rcv.validChecks.cell i = ρ'.rcv.validChecks.cell i := by
    intro i
    obtain ⟨s, hlo, hhi, rfl⟩ := Ring.exists_slot_eq L.buf.next i
    have h₁ := hsim.valid_iff s hlo hhi
    have h₂ := hsim'.valid_iff s (by omega) (by rw [← hnext]; exact hhi)
    exact Bool.eq_iff_iff.mpr (h₁.trans ((hheld s hlo).trans h₂.symm))
  refine ⟨Lib.Ring.ext (funext hvalid), fun i hi => ?_⟩
  obtain ⟨s, hlo, hhi, rfl⟩ := Ring.exists_slot_eq L.buf.next i
  have hmem := (hsim.valid_iff s hlo hhi).mp hi
  obtain ⟨p, hp⟩ := Finmap.mem_iff.mp hmem
  obtain ⟨p', hp'⟩ := Finmap.mem_iff.mp ((hheld s hlo).mp hmem)
  -- the stream has one packet for each number
  obtain ⟨k, hk, hget⟩ := h.holds s p hp
  obtain ⟨k', hk', hget'⟩ := h'.holds s p' hp'
  obtain rfl : k = k' := by omega
  obtain rfl : p = p' := Option.some.inj (hget.symm.trans hget')
  exact (hsim.window_eq s p hp).trans (hsim'.window_eq s p hp').symm

/-- **Arrival order and duplicates do not matter to the receiver.** Of a stream that a sender has
built, any two sequences of packets that contain the same numbers, each of them below the end
of the window when it arrives, leave two receivers with the same `expected`, which is the least
number that did not come, the same messages handed on, the same cursor and partial message, the
same valid entries and the same packets in them; and the last ack is `expected - 1`. -/
theorem arrival_order_irrelevant {σ : SenderSys}
    (hσ : Run SenderSys.step SenderSys.Retaining SenderSys.Init σ)
    (fresh fresh' : ℤ → ℕ → Byte) (w w' : Ring windowsSize Packet)
    {as as' : List (Packet × Packet)} (hne : as ≠ []) (hne' : as' ≠ [])
    (has : ∀ a ∈ as, OfStream σ.built a.1) (has' : ∀ a ∈ as', OfStream σ.built a.1)
    (hsame : ∀ s, (∃ a ∈ as, a.1.seq = s) ↔ ∃ a ∈ as', a.1.seq = s)
    (hwin : InWindow fresh (.init w) as) (hwin' : InWindow fresh' (.init w') as') :
    ∃ ρ ρ', (init w).run fresh as = some ρ ∧ (init w').run fresh' as' = some ρ' ∧
      ρ.rcv.expected = ρ'.rcv.expected ∧
      IsLeast {s : ℤ | 0 ≤ s ∧ ¬∃ a ∈ as, a.1.seq = s} ρ.rcv.expected ∧
      ρ.delivered = ρ'.delivered ∧
      ρ.rcv.cursor = ρ'.rcv.cursor ∧
      (ρ.rcv.cursor ≠ 0 → ρ.rcv.curMsg.size = ρ'.rcv.curMsg.size) ∧
      ρ.rcv.curMsg.data.take ρ.rcv.cursor.toNat =
        ρ'.rcv.curMsg.data.take ρ'.rcv.cursor.toNat ∧
      ρ.rcv.validChecks = ρ'.rcv.validChecks ∧
      (∀ i, ρ.rcv.validChecks.cell i = true → ρ.rcv.window.cell i = ρ'.rcv.window.cell i) ∧
      (∃ ack, ρ.acks.getLast? = some ack ∧ ack.seq = ρ.rcv.expected - 1) ∧
      ∃ ack, ρ'.acks.getLast? = some ack ∧ ack.seq = ρ'.rcv.expected - 1 := by
  have hs := SenderSys.stream_of_run hσ
  have hnum := (SenderSys.resting_windowed hσ).2.numbered
  have hpre := SenderSys.payload_isPrefix hs
  obtain ⟨ρ, L, hrun, hfed, hknown, new, hacks, hlast⟩ :=
    (FedFrom.init fresh _ w).run hnum as has hwin
  obtain ⟨ρ', L', hrun', hfed', hknown', new', hacks', hlast'⟩ :=
    (FedFrom.init fresh' _ w').run hnum as' has' hwin'
  obtain ⟨before, ack, rfl, hack, -⟩ := hlast hne
  obtain ⟨before', ack', rfl, hack', -⟩ := hlast' hne'
  have hall : ∀ t, L.buf.Known t ↔ L'.buf.Known t := by
    intro t
    rw [hknown, hknown', hsame]
  have hnext := ReorderBuffer.next_eq_of_known hfed.refines.not_held hfed'.refines.not_held hall
  have hexp : ρ.rcv.expected = ρ'.rcv.expected := by
    rw [← hfed.refines.sim.next_eq, hnext, hfed'.refines.sim.next_eq]
  -- equally long beginnings of the stream are equal
  have hcons : ρ.consumed = ρ'.consumed := by
    have h₁ := hfed.expected_eq
    have h₂ := hfed'.expected_eq
    rw [List.prefix_iff_eq_take.mp hfed.consumed, List.prefix_iff_eq_take.mp hfed'.consumed,
      show ρ.consumed.length = ρ'.consumed.length by omega]
  have hasm := hfed.assembled hs.sizes hpre
  rw [hcons] at hasm
  obtain ⟨hdel, hcur, hsize, hdata⟩ := hasm.unique (hfed'.assembled hs.sizes hpre)
  obtain ⟨hvalid, hwindow⟩ := hfed.rings_eq hfed' hnext hall
  exact ⟨ρ, ρ', hrun, hrun', hexp, hfed.isLeast_expected hknown, hdel, hcur, hsize, hdata, hvalid,
    hwindow, ⟨ack, by simp [hacks], hack⟩, ack', by simp [hacks'], hack'⟩

/-- Arrivals of packets of the rough history. -/
def roughArrivals (ks : List ℕ) : List (Packet × Packet) :=
  ks.map fun k => (SenderSys.roughPacket k, .zero)

lemma roughArrivals_spec {ks : List ℕ} (hks : ∀ k ∈ ks, k < 4) : ∀ a ∈ roughArrivals ks,
    OfStream SenderSys.rough.built a.1 ∧ rdtVerifyChecksum a.1 = true ∧ a.1.seq < 10 := by
  intro a ha
  obtain ⟨k, hk, rfl⟩ := List.mem_map.mp ha
  have hlt := hks k hk
  obtain ⟨hget, hseq, hver⟩ := SenderSys.roughPacket_spec hlt
  exact ⟨⟨k, hget, hseq⟩, hver, by rw [hseq]; omega⟩

lemma inWindow_roughArrivals (fresh : ℤ → ℕ → Byte) (w : Ring windowsSize Packet) {ks : List ℕ}
    (hks : ∀ k ∈ ks, k < 4) : InWindow fresh (init w) (roughArrivals ks) := by
  refine (Refines.init fresh w).inWindow (fun a ha => (roughArrivals_spec hks a ha).2.1) ?_
  intro a ha
  show a.1.seq < 0 + 10
  rw [zero_add]
  exact (roughArrivals_spec hks a ha).2.2

lemma exists_seq_roughArrivals {ks : List ℕ} (hks : ∀ k ∈ ks, k < 4) (s : ℤ) :
    (∃ a ∈ roughArrivals ks, a.1.seq = s) ↔ ∃ k ∈ ks, (k : ℤ) = s := by
  unfold roughArrivals
  constructor
  · rintro ⟨a, ha, hs⟩
    obtain ⟨k, hk, rfl⟩ := List.mem_map.mp ha
    exact ⟨k, hk, (SenderSys.roughPacket_spec (hks k hk)).2.1.symm.trans hs⟩
  · rintro ⟨k, hk, hs⟩
    exact ⟨_, List.mem_map_of_mem hk, (SenderSys.roughPacket_spec (hks k hk)).2.1.trans hs⟩

/-- The packets of `paragraph` once and in order, or with the last one first and two of them twice,
on zeroed memory or not: the same is handed on. -/
theorem shuffled_paragraph : ∃ ρ ρ',
    (init (Ring.fill _ .zero)).run (fun _ _ => 0) (roughArrivals [0, 1, 2]) = some ρ ∧
    (init (Ring.fill _ (bytePacket 7 0x42))).run (fun _ _ => 1) (roughArrivals [2, 1, 2, 0, 1]) =
      some ρ' ∧
    ρ.delivered = ρ'.delivered := by
  have h : ∀ k ∈ [0, 1, 2], k < 4 := by decide
  have h' : ∀ k ∈ [2, 1, 2, 0, 1], k < 4 := by decide
  have hsame : ∀ s, (∃ a ∈ roughArrivals [0, 1, 2], a.1.seq = s) ↔
      ∃ a ∈ roughArrivals [2, 1, 2, 0, 1], a.1.seq = s := by
    intro s
    rw [exists_seq_roughArrivals h, exists_seq_roughArrivals h']
    simp
    tauto
  obtain ⟨ρ, ρ', hrun, hrun', -, -, hdel, -⟩ := arrival_order_irrelevant
    (SenderSys.retaining_of_bufferFits SenderSys.run_rough_bufferFits) (fun _ _ => 0) (fun _ _ => 1)
    (Ring.fill _ .zero) (Ring.fill _ (bytePacket 7 0x42)) (List.cons_ne_nil _ _)
    (List.cons_ne_nil _ _) (fun a ha => (roughArrivals_spec h a ha).1)
    (fun a ha => (roughArrivals_spec h' a ha).1) hsame (inWindow_roughArrivals _ _ h)
    (inWindow_roughArrivals _ _ h')
  exact ⟨ρ, ρ', hrun, hrun', hdel⟩

end ReceiverSys
end NetLabs.Rdt
