import Mathlib.Data.Fintype.Card
import Mathlib.Data.Int.Interval
import NetLabs.Lib.ReorderBuffer
import NetLabs.Rdt.Receiver

/-!
# The receiver refines a reorder buffer

`Sim` relates the ring of ten packets and its valid bits to the finite map of
`ReorderBuffer`: a bit is set exactly for the numbers that are held, and the slot holds the
packet held under that number. `loop_spec` carries it through the consuming loop, where the
window moves under the ring, and `fromLowerLayer_spec` is the specification of the handler:
what it consumes, answers and keeps is one arrival at the reorder buffer, and what it hands to
the upper layer is what `Assembly.feed` makes of the consumed packets.
-/

namespace NetLabs.Rdt

open NetLabs.Lib NetLabs.Lib.Bytes

/-! ## Acks -/

@[simp] lemma seqWord_receiverAck (junk : Packet) (ack : ℤ) :
    (receiverAck junk ack).seqWord = BitVec.ofInt 32 ack := by
  rw [Packet.seqWord, receiverAck, slice_rdtAddChecksum _ (by decide), Packet.data_write,
    slice_overwrite_self _ (length_intBytes ack) (by rw [junk.length_data]; decide),
    readWord_intBytes]

lemma seq_receiverAck (junk : Packet) {ack : ℤ} (hlo : -1 ≤ ack) (hhi : ack < 2 ^ 31) :
    (receiverAck junk ack).seq = ack := by
  rw [Packet.seq_eq_toInt, seqWord_receiverAck, toInt_ofInt32 (by omega) hhi]

@[simp] lemma rdtVerifyChecksum_receiverAck (junk : Packet) (ack : ℤ) :
    rdtVerifyChecksum (receiverAck junk ack) = true :=
  rdtVerifyChecksum_rdtAddChecksum _

/-! ## Reassembly of what is consumed -/

/-- `cur_msg` and `cursor` after `Receiver_Init`. -/
def Assembly.start : Assembly := ⟨⟨0, []⟩, 0⟩

/-- The loop's treatment of the packets numbered from `e` on. -/
def Assembly.feed (fresh : ℤ → ℕ → Byte) : ℤ → List Packet → Assembly → Assembly × List Message
  | _, [], a => (a, [])
  | e, p :: ps, a =>
    let r := a.consume (fresh e) p
    let r' := feed fresh (e + 1) ps r.1
    (r'.1, r.2 ++ r'.2)

lemma Assembly.feed_append (fresh : ℤ → ℕ → Byte) : ∀ (ps qs : List Packet) (e : ℤ) (a : Assembly),
    Assembly.feed fresh e (ps ++ qs) a =
      ((Assembly.feed fresh (e + ps.length) qs (Assembly.feed fresh e ps a).1).1,
        (Assembly.feed fresh e ps a).2 ++
          (Assembly.feed fresh (e + ps.length) qs (Assembly.feed fresh e ps a).1).2) := by
  intro ps
  induction ps with
  | nil => intro qs e a; simp [feed]
  | cons p ps ih =>
    intro qs e a
    have hnum : e + ((p :: ps).length : ℤ) = e + 1 + ps.length := by
      rw [List.length_cons]; push_cast; ring
    rw [List.cons_append, hnum]
    simp only [feed, ih, List.append_assoc]

namespace Receiver

/-! ## The loop always ends -/

/-- The set entries of `valid_checks`. -/
def validSlots (v : Ring windowsSize Bool) : Finset (Fin windowsSize) :=
  Finset.univ.filter fun i => v.cell i = true

/-- Clearing a set entry. -/
lemma validSlots_clear {v : Ring windowsSize Bool} {s : ℤ} (h : v.get s = true) :
    (validSlots (v.set s false)).card < (validSlots v).card := by
  have hmem : Ring.slot windowsSize s ∈ validSlots v := by
    simpa [validSlots, Ring.get] using h
  -- no other entry changes, and the cleared one is out
  have herase : validSlots (v.set s false) ⊆ (validSlots v).erase (Ring.slot windowsSize s) := by
    intro i hi
    simp only [validSlots, Ring.set, Finset.mem_filter, Finset.mem_univ, true_and,
      Function.update_apply] at hi
    rw [Finset.mem_erase]
    split at hi
    · cases hi
    · rename_i hne
      exact ⟨hne, by simpa [validSlots] using hi⟩
  exact lt_of_le_of_lt (Finset.card_le_card herase) (Finset.card_erase_lt_of_mem hmem)

/-- A bound on the rounds that are left. -/
def Consume.roundsLeft (c : Consume) : ℕ :=
  if c.running then (validSlots c.rcv.validChecks).card + 1 else 0

/-- Every round leaves the loop or clears an entry of `valid_checks`. -/
lemma Consume.roundsLeft_body (fresh : ℤ → ℕ → Byte) {c : Consume} (h : c.running = true) :
    (c.body fresh).roundsLeft < c.roundsLeft := by
  unfold Consume.body
  dsimp only
  split
  · rename_i hvalid
    have hless := validSlots_clear hvalid
    simp only [roundsLeft, h, if_true]
    omega
  · simp [roundsLeft, h]

/-- **`Receiver_FromLowerLayer` always returns**, from any state and with any packet. -/
theorem fromLowerLayer_isSome (fresh : ℤ → ℕ → Byte) (junk pkt : Packet) (r : Receiver) :
    ∃ o, r.fromLowerLayer fresh junk pkt = some o := by
  have hloop : ∃ c, While.run Consume.running (Consume.body fresh) (windowsSize + 1)
      ⟨r, pkt, pkt.seq, true, [], []⟩ = some c := by
    refine While.exists_run (I := fun _ => True) Consume.roundsLeft
      (fun c _ hrun => ⟨trivial, c.roundsLeft_body fresh hrun⟩) _ trivial ?_
    -- at most ten entries are set, so eleven rounds are enough
    have hcard : (validSlots r.validChecks).card ≤ windowsSize := by
      simpa using Finset.card_le_univ (validSlots r.validChecks)
    simpa [Consume.roundsLeft] using hcard
  obtain ⟨c, hc⟩ := hloop
  unfold fromLowerLayer
  rw [hc]
  split
  · exact ⟨_, rfl⟩
  · split
    · exact ⟨_, rfl⟩
    · split
      · exact ⟨_, rfl⟩
      · exact ⟨_, rfl⟩

/-! ## The ring and the map -/

/-- The ring of the receiver holds what the reorder buffer holds. -/
structure Sim (r : Receiver) (b : ReorderBuffer Packet) : Prop where
  next_eq : b.next = r.expected
  keys : ∀ s, s ∈ b.held → b.next ≤ s ∧ s < b.next + 10
  valid_iff : ∀ s, b.next ≤ s → s < b.next + 10 → (r.validChecks.get s = true ↔ s ∈ b.held)
  window_eq : ∀ s p, b.held.lookup s = some p → r.window.get s = p
  seq_eq : ∀ s p, b.held.lookup s = some p → p.seq = s

namespace Sim

lemma init (w : Ring windowsSize Packet) : Sim (.init w) .empty := by
  constructor <;> simp [Receiver.init, ReorderBuffer.empty, Finmap.notMem_empty]

/-- The window moves on past a number that is not held. Its slot is reused for the number at
the far end, which is not held either. -/
lemma advance {r : Receiver} {b : ReorderBuffer Packet} (h : Sim r b) (hn : b.next ∉ b.held)
    (a : Assembly) :
    Sim { r with toAssembly := a, expected := r.expected + 1 } { b with next := b.next + 1 } where
  next_eq := by rw [h.next_eq]
  keys := by
    intro s hs
    obtain ⟨hlo, hhi⟩ := h.keys s hs
    have hne : s ≠ b.next := fun heq => hn (heq ▸ hs)
    dsimp only
    omega
  valid_iff := by
    intro s hlo hhi
    dsimp only at hlo hhi ⊢
    -- the only new number of the window shares its slot with the one that left it
    by_cases hlast : s = b.next + 10
    · have hslot : Ring.slot windowsSize s = Ring.slot windowsSize b.next := by
        rw [hlast]; exact Ring.slot_add_self b.next
      have hout : s ∉ b.held := fun hs => by have := (h.keys s hs).2; omega
      rw [Ring.get_congr _ hslot, h.valid_iff b.next (le_refl _) (by omega)]
      exact ⟨fun hs => absurd hs hn, fun hs => absurd hs hout⟩
    · exact h.valid_iff s (by omega) (by omega)
  window_eq := h.window_eq
  seq_eq := h.seq_eq

/-- The held packet with the next number is taken out. -/
lemma pop {r : Receiver} {b : ReorderBuffer Packet} (h : Sim r b) :
    Sim { r with validChecks := r.validChecks.set r.expected false }
      ⟨b.next, b.held.erase b.next⟩ where
  next_eq := h.next_eq
  keys := fun s hs => h.keys s (Finmap.mem_erase.mp hs).2
  valid_iff := by
    intro s hlo hhi
    dsimp only at hlo hhi ⊢
    rw [← h.next_eq, Finmap.mem_erase]
    by_cases hs : s = b.next
    · rw [hs, Ring.get_set_self]; simp
    · have h₁ : b.next < s + windowsSize := by push_cast; omega
      have h₂ : s < b.next + windowsSize := by push_cast; omega
      rw [Ring.get_set_of_near _ _ h₁ h₂ (Ne.symm hs), h.valid_iff s hlo hhi]
      exact ⟨fun hmem => ⟨hs, hmem⟩, fun hmem => hmem.2⟩
  window_eq := by
    intro s p hs
    by_cases hsn : s = b.next
    · subst hsn; simp at hs
    · exact h.window_eq s p (by rwa [Finmap.lookup_erase_ne hsn] at hs)
  seq_eq := by
    intro s p hs
    by_cases hsn : s = b.next
    · subst hsn; simp at hs
    · exact h.seq_eq s p (by rwa [Finmap.lookup_erase_ne hsn] at hs)

/-- An early packet is stored under a number that is not held. -/
lemma insert {r : Receiver} {b : ReorderBuffer Packet} (h : Sim r b) {p : Packet}
    (hlo : b.next < p.seq) (hhi : p.seq < b.next + 10) :
    Sim { r with
        window := r.window.set p.seq p
        validChecks := r.validChecks.set p.seq true }
      { b with held := b.held.insert p.seq p } where
  next_eq := h.next_eq
  keys := by
    intro s hs
    rcases Finmap.mem_insert.mp hs with rfl | hs
    · exact ⟨le_of_lt hlo, hhi⟩
    · exact h.keys s hs
  valid_iff := by
    intro s hs₁ hs₂
    dsimp only at hs₁ hs₂ ⊢
    rw [Finmap.mem_insert]
    by_cases hs : s = p.seq
    · rw [hs, Ring.get_set_self]; simp
    -- two numbers of the window have different slots
    · have h₁ : p.seq < s + windowsSize := by push_cast; omega
      have h₂ : s < p.seq + windowsSize := by push_cast; omega
      rw [Ring.get_set_of_near _ _ h₁ h₂ (Ne.symm hs), h.valid_iff s hs₁ hs₂]
      exact ⟨Or.inr, fun hmem => hmem.resolve_left hs⟩
  window_eq := by
    intro s q hq
    dsimp only at hq ⊢
    by_cases hs : s = p.seq
    · subst hs
      rw [Finmap.lookup_insert] at hq
      rw [Ring.get_set_self]
      exact Option.some.inj hq
    · rw [Finmap.lookup_insert_of_ne _ hs] at hq
      obtain ⟨hs₁, hs₂⟩ := h.keys s (Finmap.mem_of_lookup_eq_some hq)
      have h₁ : p.seq < s + windowsSize := by push_cast; omega
      have h₂ : s < p.seq + windowsSize := by push_cast; omega
      rw [Ring.get_set_of_near _ _ h₁ h₂ (Ne.symm hs)]
      exact h.window_eq s q hq
  seq_eq := by
    intro s q hq
    dsimp only at hq
    by_cases hs : s = p.seq
    · subst hs
      rw [Finmap.lookup_insert] at hq
      rw [Option.some.inj hq]
    · rw [Finmap.lookup_insert_of_ne _ hs] at hq
      exact h.seq_eq s q hq

/-- At most nine packets are held between two calls. -/
lemma card_lt {r : Receiver} {b : ReorderBuffer Packet} (h : Sim r b) (hn : b.next ∉ b.held) :
    b.held.keys.card < 10 := by
  have hsub : b.held.keys ⊆ Finset.Ioo b.next (b.next + 10) := by
    intro s hs
    obtain ⟨hlo, hhi⟩ := h.keys s (Finmap.mem_keys.mp hs)
    have hne : s ≠ b.next := fun heq => hn (heq ▸ Finmap.mem_keys.mp hs)
    rw [Finset.mem_Ioo]
    omega
  have hcard := Finset.card_le_card hsub
  rw [Int.card_Ioo] at hcard
  omega

end Sim

/-! ## The consuming loop -/

/-- A state in which a round of the loop starts. -/
structure Consume.Ready (c : Consume) (b : ReorderBuffer Packet) : Prop where
  running : c.running = true
  sim : Sim c.rcv b
  not_held : b.next ∉ b.held
  packetSeq_eq : c.packetSeq = c.rcv.expected
  seq_eq : c.pkt.seq = c.packetSeq

/-- A round with the following number held: its packet is the next to be consumed. -/
lemma Consume.Ready.body_of_some (fresh : ℤ → ℕ → Byte) {c : Consume} {b : ReorderBuffer Packet}
    (h : c.Ready b) {p : Packet} (hp : b.held.lookup (b.next + 1) = some p) :
    (c.body fresh).Ready ⟨b.next + 1, b.held.erase (b.next + 1)⟩ ∧ (c.body fresh).pkt = p := by
  have hadv := h.sim.advance h.not_held (c.rcv.toAssembly.consume (fresh c.rcv.expected) c.pkt).1
  have hnext := h.sim.next_eq
  have hget : c.rcv.window.get (c.rcv.expected + 1) = p := by
    rw [← hnext]; exact h.sim.window_eq _ _ hp
  have hseq : p.seq = c.rcv.expected + 1 := by
    rw [← hnext]; exact h.sim.seq_eq _ _ hp
  have hvalid : c.rcv.validChecks.get (c.rcv.expected + 1) = true := by
    rw [← hnext]
    exact (hadv.valid_iff _ (le_refl _) (by omega)).mpr (Finmap.mem_of_lookup_eq_some hp)
  have hbody : c.body fresh = { c with
      rcv := { c.rcv with
        toAssembly := (c.rcv.toAssembly.consume (fresh c.rcv.expected) c.pkt).1
        expected := c.rcv.expected + 1
        validChecks := c.rcv.validChecks.set (c.rcv.expected + 1) false }
      pkt := p
      packetSeq := p.seq
      consumed := c.consumed ++ [c.pkt]
      delivered := c.delivered ++
        (c.rcv.toAssembly.consume (fresh c.rcv.expected) c.pkt).2 } := by
    simp only [Consume.body, hvalid, if_true, hget]
  rw [hbody]
  refine ⟨⟨h.running, hadv.pop, ?_, hseq, rfl⟩, rfl⟩
  simp

/-- A round with the following number not held is the last one. -/
lemma Consume.Ready.body_of_none (fresh : ℤ → ℕ → Byte) {c : Consume} {b : ReorderBuffer Packet}
    (h : c.Ready b) (hp : b.held.lookup (b.next + 1) = none) :
    (c.body fresh).running = false ∧ Sim (c.body fresh).rcv { b with next := b.next + 1 } ∧
      (c.body fresh).packetSeq = c.packetSeq := by
  have hadv := h.sim.advance h.not_held (c.rcv.toAssembly.consume (fresh c.rcv.expected) c.pkt).1
  have hvalid : c.rcv.validChecks.get (c.rcv.expected + 1) = false := by
    rw [Bool.eq_false_iff, ← h.sim.next_eq, Ne, hadv.valid_iff _ (le_refl _) (by dsimp only; omega)]
    exact Finmap.lookup_eq_none.mp hp
  simp only [Consume.body, hvalid, Bool.false_eq_true, if_false]
  exact ⟨trivial, hadv, trivial⟩

lemma Consume.body_logs (fresh : ℤ → ℕ → Byte) (c : Consume) :
    (c.body fresh).consumed = c.consumed ++ [c.pkt] ∧
      (c.body fresh).rcv.expected = c.rcv.expected + 1 ∧
      (c.body fresh).rcv.toAssembly = (c.rcv.toAssembly.consume (fresh c.rcv.expected) c.pkt).1 ∧
      (c.body fresh).delivered =
        c.delivered ++ (c.rcv.toAssembly.consume (fresh c.rcv.expected) c.pkt).2 := by
  unfold Consume.body
  dsimp only
  split
  · exact ⟨rfl, rfl, rfl, rfl⟩
  · exact ⟨rfl, rfl, rfl, rfl⟩

/-- A loop that ends has consumed some packets more. -/
lemma consumed_of_run {fresh : ℤ → ℕ → Byte} {n : ℕ} {c c' : Consume}
    (h : While.run Consume.running (Consume.body fresh) n c = some c') :
    ∃ ps, c'.consumed = c.consumed ++ ps := by
  refine (While.run_inv (I := fun d => ∃ ps, d.consumed = c.consumed ++ ps) ?_ n
    ⟨[], (List.append_nil _).symm⟩ h).1
  rintro d ⟨ps, hps⟩ -
  refine ⟨ps ++ [d.pkt], ?_⟩
  rw [(Consume.body_logs fresh d).1, hps, List.append_assoc]

/-- **Specification of the consuming loop**: it drains the reorder buffer. -/
theorem loop_spec (fresh : ℤ → ℕ → Byte) : ∀ (n : ℕ) (c : Consume) (b : ReorderBuffer Packet),
    c.Ready b → b.held.keys.card < n →
    ∃ c', While.run Consume.running (Consume.body fresh) n c = some c' ∧
      c'.consumed = c.consumed ++ c.pkt :: (ReorderBuffer.drain ⟨b.next + 1, b.held⟩).1 ∧
      Sim c'.rcv (ReorderBuffer.drain ⟨b.next + 1, b.held⟩).2 ∧
      c'.packetSeq = c'.rcv.expected - 1 ∧ c'.packetSeq < 2 ^ 31 ∧
      c'.rcv.toAssembly = (Assembly.feed fresh c.rcv.expected
        (c.pkt :: (ReorderBuffer.drain ⟨b.next + 1, b.held⟩).1) c.rcv.toAssembly).1 ∧
      c'.delivered = c.delivered ++ (Assembly.feed fresh c.rcv.expected
        (c.pkt :: (ReorderBuffer.drain ⟨b.next + 1, b.held⟩).1) c.rcv.toAssembly).2 := by
  intro n
  -- on the budget, which exceeds the number of packets held
  induction n with
  | zero => intro c b _ hcard; omega
  | succ n ih =>
    intro c b h hcard
    obtain ⟨hcons, hexp, hasm, hdel⟩ := Consume.body_logs fresh c
    rw [While.run_succ_of_cond h.running]
    cases hp : b.held.lookup (b.next + 1) with
    | none =>
      obtain ⟨hleft, hsim, hseq⟩ := h.body_of_none fresh hp
      have hdrain : ReorderBuffer.drain ⟨b.next + 1, b.held⟩ = ([], ⟨b.next + 1, b.held⟩) :=
        ReorderBuffer.drain_of_none hp
      rw [While.run_of_not_cond hleft, hdrain]
      refine ⟨c.body fresh, rfl, hcons, hsim, ?_, ?_, ?_, ?_⟩
      · rw [hseq, hexp, h.packetSeq_eq]; omega
      · rw [hseq, ← h.seq_eq]; exact c.pkt.seq_lt
      · simp [hasm, Assembly.feed]
      · simp [hdel, Assembly.feed]
    | some p =>
      obtain ⟨hready, hpkt⟩ := h.body_of_some fresh hp
      have hmem : b.next + 1 ∈ b.held.keys :=
        Finmap.mem_keys.mpr (Finmap.mem_of_lookup_eq_some hp)
      have hless : (b.held.erase (b.next + 1)).keys.card < n := by
        rw [Finmap.keys_erase]
        have := Finset.card_erase_lt_of_mem hmem
        omega
      obtain ⟨c', hrun, hcons', hsim', hseq', hlt', hasm', hdel'⟩ := ih _ _ hready hless
      have hdrain := ReorderBuffer.drain_of_some (b := ⟨b.next + 1, b.held⟩) hp
      dsimp only at hdrain hcons' hsim' hasm' hdel'
      rw [hpkt, hexp, hasm] at hasm'
      rw [hpkt, hexp, hasm, hdel] at hdel'
      rw [hdrain]
      refine ⟨c', hrun, ?_, hsim', hseq', hlt', ?_, ?_⟩
      · rw [hcons', hcons, hpkt, List.append_assoc]; rfl
      · exact hasm'
      · rw [hdel', List.append_assoc]; rfl

/-- **Specification of `Receiver_FromLowerLayer`** for a packet with a valid checksum: one
arrival at the reorder buffer, one ack, and the consumed packets are reassembled. -/
theorem fromLowerLayer_spec (fresh : ℤ → ℕ → Byte) (junk : Packet) {pkt : Packet} {r : Receiver}
    {b : ReorderBuffer Packet} (h : Sim r b) (hn : b.next ∉ b.held)
    (hver : rdtVerifyChecksum pkt = true) :
    ∃ o, r.fromLowerLayer fresh junk pkt = some o ∧
      o.consumed = (b.arrive 10 pkt.seq pkt).1 ∧
      Sim o.rcv (b.arrive 10 pkt.seq pkt).2 ∧
      (b.arrive 10 pkt.seq pkt).2.next ∉ (b.arrive 10 pkt.seq pkt).2.held ∧
      o.acks = [receiverAck junk ((b.arrive 10 pkt.seq pkt).2.next - 1)] ∧
      o.rcv.toAssembly = (Assembly.feed fresh r.expected o.consumed r.toAssembly).1 ∧
      o.delivered = (Assembly.feed fresh r.expected o.consumed r.toAssembly).2 ∧
      o.consumed.length ≤ 10 ∧ (r.expected ≤ 2 ^ 31 → o.rcv.expected ≤ 2 ^ 31) := by
  have hnext := h.next_eq
  unfold fromLowerLayer ReorderBuffer.arrive
  rw [hver]
  simp only [Bool.not_true, Bool.false_eq_true, if_false]
  by_cases hwin : r.expected < pkt.seq ∧ pkt.seq < r.expected + windowsSize
  · -- an early packet
    have hwin' : b.next < pkt.seq ∧ pkt.seq < b.next + 10 := by rw [hnext]; exact hwin
    rw [if_pos hwin, if_pos hwin']
    have hvalid := h.valid_iff pkt.seq (by omega) (by omega)
    refine ⟨_, rfl, ?_⟩
    by_cases hmem : pkt.seq ∈ b.held
    · have hstore : r.store pkt = r := if_pos (hvalid.mpr hmem)
      rw [if_pos hmem, hstore]
      exact ⟨rfl, h, hn, by rw [hnext], rfl, rfl, Nat.zero_le _, id⟩
    · have hfree : r.validChecks.get pkt.seq = false := by
        rw [Bool.eq_false_iff]; exact fun ht => hmem (hvalid.mp ht)
      have hstore : r.store pkt = { r with
          window := r.window.set pkt.seq pkt
          validChecks := r.validChecks.set pkt.seq true } := if_neg (by rw [hfree]; simp)
      rw [if_neg hmem, hstore]
      refine ⟨rfl, h.insert (by omega) (by omega), ?_, by rw [hnext], rfl, rfl,
        Nat.zero_le _, id⟩
      rw [Finmap.mem_insert, not_or]
      exact ⟨by dsimp only; omega, hn⟩
  · have hwin' : ¬ (b.next < pkt.seq ∧ pkt.seq < b.next + 10) := by rw [hnext]; exact hwin
    rw [if_neg hwin, if_neg hwin']
    by_cases hseq : pkt.seq ≠ r.expected
    · rw [if_pos hseq, if_pos (by rw [hnext]; exact hseq)]
      exact ⟨_, rfl, rfl, h, hn, by rw [hnext], rfl, rfl, Nat.zero_le _, id⟩
    · -- the packet the receiver waits for
      rw [if_neg hseq, if_neg (by rw [hnext]; exact hseq)]
      have hready : Consume.Ready ⟨r, pkt, pkt.seq, true, [], []⟩ b :=
        ⟨rfl, h, hn, not_not.mp hseq, rfl⟩
      have hcard := h.card_lt hn
      obtain ⟨c, hrun, hcons, hsim, hack, hlt, hasm, hdel⟩ :=
        loop_spec fresh (windowsSize + 1) _ b hready (by show _ < 11; omega)
      have hbound := ReorderBuffer.drain_bound ⟨b.next + 1, b.held⟩
      have hnext' := hsim.next_eq
      simp only [List.nil_append] at hcons hdel
      rw [hrun]
      refine ⟨_, rfl, hcons, hsim, hbound.2, ?_, ?_, ?_, ?_, ?_⟩
      · rw [hack, hnext']
      · rw [hcons]; exact hasm
      · rw [hcons]; exact hdel
      · rw [hcons, List.length_cons]
        have := hbound.1
        dsimp only at this
        omega
      · intro _
        dsimp only
        omega

end Receiver

/-! ## Runs -/

namespace ReceiverSys

open Receiver

/-- The receiver and the reorder buffer have done the same so far, and what was consumed has
been reassembled. -/
structure Refines (fresh : ℤ → ℕ → Byte) (ρ : ReceiverSys) (L : ReorderBuffer.Log Packet) :
    Prop where
  sim : Sim ρ.rcv L.buf
  not_held : L.buf.next ∉ L.buf.held
  consumed_eq : ρ.consumed = L.consumed
  acks_eq : ρ.acks.map Packet.seq = L.acks
  next_eq : L.buf.next = L.consumed.length
  next_le : L.buf.next ≤ 2 ^ 31
  assembly_eq : ρ.rcv.toAssembly = (Assembly.feed fresh 0 ρ.consumed .start).1
  delivered_eq : ρ.delivered = (Assembly.feed fresh 0 ρ.consumed .start).2

lemma Refines.init (fresh : ℤ → ℕ → Byte) (w : Ring windowsSize Packet) :
    Refines fresh (.init w) ⟨.empty, [], []⟩ where
  sim := Sim.init w
  not_held := by simp [ReorderBuffer.empty, Finmap.notMem_empty]
  consumed_eq := rfl
  acks_eq := rfl
  next_eq := rfl
  next_le := by norm_num [ReorderBuffer.empty]
  assembly_eq := rfl
  delivered_eq := rfl

/-- **One call refines one arrival.** -/
theorem Refines.step {fresh : ℤ → ℕ → Byte} {ρ : ReceiverSys} {L : ReorderBuffer.Log Packet}
    (h : Refines fresh ρ L) {a : Packet × Packet} (hver : rdtVerifyChecksum a.1 = true) :
    ∃ ρ', ρ.step fresh a = some ρ' ∧ Refines fresh ρ' (L.arrive 10 (a.1.seq, a.1)) ∧
      ρ'.acks = ρ.acks ++ [receiverAck a.2 (ρ'.rcv.expected - 1)] := by
  obtain ⟨o, ho, hcons, hsim, hn, hacks, hasm, hdel, -, hle⟩ :=
    fromLowerLayer_spec fresh a.2 h.sim h.not_held hver
  have hexp := h.sim.next_eq
  have hexp' := hsim.next_eq
  have hnext := ReorderBuffer.arrive_next 10 L.buf a.1.seq a.1
  have hlen := h.next_eq
  have hbound := hle (by rw [← hexp]; exact h.next_le)
  have hcount : 0 + (ρ.consumed.length : ℤ) = ρ.rcv.expected := by
    rw [h.consumed_eq, ← hlen, hexp, zero_add]
  -- the logs grow on both sides by the same entries
  refine ⟨ρ.absorb o, by rw [ReceiverSys.step, ho]; rfl,
    ⟨hsim, hn, ?_, ?_, ?_, ?_, ?_, ?_⟩, ?_⟩
  · show ρ.consumed ++ o.consumed = _
    rw [h.consumed_eq, hcons]; rfl
  · show (ρ.acks ++ o.acks).map Packet.seq = _
    rw [List.map_append, h.acks_eq, hacks, List.map_singleton,
      seq_receiverAck _ (by omega) (by omega)]
    rfl
  · show (L.buf.arrive 10 a.1.seq a.1).2.next = ((L.consumed ++ _).length : ℤ)
    rw [hnext, hlen, List.length_append]; push_cast; rfl
  · exact le_of_eq_of_le hexp' hbound
  · show o.rcv.toAssembly = (Assembly.feed fresh 0 (ρ.consumed ++ o.consumed) .start).1
    rw [hasm, Assembly.feed_append, hcount, h.assembly_eq]
  · show ρ.delivered ++ o.delivered = (Assembly.feed fresh 0 (ρ.consumed ++ o.consumed) .start).2
    rw [hdel, Assembly.feed_append, hcount, h.assembly_eq, h.delivered_eq]
  · show ρ.acks ++ o.acks = _
    rw [hacks, hexp']; rfl

theorem Refines.run {fresh : ℤ → ℕ → Byte} : ∀ (as : List (Packet × Packet)) {ρ : ReceiverSys}
    {L : ReorderBuffer.Log Packet}, Refines fresh ρ L →
    (∀ a ∈ as, rdtVerifyChecksum a.1 = true) →
    ∃ ρ', ρ.run fresh as = some ρ' ∧ Refines fresh ρ'
      ((as.map fun a => (a.1.seq, a.1)).foldl (ReorderBuffer.Log.arrive 10) L) := by
  intro as
  induction as with
  | nil => intro ρ L h _; exact ⟨ρ, rfl, h⟩
  | cons a as ih =>
    intro ρ L h hver
    obtain ⟨ρ₁, hstep, h₁, -⟩ := h.step (hver a (List.mem_cons_self ..))
    obtain ⟨ρ', hrun, h'⟩ := ih h₁ fun x hx => hver x (List.mem_cons_of_mem _ hx)
    refine ⟨ρ', ?_, h'⟩
    rw [ReceiverSys.run, List.foldlM_cons, hstep]
    exact hrun

/-- The ring of the receiver without pointers. After any packets with valid checksums, the packets
consumed, the value of `expected` and the acks are those of the reorder buffer with a window of ten;
the packets it holds are in their slots, no two of them in one; every set entry of `valid_checks` is
the slot of a held packet numbered strictly between `expected` and `expected + 10`, the entry of
`expected` itself is clear; and the next call consumes what one more arrival does, at most ten
packets. -/
theorem ring_refines_reorder_buffer (fresh : ℤ → ℕ → Byte) (w : Ring windowsSize Packet)
    (as : List (Packet × Packet)) (hver : ∀ a ∈ as, rdtVerifyChecksum a.1 = true) :
    ∃ ρ L, (init w).run fresh as = some ρ ∧
      L = ReorderBuffer.Log.run 10 (as.map fun a => (a.1.seq, a.1)) ∧
      ρ.consumed = L.consumed ∧ ρ.rcv.expected = L.buf.next ∧
      ρ.acks.map Packet.seq = L.acks ∧
      (∀ s p, L.buf.held.lookup s = some p →
        ρ.rcv.window.get s = p ∧ ρ.rcv.validChecks.get s = true) ∧
      (∀ s t, s ∈ L.buf.held → t ∈ L.buf.held →
        Ring.slot windowsSize s = Ring.slot windowsSize t → s = t) ∧
      (∀ i, ρ.rcv.validChecks.cell i = true → ∃ s, ρ.rcv.expected < s ∧
        s < ρ.rcv.expected + windowsSize ∧ Ring.slot windowsSize s = i ∧
        L.buf.held.lookup s = some (ρ.rcv.window.cell i) ∧ (ρ.rcv.window.cell i).seq = s) ∧
      ρ.rcv.validChecks.get ρ.rcv.expected = false ∧
      (∀ junk pkt, rdtVerifyChecksum pkt = true → ∃ o, ρ.rcv.fromLowerLayer fresh junk pkt = some o ∧
        o.consumed = (L.buf.arrive 10 pkt.seq pkt).1 ∧ o.consumed.length ≤ windowsSize) := by
  obtain ⟨ρ, hrun, h⟩ := (Refines.init fresh w).run as hver
  have hsim := h.sim
  have hnext := hsim.next_eq
  refine ⟨ρ, _, hrun, rfl, h.consumed_eq, hnext.symm, h.acks_eq, ?_, ?_, ?_, ?_, ?_⟩
  · intro s p hs
    have hmem := Finmap.mem_of_lookup_eq_some hs
    obtain ⟨hlo, hhi⟩ := hsim.keys s hmem
    exact ⟨hsim.window_eq s p hs, (hsim.valid_iff s hlo hhi).mpr hmem⟩
  · intro s t hs ht hslot
    obtain ⟨hs₁, hs₂⟩ := hsim.keys s hs
    obtain ⟨ht₁, ht₂⟩ := hsim.keys t ht
    exact Ring.slot_injOn (by push_cast; omega) (by push_cast; omega) hslot
  · intro i hi
    obtain ⟨s, hlo, hhi, rfl⟩ := Ring.exists_slot_eq ρ.rcv.expected i
    rw [← hnext] at hlo hhi ⊢
    have hmem := (hsim.valid_iff s hlo hhi).mp hi
    obtain ⟨p, hp⟩ := Finmap.mem_iff.mp hmem
    have hne : s ≠ ReorderBuffer.next _ := fun heq => h.not_held (heq ▸ hmem)
    have hcell : ρ.rcv.window.cell (Ring.slot windowsSize s) = p := hsim.window_eq s p hp
    rw [hcell]
    exact ⟨s, by omega, hhi, rfl, hp, hsim.seq_eq s p hp⟩
  · rw [Bool.eq_false_iff, ← hnext, Ne, hsim.valid_iff _ (le_refl _) (by omega)]
    exact h.not_held
  · intro junk pkt hpkt
    obtain ⟨o, ho, hcons, -, -, -, -, -, hlen, -⟩ :=
      fromLowerLayer_spec fresh junk hsim h.not_held hpkt
    exact ⟨o, ho, hcons, hlen⟩

/-- The packet a sender builds on zeroed memory for the one-byte message `b`, numbered `n`. -/
def bytePacket (n : ℤ) (b : Byte) : Packet :=
  rdtAddChecksum (((Packet.zero.write checksumSize (intBytes n)).write (headerSize - 1) [5]).write
    headerSize [1, 0, 0, 0, b])

end ReceiverSys
end NetLabs.Rdt
