import NetLabs.Rdt.SenderTheorems

/-!
# Retransmission

The ring `windows` is written by `Sender_ConstructPKT` and read by `Sender_SendPKT`, both
modulo ten. `WindowOf` says that for every unacknowledged number the ring still holds the
packet built for it; with it each handler's transmissions are a stretch of the list of all
packets built so far (`step_sent`), so a retransmission repeats the first transmission byte
for byte (`retransmissions_faithful`).
-/

namespace NetLabs.Rdt

open NetLabs.Lib NetLabs.Lib.Bytes

namespace Sender

/-- The ring holds, for every number from `ack` on, the packet of `B` with that number. -/
def WindowOf (B : List Packet) (w : Ring maxWindowSize Packet) (ack : ℤ) : Prop :=
  ∀ (k : ℕ) (p : Packet), ack ≤ k → B[k]? = some p → w.get k = p

/-- A list of packets numbered from zero, each with a valid checksum. -/
def Numbered (B : List Packet) : Prop :=
  ∀ (k : ℕ) (p : Packet), B[k]? = some p →
    p.seqWord = BitVec.ofInt 32 k ∧ rdtVerifyChecksum p = true

lemma Numbered.seq_eq {B : List Packet} (h : Numbered B) {k : ℕ} {p : Packet}
    (hp : B[k]? = some p) (hk : (k : ℤ) < 2 ^ 31) : p.seq = k := by
  rw [Packet.seq_eq_toInt, (h k p hp).1, toInt_ofInt32 (by omega) hk]

/-- In a numbered list that is short enough, the sequence number determines the packet. -/
lemma Numbered.eq_of_seq_eq {B : List Packet} (h : Numbered B) (hB : (B.length : ℤ) < 2 ^ 31)
    {p q : Packet} (hp : p ∈ B) (hq : q ∈ B) (hseq : p.seq = q.seq) : p = q := by
  obtain ⟨i, hi, hpi⟩ := List.mem_iff_getElem.mp hp
  obtain ⟨j, hj, hqj⟩ := List.mem_iff_getElem.mp hq
  have hpi' : B[i]? = some p := by rw [List.getElem?_eq_getElem hi, hpi]
  have hqj' : B[j]? = some q := by rw [List.getElem?_eq_getElem hj, hqj]
  have hij : (i : ℤ) = j := by
    rw [← h.seq_eq hpi' (by omega), ← h.seq_eq hqj' (by omega), hseq]
  obtain rfl : i = j := by omega
  exact hpi.symm.trans hqj

lemma Numbered.push {B : List Packet} (h : Numbered B) {p : Packet}
    (hseq : p.seqWord = BitVec.ofInt 32 B.length) (hver : rdtVerifyChecksum p = true) :
    Numbered (B ++ [p]) := by
  intro k q hk
  rcases Nat.lt_or_ge k B.length with hlt | hge
  · rw [List.getElem?_append_left hlt] at hk
    exact h k q hk
  · rw [List.getElem?_append_right hge] at hk
    obtain ⟨hlt, rfl⟩ := List.getElem?_eq_some_iff.mp hk
    obtain rfl : k = B.length := by simp at hlt; omega
    simpa using ⟨hseq, hver⟩

/-- Storing the next packet: the slot it takes belongs to no unacknowledged number, because
the window is not full. -/
lemma WindowOf.push {B : List Packet} {w : Ring maxWindowSize Packet} {ack : ℤ}
    (h : WindowOf B w ack) (p : Packet) (hroom : B.length - ack < 10) :
    WindowOf (B ++ [p]) (w.set B.length p) ack := by
  intro k q hk hq
  rcases Nat.lt_or_ge k B.length with hlt | hge
  · rw [List.getElem?_append_left hlt] at hq
    -- an older number less than ten away, in another slot
    have hpush : (B.length : ℤ) < k + maxWindowSize := by push_cast; omega
    rw [Ring.get_set_of_near w p hpush (by push_cast; omega) (by omega)]
    exact h k q hk hq
  · rw [List.getElem?_append_right hge] at hq
    obtain ⟨hlt, rfl⟩ := List.getElem?_eq_some_iff.mp hq
    obtain rfl : k = B.length := by simp at hlt; omega
    simp

/-- Acknowledging more only asks less of the ring. -/
lemma WindowOf.mono {B : List Packet} {w : Ring maxWindowSize Packet} {ack ack' : ℤ}
    (h : WindowOf B w ack) (hle : ack ≤ ack') : WindowOf B w ack' :=
  fun k p hk hp => h k p (le_trans hle hk) hp

/-- What the window holds from number `a` on is the rest of `B`. -/
lemma WindowOf.ringRange_eq {B : List Packet} {w : Ring maxWindowSize Packet} {ack : ℤ}
    (h : WindowOf B w ack) {a : ℤ} (h0 : 0 ≤ a) (ha : ack ≤ a) :
    ringRange w a B.length = B.drop a.toNat := by
  apply List.ext_getElem?
  intro i
  rw [ringRange, List.getElem?_map, List.getElem?_drop]
  rcases Nat.lt_or_ge (a.toNat + i) B.length with hlt | hge
  · have hget := List.getElem?_eq_getElem hlt
    rw [List.getElem?_range (by omega), hget, Option.map_some,
      ← h (a.toNat + i) _ (by push_cast; omega) hget]
    congr 2
    omega
  · rw [List.getElem?_eq_none (by simp; omega), List.getElem?_eq_none hge]
    rfl

/-! ## The loop of `Sender_ConstructPKT` -/

lemma Construct.Frame.room {s : Sender} {c : Construct} (hf : Construct.Frame s c)
    (hs : Counters s) (hc : c.cond = true) {B : List Packet} (hB : s.pktSeq = B.length) :
    c.snd.pktSeq = (B ++ c.built).length ∧
      ((B ++ c.built).length : ℤ) - c.snd.ackExpected < 10 := by
  have hcount := hs.frame hf
  have hwin := hcount.window_eq
  have hp := hf.pktSeq
  have hlt := (c.cond_iff.mp hc).1
  rw [List.length_append]
  push_cast
  omega

/-- Both branches of the loop store one filled packet in the slot of `pkt_seq`. -/
lemma constructPKT_window {junk : Packet} {s : Sender} {c : Construct} {B : List Packet}
    (hs : Counters s) (hB : s.pktSeq = B.length) (hw : WindowOf B s.windows s.ackExpected)
    (hnum : Numbered B) (h : constructPKT junk s = some c) :
    WindowOf (B ++ c.built) c.snd.windows c.snd.ackExpected ∧ Numbered (B ++ c.built) := by
  refine (While.run_inv (I := fun c => Construct.Frame s c ∧
    WindowOf (B ++ c.built) c.snd.windows c.snd.ackExpected ∧ Numbered (B ++ c.built))
    ?_ _ ⟨Construct.Frame.start junk s, ?_, ?_⟩ h).1.2
  · rintro d ⟨hf, hwd, hnd⟩ hc
    obtain ⟨hseq, hroom⟩ := hf.room hs hc hB
    -- the two branches differ only in the size of the payload
    have hpush : ∀ size, WindowOf (B ++ (d.built ++ [d.nextPkt size]))
        (d.snd.windows.set d.snd.pktSeq (d.nextPkt size)) d.snd.ackExpected ∧
        Numbered (B ++ (d.built ++ [d.nextPkt size])) := by
      intro size
      rw [← List.append_assoc]
      refine ⟨?_, hnd.push ?_ (rdtVerifyChecksum_fillPkt _ _ _ _)⟩
      · rw [hseq]; exact hwd.push _ hroom
      · rw [Construct.nextPkt, seqWord_fillPkt, hseq]
    exact ⟨hf.body hc, Construct.body_inv (I := fun c =>
      WindowOf (B ++ c.built) c.snd.windows c.snd.ackExpected ∧ Numbered (B ++ c.built))
      (hpush _) (hpush _) ⟨hwd, hnd⟩⟩
  · simpa [constructStart] using hw
  · simpa [constructStart] using hnum

/-- **What the shared lines transmit**: the packets built so far from `next_packet_to_send`
on, those they build themselves included. -/
theorem constructAndSend_window {junk : Packet} {s : Sender} {o : Outcome} {B : List Packet}
    (hs : Counters s) (hB : s.pktSeq = B.length) (hw : WindowOf B s.windows s.ackExpected)
    (hnum : Numbered B) (hack : s.ackExpected ≤ s.nextPacketToSend)
    (ho : constructAndSend junk s = some o) :
    WindowOf (B ++ o.built) o.snd.windows o.snd.ackExpected ∧ Numbered (B ++ o.built) ∧
      o.sent = (B ++ o.built).drop s.nextPacketToSend.toNat := by
  obtain ⟨c, hc, hsnd, hbuilt, -⟩ := constructAndSend_eq_some ho
  obtain ⟨hf, -⟩ := constructPKT_frame hc
  obtain ⟨hw', hnum'⟩ := constructPKT_window hs hB hw hnum hc
  have hlen : c.snd.pktSeq = (B ++ c.built).length := by
    rw [hf.pktSeq, hB, List.length_append]; push_cast; rfl
  rw [hsnd, hbuilt]
  refine ⟨hw', hnum', ?_⟩
  have hnn := hs.ack_nonneg
  rw [constructAndSend_sent ho hc, hlen, hf.nextPacketToSend]
  exact hw'.ringRange_eq (by omega) (by rw [hf.ackExpected]; exact hack)

/-- The same in the form the handlers need, for a state that a handler prepared: where the
transmitted stretch begins, and that the packets built stay numbered and in their slots. -/
lemma constructAndSend_stretch {junk : Packet} {s : Sender} {o : Outcome} {B : List Packet}
    (hs : Counters s) (hB : s.pktSeq = B.length) (hw : WindowOf B s.windows s.ackExpected)
    (hnum : Numbered B) (hlo : s.ackExpected ≤ s.nextPacketToSend)
    (hhi : s.nextPacketToSend ≤ s.pktSeq) (ho : constructAndSend junk s = some o) :
    ∃ n : ℕ, s.nextPacketToSend = n ∧ n ≤ B.length ∧ o.snd.ackExpected ≤ n ∧
      o.sent = (B ++ o.built).drop n ∧
      WindowOf (B ++ o.built) o.snd.windows o.snd.ackExpected ∧ Numbered (B ++ o.built) ∧
      o.snd.pktSeq = (B ++ o.built).length := by
  obtain ⟨-, -, hack, -, hseq, -⟩ := hs.constructAndSend hhi ho
  obtain ⟨hw', hnum', hsent⟩ := constructAndSend_window hs hB hw hnum hlo ho
  have hnn := hs.ack_nonneg
  refine ⟨s.nextPacketToSend.toNat, by omega, by omega, by omega, hsent, hw', hnum', ?_⟩
  rw [hseq, hB, List.length_append]
  push_cast
  rfl

end Sender

namespace SenderSys

open Sender

/-- The packets built so far, the ring and the transmissions belong together. -/
structure Windowed (σ : SenderSys) : Prop where
  length_eq : σ.snd.pktSeq = σ.built.length
  window : WindowOf σ.built σ.snd.windows σ.snd.ackExpected
  numbered : Numbered σ.built
  mem_sent_iff : ∀ p, p ∈ σ.sent ↔ p ∈ σ.built

lemma Windowed.init {σ : SenderSys} (h : Init σ) : Windowed σ := by
  obtain ⟨w, rfl⟩ := h
  constructor <;> simp [SenderSys.init, Sender.init, WindowOf, Numbered]

/-- What is built is numbered, and its checksums are right. -/
lemma Windowed.built_spec {σ : SenderSys} (h : Windowed σ) {k : ℕ} (hk : (k : ℤ) < σ.snd.pktSeq)
    (hint : (k : ℤ) < 2 ^ 31) : σ.built[k]? = some (σ.built.getD k .zero) ∧
    (σ.built.getD k .zero).seq = k ∧ rdtVerifyChecksum (σ.built.getD k .zero) = true := by
  have hlen := h.length_eq
  have hget : σ.built[k]? = some (σ.built.getD k .zero) := by
    rw [List.getD_eq_getElem _ _ (by omega), List.getElem?_eq_getElem]
  exact ⟨hget, h.numbered.seq_eq hget hint, (h.numbered k _ hget).2⟩

/-- **What one call transmits**: a stretch of the packets built so far that starts at or above
`ack_expected`, holds everything the call built, and for an expiry starts at `ack_expected`
itself. -/
theorem step_sent {σ σ' : SenderSys} {e : SenderEvent} (hr : Resting σ) (hw : Windowed σ)
    (he : σ.step e = some σ') :
    ∃ (n : ℕ) (new : List Packet), σ'.built = σ.built ++ new ∧ n ≤ σ.built.length ∧
      σ'.snd.ackExpected ≤ n ∧ σ'.sent = σ.sent ++ σ'.built.drop n ∧
      (∀ junk, e = .timeout junk → σ.snd.ackExpected = n) ∧
      WindowOf σ'.built σ'.snd.windows σ'.snd.ackExpected ∧ Numbered σ'.built ∧
      σ'.snd.pktSeq = σ'.built.length := by
  obtain ⟨hc, hn⟩ := hr
  have hlen := hw.length_eq
  have hack := hc.ack_le
  have hnn := hc.ack_nonneg
  -- a call that transmits nothing transmits the empty stretch behind the last packet
  have hquiet : σ.built.drop σ.built.length = [] := List.drop_length
  rcases step_cases he with ⟨msg, junk, rfl, -, rfl⟩ | ⟨msg, junk, o, rfl, -, ho, rfl⟩ |
    ⟨pkt, junk, rfl, -, rfl⟩ | ⟨pkt, junk, o, rfl, -, h₁, h₂, ho, rfl⟩ | ⟨junk, o, rfl, ho, rfl⟩
  · exact ⟨σ.built.length, [], by simp, le_refl _, by simp only [Sender.enqueue]; omega,
      by simp [hquiet], by simp, hw.window, hw.numbered, hlen⟩
  · obtain ⟨n, -, hle, hackn, hsent, hw', hnum', hlen'⟩ := constructAndSend_stretch
      (hc.enqueue msg.toMessage) hlen hw.window hw.numbered
      (by simp only [Sender.enqueue]; omega) (le_of_eq hn) ho
    exact ⟨n, o.built, rfl, hle, hackn, by simp only [absorb, hsent], by simp, hw', hnum', hlen'⟩
  · exact ⟨σ.built.length, [], by simp, le_refl _, by show σ.snd.ackExpected ≤ _; omega,
      by simp [hquiet], by simp, hw.window, hw.numbered, hlen⟩
  · -- the ack frees slots before the loop runs, so the ring has to hold fewer packets
    obtain ⟨n, -, hle, hackn, hsent, hw', hnum', hlen'⟩ := constructAndSend_stretch
      (hc.slide h₁ h₂) hlen (hw.window.mono (by simp only [Sender.slide]; omega)) hw.numbered
      (by simp only [Sender.slide]; omega) (le_of_eq hn) ho
    exact ⟨n, o.built, rfl, hle, hackn, by simp only [absorb, hsent], by simp, hw', hnum', hlen'⟩
  · obtain ⟨n, hnext, hle, hackn, hsent, hw', hnum', hlen'⟩ := constructAndSend_stretch
      hc.rewind hlen hw.window hw.numbered (le_refl _) hc.ack_le ho
    exact ⟨n, o.built, rfl, hle, hackn, by simp only [absorb, hsent], fun _ _ => hnext, hw', hnum',
      hlen'⟩

theorem Windowed.step {σ σ' : SenderSys} {e : SenderEvent} (hr : Resting σ) (hw : Windowed σ)
    (he : σ.step e = some σ') : Windowed σ' := by
  obtain ⟨n, new, hbuilt, hn, -, hsent, -, hwin, hnum, hlen⟩ := step_sent hr hw he
  refine ⟨hlen, hwin, hnum, fun p => ?_⟩
  rw [hsent, List.mem_append, hw.mem_sent_iff]
  constructor
  · rintro (h | h)
    · rw [hbuilt]; exact List.mem_append_left _ h
    · exact List.mem_of_mem_drop h
  · intro h
    -- what is not among the old packets lies behind `n`
    rw [hbuilt, List.mem_append] at h
    rcases h with h | h
    · exact Or.inl h
    · right
      rw [hbuilt, List.drop_append_of_le_length hn]
      exact List.mem_append_right _ h

/-- Any call may happen at any time. -/
def Anything (_ : SenderSys) (_ : SenderEvent) (_ : SenderSys) : Prop := True

theorem resting_windowed {ok : SenderSys → SenderEvent → SenderSys → Prop} {σ : SenderSys}
    (h : Run step ok Init σ) : Resting σ ∧ Windowed σ := by
  refine Run.invariant (I := fun σ => Resting σ ∧ Windowed σ)
    (fun s hs => ⟨Resting.init hs, Windowed.init hs⟩) ?_ h
  rintro s e t - ⟨hr, hw⟩ he -
  exact ⟨hr.step he, hw.step hr he⟩

lemma map_seq_drop {B : List Packet} (h : Numbered B) (hB : (B.length : ℤ) < 2 ^ 31) {n : ℕ}
    (hn : n ≤ B.length) : (B.drop n).map Packet.seq =
      (List.range (B.length - n)).map fun i : ℕ => (n : ℤ) + i := by
  apply List.ext_getElem?
  intro i
  rw [List.getElem?_map, List.getElem?_map, List.getElem?_drop]
  rcases Nat.lt_or_ge (n + i) B.length with hlt | hge
  · have hget := List.getElem?_eq_getElem hlt
    rw [hget, List.getElem?_range (by omega), Option.map_some, Option.map_some,
      h.seq_eq hget (by omega)]
    push_cast
    rfl
  · rw [List.getElem?_eq_none hge, List.getElem?_eq_none (by simp; omega)]
    rfl

/-- **Retransmissions are faithful and complete.** In every run of the sender with any calls in
any order: for every unacknowledged number the ring holds the packet first handed to the lower
layer under that number; two transmissions with the same number are the same packet, and its
checksum is right; no call transmits a number below `ack_expected`, and an expiry transmits
exactly the numbers from `ack_expected` up to `pkt_seq`, once each and in order. -/
theorem retransmissions_faithful {σ : SenderSys} (h : Run step Anything Init σ)
    (hσ : σ.snd.pktSeq < 2 ^ 31 - 10) :
    (∀ s, σ.snd.ackExpected ≤ s → s < σ.snd.pktSeq →
      σ.sent.find? (fun p => p.seq == s) = some (σ.snd.windows.get s)) ∧
    (∀ p ∈ σ.sent, ∀ q ∈ σ.sent, p.seq = q.seq →
      p = q ∧ rdtVerifyChecksum p = true ∧ rdtVerifyChecksum q = true) ∧
    (∀ e σ', σ.step e = some σ' → σ'.snd.pktSeq < 2 ^ 31 - 10 → ∃ now, σ'.sent = σ.sent ++ now ∧
      (∀ p ∈ now, σ'.snd.ackExpected ≤ p.seq) ∧
      (∀ junk, e = .timeout junk → now.map Packet.seq =
        (List.range (σ'.snd.pktSeq - σ.snd.ackExpected).toNat).map fun i : ℕ =>
          σ.snd.ackExpected + i)) := by
  obtain ⟨hr, hw⟩ := resting_windowed h
  have hlen := hw.length_eq
  have hnn := hr.1.ack_nonneg
  refine ⟨fun s h₁ h₂ => ?_, fun p hp q hq hseq => ?_, fun e σ' he hσ' => ?_⟩
  · -- the packet built for `s` was transmitted, and no other packet has its number
    obtain ⟨k, rfl⟩ := Int.eq_ofNat_of_zero_le (le_trans hnn h₁)
    have hlt : k < σ.built.length := by omega
    have hget : σ.built[k]? = some σ.built[k] := List.getElem?_eq_getElem hlt
    rw [hw.window k _ h₁ hget]
    have hmem : σ.built[k] ∈ σ.sent := (hw.mem_sent_iff _).mpr (List.getElem_mem hlt)
    have hk := hw.numbered.seq_eq hget (by omega)
    cases hfind : σ.sent.find? (fun p => p.seq == (k : ℤ)) with
    | none =>
      have := List.find?_eq_none.mp hfind _ hmem
      simp [hk] at this
    | some p =>
      have hp : p.seq = k := by simpa using List.find?_some hfind
      have hpB := (hw.mem_sent_iff p).mp (List.mem_of_find?_eq_some hfind)
      rw [hw.numbered.eq_of_seq_eq (by omega) hpB (List.getElem_mem hlt) (hp.trans hk.symm)]
  · rw [hw.mem_sent_iff] at hp hq
    have hver : ∀ x ∈ σ.built, rdtVerifyChecksum x = true := by
      intro x hx
      obtain ⟨i, hi, rfl⟩ := List.mem_iff_getElem.mp hx
      exact (hw.numbered i _ (List.getElem?_eq_getElem hi)).2
    exact ⟨hw.numbered.eq_of_seq_eq (by omega) hp hq hseq, hver p hp, hver q hq⟩
  -- the stretch that one call transmits, by its numbers
  · obtain ⟨n, new, hbuilt, hn, hack, hsent, htime, -, hnum, hlen'⟩ := step_sent hr hw he
    have hle : n ≤ σ'.built.length := by rw [hbuilt, List.length_append]; omega
    have hmap := map_seq_drop hnum (by omega) hle
    refine ⟨σ'.built.drop n, hsent, fun p hp => ?_, fun junk hj => ?_⟩
    · have hmem := List.mem_map_of_mem (f := Packet.seq) hp
      rw [hmap, List.mem_map] at hmem
      obtain ⟨i, -, hi⟩ := hmem
      omega
    · rw [hmap, htime junk hj, show (σ'.snd.pktSeq - (n : ℤ)).toNat = σ'.built.length - n by omega]

lemma run_rough_anything : Run step Anything Init rough := run_rough fun _ _ _ _ => trivial

lemma roughPacket_spec {k : ℕ} (hk : k < 4) : rough.built[k]? = some (roughPacket k) ∧
    (roughPacket k).seq = k ∧ rdtVerifyChecksum (roughPacket k) = true := by
  have hlt : (k : ℤ) < rough.snd.pktSeq := by rw [rough_counters.2.1]; omega
  unfold roughPacket
  exact (resting_windowed run_rough_anything).2.built_spec hlt (by omega)

/-- After the rough history the ring still holds packet 2 as it was first transmitted. -/
theorem rough_windows : Run step Anything Init rough ∧
    rough.sent.find? (fun p => p.seq == 2) = some (rough.snd.windows.get 2) := by
  obtain ⟨hack, hseq, -⟩ := rough_counters
  refine ⟨run_rough_anything, ?_⟩
  exact (retransmissions_faithful run_rough_anything (by omega)).1 2 (by omega) (by omega)

end SenderSys
end NetLabs.Rdt
