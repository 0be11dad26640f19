import NetLabs.Rdt.SystemTheorems
import NetLabs.Rdt.SenderProgress

/-!
# One clean round

Whatever the network has done before, one round without loss brings the two endpoints together
again: the sender's timer expires, the packets it transmits reach the receiver in any order, and
the last ack of the receiver reaches the sender. An expiry transmits everything from
`ack_expected` on (`SenderSys.step_sent`), which is all that the receiver can be missing, so
afterwards it knows every number below `pkt_seq` and waits for `pkt_seq` itself
(`Linked.expected_of_delivered`). The ack of that number empties the sender's window.
-/

namespace NetLabs.Rdt

open NetLabs.Lib NetLabs.Lib.Bytes UpperMessage

/-! ## The sender -/

namespace SenderSys

open Sender

variable {σ σ' : SenderSys}

/-- An ack inside the window moves it behind the number acknowledged. -/
lemma ackExpected_of_ack (hr : Resting σ) {pkt junk : Packet}
    (he : σ.step (.fromLowerLayer pkt junk) = some σ') (hver : rdtVerifyChecksum pkt = true)
    (hlo : σ.snd.ackExpected ≤ pkt.seq) (hhi : pkt.seq < σ.snd.pktSeq) :
    σ'.snd.ackExpected = pkt.seq + 1 := by
  obtain ⟨hc, hn⟩ := hr
  rcases step_cases he with ⟨_, _, heq, -⟩ | ⟨_, _, _, heq, -⟩ | ⟨_, _, heq, hout, -⟩ |
    ⟨_, _, o, heq, -, h₁, h₂, ho, rfl⟩ | ⟨_, _, heq, -⟩
  · cases heq
  · cases heq
  · cases heq
    rcases hout with hbad | hrange
    · rw [hver] at hbad
      cases hbad
    · exact absurd ⟨hlo, hhi⟩ hrange
  · cases heq
    exact ((hc.slide h₁ h₂).constructAndSend (le_of_eq hn) ho).2.2.1
  · cases heq

/-- **The ack of the last packet** empties the window: afterwards the sender has transmitted new
packets, or it has none and its timer is off. -/
lemma step_of_last_ack (h : Run step Orderly Init σ) {pkt junk : Packet}
    (he : σ.step (.fromLowerLayer pkt junk) = some σ') (hver : rdtVerifyChecksum pkt = true)
    (hseq : pkt.seq = σ.snd.pktSeq - 1) (hout : σ.snd.ackExpected < σ.snd.pktSeq) :
    σ'.snd.ackExpected = σ.snd.pktSeq ∧
      ((∃ more, more ≠ [] ∧ σ'.built = σ.built ++ more ∧ σ'.sent = σ.sent ++ more ∧
          σ'.timer = true) ∨
        (σ'.snd.curMessageSeq = σ'.snd.nextMessageSeq ∧ σ'.timer = false)) := by
  obtain ⟨hr, hw⟩ := resting_windowed h
  have h' : Run step Orderly Init σ' := h.next he
    ⟨fun _ heq => (by cases heq), fun _ _ heq => (by cases heq)⟩
  have hcur := (resting_windowed h').1.1.cur_le
  have ht := (timerRight_of_orderly h').2
  have hack : σ'.snd.ackExpected = σ.snd.pktSeq := by
    rw [ackExpected_of_ack hr he hver (by omega) (by omega)]
    omega
  -- everything transmitted is new
  obtain ⟨m, more, hbuilt, hm, hackm, hsent, -, -, -, hlen⟩ := step_sent hr hw he
  have hlen₀ := hw.length_eq
  obtain rfl : m = σ.built.length := by omega
  rw [hbuilt, List.drop_left] at hsent
  refine ⟨hack, ?_⟩
  cases htimer : σ'.timer with
  | true =>
    left
    refine ⟨more, ?_, hbuilt, hsent, rfl⟩
    rintro rfl
    have hout' := ht.timer_iff.mp htimer
    rw [List.append_nil] at hbuilt
    rw [hbuilt] at hlen
    omega
  | false =>
    right
    have hidle := mt ht.waiting (by rw [htimer]; simp)
    exact ⟨by omega, rfl⟩

/-- The packets from number `n` on, in any order: each has its place, and all of them are there. -/
lemma Windowed.numbered_of_perm (hw : Windowed σ) (hint : σ.built.length < 2 ^ 31) {n : ℕ}
    {order : List (Packet × Packet)} (horder : (order.map Prod.fst).Perm (σ.built.drop n)) :
    (∀ a ∈ order, ∃ k : ℕ, σ.built[k]? = some a.1 ∧ a.1.seq = k) ∧
      ∀ k : ℕ, n ≤ k → k < σ.built.length → ∃ a ∈ order, a.1.seq = k := by
  constructor
  · intro a ha
    have hmem := horder.subset (List.mem_map_of_mem (f := Prod.fst) ha)
    obtain ⟨k, hk, hpk⟩ := List.mem_iff_getElem.mp (List.mem_of_mem_drop hmem)
    have hget : σ.built[k]? = some a.1 := by rw [List.getElem?_eq_getElem hk, hpk]
    exact ⟨k, hget, hw.numbered.seq_eq hget (by omega)⟩
  · intro k hnk hk
    have hget := List.getElem?_eq_getElem hk
    have hmem : σ.built[k] ∈ σ.built.drop n :=
      List.mem_of_getElem? (i := k - n)
        (by rw [List.getElem?_drop, Nat.add_sub_cancel' hnk, hget])
    obtain ⟨a, ha, heq⟩ := List.mem_map.mp (horder.symm.subset hmem)
    exact ⟨a, ha, by rw [heq]; exact hw.numbered.seq_eq hget (by omega)⟩

/-- No call but that of a new message can hang, if the sizes of the messages are `int`s with the
prefix. -/
lemma exists_step_of_sizes (h : Run step Orderly Init σ)
    (hsize : ∀ m ∈ σ.accepted, m.data.length ≤ 2 ^ 31 - 5) {e : SenderEvent}
    (he : ∀ msg junk, e ≠ .fromUpperLayer msg junk) : ∃ σ', σ.step e = some σ' := by
  have hs := stream_of_orderly h
  apply exists_step
  intro junk s henter
  -- the loop is entered with the messages as they are
  suffices hstream : Stream σ.accepted σ.built s from hstream.exists_constructPKT hsize junk
  cases e with
  | fromUpperLayer msg junk' => exact absurd rfl (he msg junk')
  | fromLowerLayer pkt junk' =>
    simp only [entersConstruct, Option.ite_none_right_eq_some, Option.some.injEq,
      Prod.mk.injEq] at henter
    obtain ⟨-, -, rfl⟩ := henter
    exact hs.congr rfl rfl rfl rfl
  | timeout junk' =>
    simp only [entersConstruct, Option.some.injEq, Prod.mk.injEq] at henter
    obtain ⟨-, rfl⟩ := henter
    exact hs.congr rfl rfl rfl rfl

end SenderSys

namespace Sys

variable {fresh : ℤ → ℕ → Byte}

/-! ## Delivering a list of packets -/

/-- The packets are delivered to the receiver one after the other, each with the contents of the
local packet of `Receiver_Ack`. -/
def deliverAll (fresh : ℤ → ℕ → Byte) (σ : Sys) (order : List (Packet × Packet)) : Option Sys :=
  order.foldlM (fun σ a => σ.step fresh (.deliverData a.1 a.2)) σ

/-- Packets in flight can all be delivered, and only the receiver's side of the system changes. -/
lemma deliverAll_eq : ∀ (order : List (Packet × Packet)) {σ : Sys} {dst : ReceiverSys},
    (order.map Prod.fst : Multiset Packet) ≤ σ.data → σ.dst.run fresh order = some dst →
    ∃ σ' new, σ.deliverAll fresh order = some σ' ∧ σ'.src = σ.src ∧ σ'.dst = dst ∧
      dst.acks = σ.dst.acks ++ new ∧ σ'.acks = σ.acks + new := by
  intro order
  induction order with
  | nil =>
    intro σ dst _ hrun
    obtain rfl : σ.dst = dst := Option.some.inj hrun
    exact ⟨σ, [], rfl, rfl, rfl, by simp, by simp⟩
  | cons a order ih =>
    intro σ dst hle hrun
    rw [ReceiverSys.run, List.foldlM_cons, Option.bind_eq_bind, Option.bind_eq_some_iff] at hrun
    obtain ⟨dst₁, hstep, hrest⟩ := hrun
    rw [List.map_cons, ← Multiset.cons_coe] at hle
    have hmem : a.1 ∈ σ.data := Multiset.mem_of_le hle (Multiset.mem_cons_self _ _)
    have hle₁ := Multiset.erase_le_erase a.1 hle
    rw [Multiset.erase_cons_head] at hle₁
    obtain ⟨new₁, hacks₁, hσ₁⟩ := step_deliverData hmem hstep
    obtain ⟨σ', new₂, hσ', hsrc, hdst, hacks₂, hflight⟩ := ih
      (σ := { σ with dst := dst₁, data := σ.data.erase a.1, acks := σ.acks + new₁ }) hle₁ hrest
    refine ⟨σ', new₁ ++ new₂, ?_, hsrc, hdst, ?_, ?_⟩
    · rw [deliverAll, List.foldlM_cons, hσ₁]
      exact hσ'
    · rw [hacks₂, hacks₁, List.append_assoc]
    · rw [hflight, ← Multiset.coe_add, add_assoc]

/-- Deliveries are steps of a run. -/
lemma run_deliverAll : ∀ (order : List (Packet × Packet)) {σ σ' : Sys},
    Run (step fresh) BufferFits Init σ → σ.deliverAll fresh order = some σ' →
    Run (step fresh) BufferFits Init σ' := by
  intro order
  induction order with
  | nil =>
    intro σ σ' h hσ'
    obtain rfl : σ = σ' := Option.some.inj hσ'
    exact h
  | cons a order ih =>
    intro σ σ' h hσ'
    rw [deliverAll, List.foldlM_cons, Option.bind_eq_bind, Option.bind_eq_some_iff] at hσ'
    obtain ⟨σ₁, hstep, hrest⟩ := hσ'
    exact ih (h.next hstep fun _ _ heq => by cases heq) hrest

/-! ## The round -/

/-- **Everything from `ack_expected` on reaches the receiver, in any order.** The receiver then
waits for `pkt_seq`, and the last ack it has sent carries the number before it. -/
theorem Linked.expected_of_delivered {σ : Sys} {L : ReorderBuffer.Log Packet}
    (h : Linked fresh σ L) (hr : SenderSys.Resting σ.src) (hw : SenderSys.Windowed σ.src)
    (hint : σ.src.snd.pktSeq < 2 ^ 31) {n : ℕ} (hn : σ.src.snd.ackExpected = n)
    (hout : σ.src.snd.ackExpected < σ.src.snd.pktSeq) {order : List (Packet × Packet)}
    (horder : (order.map Prod.fst).Perm (σ.src.built.drop n)) :
    ∃ dst before ack, σ.dst.run fresh order = some dst ∧
      dst.rcv.expected = σ.src.snd.pktSeq ∧ dst.acks = σ.dst.acks ++ (before ++ [ack]) ∧
      ack.seq = σ.src.snd.pktSeq - 1 ∧ rdtVerifyChecksum ack = true := by
  have hlen := hw.length_eq
  have hle := h.pktSeq_le hr
  have hack := h.ack_le
  obtain ⟨hplace, hcome⟩ := hw.numbered_of_perm (by omega) horder
  have hwin : ReceiverSys.InWindow fresh σ.dst order := by
    apply h.refines.inWindow
    · intro a ha
      obtain ⟨k, hget, -⟩ := hplace a ha
      exact (hw.numbered k a.1 hget).2
    · intro a ha
      obtain ⟨k, hget, hseq⟩ := hplace a ha
      obtain ⟨hk, -⟩ := List.getElem?_eq_some_iff.mp hget
      omega
  obtain ⟨dst, L', hrun, hfed, hknown, new, hacks, hlast⟩ :=
    h.fed.run hw.numbered order hplace hwin
  have hexp : dst.rcv.expected = σ.src.snd.pktSeq := by
    have hnext := hfed.refines.sim.next_eq
    have hcount := hfed.expected_eq
    have hcons := hfed.consumed.length_le
    by_contra hne
    -- a number below `pkt_seq` that the receiver still waits for has come
    have hcame : L.buf.Known L'.buf.next ∨ ∃ a ∈ order, a.1.seq = L'.buf.next := by
      rcases lt_or_ge L'.buf.next L.buf.next with hlt | hge
      · exact Or.inl (Or.inl hlt)
      · right
        have hfirst := h.refines.sim.next_eq
        obtain ⟨a, ha, hseq⟩ := hcome dst.consumed.length (by omega) (by omega)
        exact ⟨a, ha, by omega⟩
    exact hfed.not_known ((hknown L'.buf.next).mpr hcame)
  have hne : order ≠ [] := by
    rintro rfl
    obtain ⟨a, ha, -⟩ := hcome n (le_refl n) (by omega)
    cases ha
  obtain ⟨before, ack, rfl, hseq, hver⟩ := hlast hne
  exact ⟨dst, before, ack, hrun, hexp, hacks, by omega, hver⟩

/-- **The first packet of the sender's window reaches the receiver.** The one ack it is answered
with acknowledges it. -/
lemma Linked.ack_of_first {σ : Sys} {L : ReorderBuffer.Log Packet} (h : Linked fresh σ L)
    (hw : SenderSys.Windowed σ.src) (hint : σ.src.snd.pktSeq < 2 ^ 31) {pkt junk : Packet}
    (hmem : pkt ∈ σ.data) (hver : rdtVerifyChecksum pkt = true)
    (hseq : pkt.seq = σ.src.snd.ackExpected) {dst : ReceiverSys}
    (he : σ.dst.step fresh (pkt, junk) = some dst) :
    ∃ before ack, dst.acks = σ.dst.acks ++ (before ++ [ack]) ∧ rdtVerifyChecksum ack = true ∧
      σ.src.snd.ackExpected ≤ ack.seq := by
  obtain ⟨k, -, hget, hk⟩ := h.place hw (by omega) hmem hver
  have hle := h.ack_le
  have hwin : ReceiverSys.InWindow fresh σ.dst [(pkt, junk)] := by
    refine h.refines.inWindow ?_ ?_
    · intro a ha
      rw [List.mem_singleton.mp ha]
      exact hver
    · intro a ha
      rw [List.mem_singleton.mp ha]
      show pkt.seq < _
      omega
  obtain ⟨dst', L', hrun, hfed, hknown, new, hacks, hlast⟩ :=
    h.fed.run hw.numbered [(pkt, junk)]
      (fun a ha => by rw [List.mem_singleton.mp ha]; exact ⟨k, hget, hk⟩) hwin
  have hone : σ.dst.run fresh [(pkt, junk)] = some dst := by
    rw [ReceiverSys.run, List.foldlM_cons, he]
    rfl
  obtain rfl : dst' = dst := Option.some.inj (hrun.symm.trans hone)
  obtain ⟨before, ack, rfl, hack, hgood⟩ := hlast (List.cons_ne_nil _ _)
  refine ⟨before, ack, hacks, hgood, ?_⟩
  -- the packet has come, so the receiver does not wait for it
  have hnext := hfed.refines.sim.next_eq
  have hcame : pkt.seq ≠ dst'.rcv.expected := by
    intro heq
    exact hfed.not_known
      ((hknown _).mpr (Or.inr ⟨_, List.mem_singleton_self _, heq.trans hnext.symm⟩))
  have hcount := (ReceiverSys.run_consumed hrun).length_le
  have hbefore := h.expected_eq
  have hafter := hfed.expected_eq
  omega

/-- What an expiry transmits, in a run of the system. -/
lemma timeout_sent {σ σ₁ : Sys} (h : Run (step fresh) BufferFits Init σ)
    (htimer : σ.src.timer = true) {junk : Packet}
    (hexp : σ.step fresh (.timeout junk) = some σ₁) :
    ∃ n : ℕ, σ₁.src.snd.ackExpected = n ∧ σ₁.src.snd.ackExpected < σ₁.src.snd.pktSeq ∧
      σ₁.src.accepted = σ.src.accepted ∧ σ₁.src.sent = σ.src.sent ++ σ₁.src.built.drop n ∧
      (σ₁.src.built.drop n : Multiset Packet) ≤ σ₁.data := by
  simp only [step, if_pos htimer] at hexp
  obtain ⟨src, new, hsrc, hsent, rfl⟩ := send_eq_some hexp
  have hrun := run_src_orderly h
  obtain ⟨hr, hw⟩ := SenderSys.resting_windowed hrun
  have ht := (SenderSys.timerRight_of_orderly hrun).2
  obtain ⟨n, more, hbuilt, -, -, hsent', htime, -, -, hlen⟩ := SenderSys.step_sent hr hw hsrc
  have hack : src.snd.ackExpected = σ.src.snd.ackExpected := by
    rcases SenderSys.step_ackExpected hr hsrc with hsame | ⟨_, _, heq, -⟩
    · exact hsame
    · cases heq
  have haccepted : src.accepted = σ.src.accepted := by
    obtain ⟨o, ho, rfl⟩ := Option.map_eq_some_iff.mp hsrc
    exact List.append_nil _
  have hnew : new = src.built.drop n := List.append_cancel_left (hsent.symm.trans hsent')
  refine ⟨n, hack.trans (htime junk rfl), ?_, haccepted, hsent', ?_⟩
  · have hout := ht.timer_iff.mp htimer
    have hbefore := hw.length_eq
    have hgrow := congrArg List.length hbuilt
    rw [List.length_append] at hgrow
    show src.snd.ackExpected < src.snd.pktSeq
    omega
  · rw [← hnew]
    exact Multiset.le_add_left _ _

/-- **One clean round recovers from any history.** In every state of every run with at most
`MAX_BUFFER_SIZE` messages waiting and the sender's timer set, and as long as `pkt_seq` is an
`int`: if the timer expires, the packets this transmits are delivered in any order, and then the
last ack the receiver has sent because of them, both endpoints are at the value `pkt_seq` had
after the expiry; and either new packets have been transmitted and the timer runs, or no message
is waiting and the timer is off. The deliveries always happen, and the two calls into the
sender return if the size of every message is an `int` with the prefix. -/
theorem clean_round_recovers {σ : Sys} (h : Run (step fresh) BufferFits Init σ)
    (htimer : σ.src.timer = true) :
    ((∀ m ∈ σ.src.accepted, m.data.length ≤ 2 ^ 31 - 5) →
      ∀ junk, ∃ σ₁, σ.step fresh (.timeout junk) = some σ₁) ∧
    ∀ junk σ₁ new, σ.step fresh (.timeout junk) = some σ₁ →
      σ₁.src.sent = σ.src.sent ++ new → σ₁.src.snd.pktSeq < 2 ^ 31 →
      ∀ order : List (Packet × Packet), (order.map Prod.fst).Perm new →
        ∃ σ₂ before ack, σ₁.deliverAll fresh order = some σ₂ ∧
          σ₂.dst.acks = σ₁.dst.acks ++ (before ++ [ack]) ∧ ack ∈ σ₂.acks ∧
          ((∀ m ∈ σ.src.accepted, m.data.length ≤ 2 ^ 31 - 5) →
            ∀ junk', ∃ σ₃, σ₂.step fresh (.deliverAck ack junk') = some σ₃) ∧
          ∀ junk' σ₃, σ₂.step fresh (.deliverAck ack junk') = some σ₃ →
            σ₃.dst.rcv.expected = σ₁.src.snd.pktSeq ∧
            σ₃.src.snd.ackExpected = σ₁.src.snd.pktSeq ∧
            ((∃ more, more ≠ [] ∧ σ₃.src.built = σ₁.src.built ++ more ∧
                σ₃.src.sent = σ₁.src.sent ++ more ∧ σ₃.src.timer = true) ∨
              (σ₃.src.snd.curMessageSeq = σ₃.src.snd.nextMessageSeq ∧ σ₃.src.timer = false)) := by
  refine ⟨fun hsize junk => ?_, fun junk σ₁ new hexp hsent hint order horder => ?_⟩
  · obtain ⟨src, hsrc⟩ := SenderSys.exists_step_of_sizes (run_src_orderly h) hsize
      (e := .timeout junk) (by simp)
    obtain ⟨o, ho, -⟩ := Option.map_eq_some_iff.mp hsrc
    simp [step, if_pos htimer, send, ho]
  · obtain ⟨n, hn, hout, hacc, hsent', hflight⟩ := timeout_sent h htimer hexp
    obtain rfl : new = σ₁.src.built.drop n := List.append_cancel_left (hsent.symm.trans hsent')
    have h₁ : Run (step fresh) BufferFits Init σ₁ := h.next hexp fun _ _ heq => by cases heq
    obtain ⟨L, hL⟩ := linked_of_run h₁
    obtain ⟨hr, hw⟩ := SenderSys.resting_windowed (run_src_expiresSet h₁)
    obtain ⟨dst, before, ack, hrun, hexpected, hacks, hseq, hver⟩ :=
      hL.expected_of_delivered hr hw hint hn hout horder
    have hin : (order.map Prod.fst : Multiset Packet) ≤ σ₁.data := by
      rw [Multiset.coe_eq_coe.mpr horder]
      exact hflight
    obtain ⟨σ₂, new, hσ₂, hsrc, rfl, hnew, hacks'⟩ := deliverAll_eq order hin hrun
    obtain rfl := List.append_cancel_left (hnew.symm.trans hacks)
    have hmem : ack ∈ σ₂.acks := by
      rw [hacks', Multiset.mem_add]
      exact Or.inr (by simp)
    have h₂ := run_deliverAll order h₁ hσ₂
    refine ⟨σ₂, before, ack, hσ₂, hacks, hmem, fun hsize junk' => ?_, fun junk' σ₃ hσ₃ => ?_⟩
    · have hrun₂ := run_src_orderly h₂
      rw [hsrc] at hrun₂
      obtain ⟨src, hstep⟩ := SenderSys.exists_step_of_sizes hrun₂ (by rw [hacc]; exact hsize)
        (e := .fromLowerLayer ack junk') (by simp)
      obtain ⟨o, ho, -⟩ := Option.map_eq_some_iff.mp hstep
      simp [step, if_pos hmem, send, hsrc, ho]
    · simp only [step, if_pos hmem] at hσ₃
      obtain ⟨src, sent, hstep, -, rfl⟩ := send_eq_some hσ₃
      rw [hsrc] at hstep
      exact ⟨hexpected, SenderSys.step_of_last_ack (run_src_orderly h₁) hstep hver hseq hout⟩

/-- After the rough history the timer expires once more, and the packets arrive last one first. -/
theorem rough_round_recovers : ∃ (σ σ₁ σ₂ σ₃ : Sys) (new : List Packet) (ack : Packet), Rough σ ∧
    σ.step (fun _ _ => 0) (.timeout .zero) = some σ₁ ∧ σ₁.src.sent = σ.src.sent ++ new ∧
    σ₁.deliverAll (fun _ _ => 0) (new.reverse.map fun p => (p, .zero)) = some σ₂ ∧
    σ₂.step (fun _ _ => 0) (.deliverAck ack .zero) = some σ₃ ∧
    σ₃.src.snd.ackExpected = σ₁.src.snd.pktSeq := by
  obtain ⟨σ, hrun, hσ⟩ := exists_rough fun _ _ _ h => (bounded_of_test h).2
  obtain ⟨hexpires, hround⟩ := clean_round_recovers hrun hσ.timer
  rw [hσ.accepted] at hexpires hround
  obtain ⟨σ₁, hσ₁⟩ := hexpires SenderSys.rough_sizes .zero
  obtain ⟨n, -, -, hacc, hsent, -⟩ := timeout_sent hrun hσ.timer hσ₁
  have hsrc := run_src_orderly (hrun.next hσ₁ fun _ _ heq => by cases heq)
  have hseq : σ₁.src.snd.pktSeq < 2 ^ 31 := by
    have hlen := (SenderSys.resting_windowed hsrc).2.length_eq
    have hle := SenderSys.length_built_le hsrc
    rw [hacc, hσ.accepted, SenderSys.rough_segments] at hle
    omega
  obtain ⟨σ₂, before, ack, hσ₂, -, -, hreturns, hfinal⟩ := hround .zero σ₁ _ hσ₁ hsent hseq
    ((σ₁.src.built.drop n).reverse.map fun p => (p, .zero)) (by
      rw [List.map_map]
      exact (List.map_id _).symm ▸ List.reverse_perm _)
  obtain ⟨σ₃, hσ₃⟩ := hreturns SenderSys.rough_sizes .zero
  exact ⟨σ, σ₁, σ₂, σ₃, _, ack, hσ, hσ₁, hsent, hσ₂, hσ₃, (hfinal .zero σ₃ hσ₃).2.1⟩

end Sys
end NetLabs.Rdt
