import NetLabs.Rdt.CleanRound

/-!
# The protocol can always finish

No history of losses, duplications and alterations leaves the two endpoints stuck. A round is an
expiry of the sender's timer, the delivery of what it transmits and the delivery of the receiver's
last ack. Every round acknowledges a full window, or everything there is, so that as many rounds as
there are windows of unacknowledged packets deliver all messages and silence the sender.
-/

namespace NetLabs.Rdt

open NetLabs.Lib NetLabs.Lib.Bytes UpperMessage

/-- Steps in which the network does no harm, and no message is handed over. -/
def SysEvent.isClean : SysEvent → Bool
  | timeout _ => true
  | deliverData _ _ => true
  | deliverAck _ _ => true
  | _ => false

/-- An expiry of the timer. -/
def SysEvent.isTimeout : SysEvent → Bool
  | timeout _ => true
  | _ => false

namespace SenderSys

open Sender

variable {σ σ' : SenderSys}

lemma accepted_of_step {e : SenderEvent} (he : σ.step e = some σ') :
    σ'.accepted = σ.accepted ++ accepts e := by
  unfold step at he
  rw [Option.map_eq_some_iff] at he
  obtain ⟨o, -, rfl⟩ := he
  rfl

/-- **An expiry fills the window**, unless there are not enough packets left to build. -/
lemma window_of_timeout (h : Run step Orderly Init σ) {junk : Packet}
    (he : σ.step (.timeout junk) = some σ') (h' : Run step Orderly Init σ') :
    σ'.snd.ackExpected = σ.snd.ackExpected ∧
      (σ'.snd.pktSeq = σ'.snd.ackExpected + 10 ∨
        σ'.snd.pktSeq = (σ'.accepted.flatMap segment).length) := by
  obtain ⟨hc, -⟩ := (resting_windowed h).1
  rcases step_cases he with ⟨_, _, heq, -⟩ | ⟨_, _, _, heq, -⟩ | ⟨_, _, heq, -⟩ |
    ⟨_, _, _, heq, -⟩ | ⟨junk', o, heq, ho, rfl⟩
  · cases heq
  · cases heq
  · cases heq
  · cases heq
  · obtain ⟨hc', -, hack, -, -, hexit, -⟩ := hc.rewind.constructAndSend hc.ack_le ho
    refine ⟨hack, ?_⟩
    rcases hexit with hfull | hdone
    · left
      have hwin := hc'.window_eq
      show o.snd.pktSeq = o.snd.ackExpected + 10
      omega
    · right
      -- no message is waiting, so everything has been cut
      have hpay := payload_eq (stream_of_orderly h') hdone
      have hlen := congrArg List.length hpay
      rw [List.length_map] at hlen
      rw [(resting_windowed h').2.length_eq, hlen]

end SenderSys

/-- A packet whose checksum is right is acknowledged once. -/
lemma Receiver.acks_of_verified {fresh : ℤ → ℕ → Byte} {r : Receiver} {junk pkt : Packet}
    {o : Receiver.Outcome} (hver : rdtVerifyChecksum pkt = true)
    (ho : r.fromLowerLayer fresh junk pkt = some o) : ∃ ack, o.acks = [ack] := by
  unfold fromLowerLayer at ho
  rw [hver, if_neg (by decide)] at ho
  split at ho
  · obtain rfl := Option.some.inj ho
    exact ⟨_, rfl⟩
  · split at ho
    · obtain rfl := Option.some.inj ho
      exact ⟨_, rfl⟩
    · rw [Option.bind_eq_bind, Option.bind_eq_some_iff] at ho
      obtain ⟨c, -, hret⟩ := ho
      obtain rfl := Option.some.inj hret
      exact ⟨_, rfl⟩

namespace Sys

variable {fresh : ℤ → ℕ → Byte}

/-- Several steps, one after the other. -/
def steps (fresh : ℤ → ℕ → Byte) (σ : Sys) (es : List SysEvent) : Option Sys :=
  es.foldlM (step fresh) σ

lemma steps_append {σ σ' : Sys} {es es' : List SysEvent} (h : σ.steps fresh es = some σ') :
    σ.steps fresh (es ++ es') = σ'.steps fresh es' := by
  unfold steps at h ⊢
  rw [List.foldlM_append, h]
  rfl

/-- A clean step of a run is a step of a run, if there are few packets to build. -/
lemma run_clean_step {σ σ' : Sys} (h : Run (step fresh) Bounded Init σ)
    (htotal : (σ.src.accepted.flatMap segment).length < 2 ^ 31 - 10) {e : SysEvent}
    (hclean : e.isClean = true) (he : σ.step fresh e = some σ') :
    Run (step fresh) Bounded Init σ' ∧ σ'.src.accepted = σ.src.accepted := by
  have hno : ∀ msg junk, e ≠ .fromUpperLayer msg junk := by
    rintro msg junk rfl
    cases hclean
  have hacc : σ'.src.accepted = σ.src.accepted := by
    rcases step_cases he with ⟨e', src, _, _, hsrc, -, rfl, -, hup, -⟩ | ⟨_, _, _, _, -, -, -, -, rfl⟩ |
      ⟨_, _, rfl, -⟩
    · have hkept := SenderSys.accepted_of_step hsrc
      cases e' with
      | fromUpperLayer msg junk => exact absurd (hup msg junk rfl) (hno msg junk)
      | fromLowerLayer pkt junk => exact hkept.trans (List.append_nil _)
      | timeout junk => exact hkept.trans (List.append_nil _)
    · rfl
    · rfl
  have hfits : Run (step fresh) BufferFits Init σ' :=
    (bufferFits_of_bounded h).next he fun msg junk heq => absurd heq (hno msg junk)
  have hfew : FewPackets σ e σ' := by
    have hsrc := run_src_orderly hfits
    have hle := SenderSys.length_built_le hsrc
    have hlen := (SenderSys.resting_windowed hsrc).2.length_eq
    rw [hacc] at hle
    unfold FewPackets
    omega
  exact ⟨h.next he ⟨hfew, fun msg junk heq => absurd heq (hno msg junk)⟩, hacc⟩

/-- So are several of them. -/
lemma run_clean_steps : ∀ {es : List SysEvent} {σ σ' : Sys}, Run (step fresh) Bounded Init σ →
    (σ.src.accepted.flatMap segment).length < 2 ^ 31 - 10 → (∀ e ∈ es, e.isClean = true) →
    σ.steps fresh es = some σ' →
    Run (step fresh) Bounded Init σ' ∧ σ'.src.accepted = σ.src.accepted := by
  intro es
  induction es with
  | nil =>
    intro σ σ' h _ _ hσ'
    obtain rfl : σ = σ' := Option.some.inj hσ'
    exact ⟨h, rfl⟩
  | cons e es ih =>
    intro σ σ' h htotal hclean hσ'
    rw [steps, List.foldlM_cons, Option.bind_eq_bind, Option.bind_eq_some_iff] at hσ'
    obtain ⟨σ₁, he, hrest⟩ := hσ'
    obtain ⟨h₁, hacc₁⟩ := run_clean_step h htotal (hclean e List.mem_cons_self) he
    rw [← hacc₁] at htotal
    obtain ⟨h', hacc'⟩ := ih h₁ htotal (fun x hx => hclean x (List.mem_cons_of_mem _ hx)) hrest
    exact ⟨h', hacc'.trans hacc₁⟩

/-- What a timeout transmits, the receiver's answer to the last packet of it, and how far that
answer takes the sender. -/
lemma last_ack_of_timeout {σ σ₁ : Sys} (h : Run (step fresh) Bounded Init σ)
    (htotal : (σ.src.accepted.flatMap segment).length < 2 ^ 31 - 10) (htimer : σ.src.timer = true)
    (he : σ.step fresh (.timeout .zero) = some σ₁) :
    ∃ order last dst o before ack, σ₁.src.sent = σ.src.sent ++ (order ++ [last]) ∧
      ((order ++ [last] : List Packet) : Multiset Packet) ≤ σ₁.data ∧
      σ₁.dst.run fresh (order.map fun pkt => (pkt, .zero)) = some dst ∧
      dst.rcv.fromLowerLayer fresh .zero last = some o ∧ o.acks = [ack] ∧
      (dst.absorb o).acks = σ₁.dst.acks ++ (before ++ [ack]) ∧
      rdtVerifyChecksum ack = true ∧ ack.seq = σ₁.src.snd.pktSeq - 1 ∧
      σ₁.src.snd.ackExpected < σ₁.src.snd.pktSeq ∧
      (σ.src.snd.ackExpected + 10 ≤ σ₁.src.snd.pktSeq ∨
        σ₁.src.snd.pktSeq = (σ.src.accepted.flatMap segment).length) := by
  have hfits := bufferFits_of_bounded h
  obtain ⟨h₁, hacc⟩ := run_clean_step h htotal rfl he
  have hsrc₁ := run_src_orderly (bufferFits_of_bounded h₁)
  obtain ⟨hr₁, hw₁⟩ := SenderSys.resting_windowed hsrc₁
  obtain ⟨n, hn, hout, -, hsent, hflight⟩ := timeout_sent hfits htimer he
  have hwindow : σ₁.src.snd.ackExpected = σ.src.snd.ackExpected ∧
      (σ₁.src.snd.pktSeq = σ₁.src.snd.ackExpected + 10 ∨
        σ₁.src.snd.pktSeq = (σ₁.src.accepted.flatMap segment).length) := by
    have he' := he
    simp only [step, if_pos htimer] at he'
    obtain ⟨src, new, hstep, -, rfl⟩ := send_eq_some he'
    exact SenderSys.window_of_timeout (run_src_orderly hfits) hstep hsrc₁
  have hfew := few_packets (fun _ _ _ hok => hok.1) h₁
  -- the packets that were transmitted, up to the last one
  have hlen := hw₁.length_eq
  obtain hnil | ⟨order, last, hdrop⟩ := List.eq_nil_or_concat (σ₁.src.built.drop n)
  · rw [List.drop_eq_nil_iff] at hnil
    omega
  rw [List.concat_eq_append] at hdrop
  obtain ⟨L, hL⟩ := linked_of_run h₁
  have horder : (((σ₁.src.built.drop n).map fun pkt => (pkt, Packet.zero)).map Prod.fst).Perm
      (σ₁.src.built.drop n) := by
    rw [List.map_map]
    exact (List.map_id _).symm ▸ List.Perm.refl _
  obtain ⟨dst', before, ack, hrun, -, hacks, hseq, hver⟩ :=
    hL.expected_of_delivered hr₁ hw₁ (by omega) hn hout horder
  rw [hdrop, List.map_append, List.map_singleton, ReceiverSys.run_append_singleton,
    Option.bind_eq_some_iff] at hrun
  obtain ⟨dst, hrun, hlast⟩ := hrun
  obtain ⟨o, ho, rfl⟩ := Option.map_eq_some_iff.mp hlast
  -- the last packet is a good one, so its ack is the last
  have hgood : rdtVerifyChecksum last = true := by
    have hmem : last ∈ σ₁.src.built := List.mem_of_mem_drop
      (show last ∈ σ₁.src.built.drop n by rw [hdrop]; simp)
    obtain ⟨k, hk, hget⟩ := List.mem_iff_getElem.mp hmem
    exact (hw₁.numbered k last (by rw [List.getElem?_eq_getElem hk, hget])).2
  obtain ⟨ack', hack'⟩ := Receiver.acks_of_verified hgood ho
  obtain rfl : ack' = ack := by
    have hall : dst.acks ++ o.acks = σ₁.dst.acks ++ (before ++ [ack]) := hacks
    rw [hack', ← List.append_assoc] at hall
    exact List.singleton_inj.mp (List.append_inj' hall rfl).2
  refine ⟨order, last, dst, o, before, ack', ?_, ?_, hrun, ho, hack', hacks, hver, hseq, hout, ?_⟩
  · rw [hsent, hdrop]
  · rw [← hdrop]
    exact hflight
  · rw [← hacc]
    omega

/-- **One round**: with the timer set, the expiry, the deliveries and the last ack can all happen,
and they acknowledge ten packets more, or all that there are. -/
lemma exists_round {σ : Sys} (h : Run (step fresh) Bounded Init σ)
    (hsize : ∀ m ∈ σ.src.accepted, m.data.length ≤ 2 ^ 31 - 5)
    (htotal : (σ.src.accepted.flatMap segment).length < 2 ^ 31 - 10)
    (htimer : σ.src.timer = true) :
    ∃ es σ', σ.steps fresh es = some σ' ∧ (∀ e ∈ es, e.isClean = true) ∧
      es.countP SysEvent.isTimeout = 1 ∧
      (σ.src.snd.ackExpected + 10 ≤ σ'.src.snd.ackExpected ∨
        σ'.src.snd.ackExpected = (σ.src.accepted.flatMap segment).length) := by
  have hsrc := run_src_orderly (bufferFits_of_bounded h)
  -- the timer expires
  obtain ⟨src, hexp⟩ := SenderSys.exists_step_of_sizes hsrc hsize
    (show ∀ msg junk, SenderEvent.timeout .zero ≠ .fromUpperLayer msg junk by simp)
  obtain ⟨σ₁, he₁⟩ : ∃ σ₁, σ.step fresh (.timeout .zero) = some σ₁ := by
    obtain ⟨o, ho, -⟩ := Option.map_eq_some_iff.mp hexp
    simp [step, if_pos htimer, send, ho]
  obtain ⟨h₁, hacc₁⟩ := run_clean_step h htotal rfl he₁
  have hsrc₁ := run_src_orderly (bufferFits_of_bounded h₁)
  obtain ⟨order, last, dst, o, before, ack, -, hin, hrun, ho, -, hacks, hver, hseq, hout, hmove⟩ :=
    last_ack_of_timeout h htotal htimer he₁
  -- everything it transmits is delivered
  have hall : σ₁.dst.run fresh ((order ++ [last]).map fun p => (p, .zero)) =
      some (dst.absorb o) := by
    rw [List.map_append, List.map_singleton, ReceiverSys.run_append_singleton, hrun,
      Option.bind_some, ReceiverSys.step, ho]
    rfl
  have hmap : ((order ++ [last]).map fun p => (p, Packet.zero)).map Prod.fst = order ++ [last] := by
    rw [List.map_map]
    exact List.map_id _
  obtain ⟨σ₂, new, hσ₂, hsame, -, hnew, hacks₂⟩ := deliverAll_eq _ (by rw [hmap]; exact hin) hall
  obtain rfl := List.append_cancel_left (hnew.symm.trans hacks)
  have hmem : ack ∈ σ₂.acks := by
    rw [hacks₂, Multiset.mem_add]
    exact Or.inr (by simp)
  have hdeliver : σ₁.steps fresh ((order ++ [last]).map fun p => .deliverData p .zero) =
      some σ₂ := by
    rw [deliverAll, List.foldlM_map] at hσ₂
    rw [steps, List.foldlM_map]
    exact hσ₂
  -- and then the last ack
  obtain ⟨src₃, hstep₃⟩ := SenderSys.exists_step_of_sizes hsrc₁ (by rw [hacc₁]; exact hsize)
    (show ∀ msg junk, SenderEvent.fromLowerLayer ack .zero ≠ .fromUpperLayer msg junk by simp)
  obtain ⟨σ₃, he₃⟩ : ∃ σ₃, σ₂.step fresh (.deliverAck ack .zero) = some σ₃ := by
    obtain ⟨o, ho, -⟩ := Option.map_eq_some_iff.mp hstep₃
    simp [step, if_pos hmem, send, hsame, ho]
  have hend : σ₃.src.snd.ackExpected = σ₁.src.snd.pktSeq := by
    have he := he₃
    simp only [step, if_pos hmem] at he
    obtain ⟨src, sent, hstep, -, rfl⟩ := send_eq_some he
    rw [hsame] at hstep
    exact (SenderSys.step_of_last_ack hsrc₁ hstep hver hseq hout).1
  refine ⟨.timeout .zero :: ((order ++ [last]).map fun p => .deliverData p .zero) ++
    [.deliverAck ack .zero], σ₃, ?_, ?_, ?_, ?_⟩
  · rw [List.cons_append, steps, List.foldlM_cons, he₁]
    change σ₁.steps fresh _ = _
    rw [steps_append hdeliver, steps, List.foldlM_cons, he₃]
    rfl
  · intro e he
    simp only [List.cons_append, List.mem_cons, List.mem_append (s := List.map _ _), List.mem_map,
      List.not_mem_nil, or_false] at he
    rcases he with rfl | ⟨p, -, rfl⟩ | rfl
    · rfl
    · rfl
    · rfl
  · have hnone : ((order ++ [last]).map fun p => SysEvent.deliverData p .zero).countP
        SysEvent.isTimeout = 0 := by
      rw [List.countP_eq_zero]
      intro e he
      obtain ⟨p, -, rfl⟩ := List.mem_map.mp he
      exact Bool.false_ne_true
    rw [List.cons_append, List.countP_cons_of_pos rfl, List.countP_append, hnone]
    rfl
  · rw [hend]
    exact hmove

/-- As many rounds as there are windows to acknowledge. -/
lemma exists_rounds : ∀ (k : ℕ) {σ : Sys}, Run (step fresh) Bounded Init σ →
    (∀ m ∈ σ.src.accepted, m.data.length ≤ 2 ^ 31 - 5) →
    (σ.src.accepted.flatMap segment).length < 2 ^ 31 - 10 →
    (σ.src.accepted.flatMap segment).length ≤ σ.src.snd.ackExpected + 10 * k →
    ∃ es σ', σ.steps fresh es = some σ' ∧ (∀ e ∈ es, e.isClean = true) ∧
      es.countP SysEvent.isTimeout ≤ k ∧ σ'.src.timer = false := by
  intro k
  induction k with
  | zero =>
    intro σ h _ _ hk
    refine ⟨[], σ, rfl, by simp, by simp, ?_⟩
    -- everything is acknowledged
    have hsrc := run_src_orderly (bufferFits_of_bounded h)
    have hle := SenderSys.length_built_le hsrc
    have hlen := (SenderSys.resting_windowed hsrc).2.length_eq
    have ht := (SenderSys.timerRight_of_orderly hsrc).2
    rw [← Bool.not_eq_true, ht.timer_iff]
    omega
  | succ k ih =>
    intro σ h hsize htotal hk
    cases htimer : σ.src.timer with
    | false => exact ⟨[], σ, rfl, by simp, by simp, htimer⟩
    | true =>
      obtain ⟨es₁, σ₁, hes₁, hclean₁, hcount₁, hmove⟩ := exists_round h hsize htotal htimer
      obtain ⟨h₁, hacc₁⟩ := run_clean_steps h htotal hclean₁ hes₁
      rw [← hacc₁] at hsize htotal hk hmove
      obtain ⟨es₂, σ₂, hes₂, hclean₂, hcount₂, hoff⟩ := ih h₁ hsize htotal (by omega)
      refine ⟨es₁ ++ es₂, σ₂, ?_, ?_, ?_, hoff⟩
      · rw [steps_append hes₁]
        exact hes₂
      · intro e he
        rcases List.mem_append.mp he with he | he
        · exact hclean₁ e he
        · exact hclean₂ e he
      · rw [List.countP_append]
        omega

/-- **The protocol can always finish.** From every state of every run, whatever the network has
done before, there are steps without loss, duplication and alteration after which the sender is
silent and every message it was handed has been delivered, in order and once. They need no more
expiries of the timer than there are windows of unacknowledged packets. -/
theorem finishes_from_any_history {σ : Sys} (h : Run (step fresh) Bounded Init σ)
    (hsize : ∀ m ∈ σ.src.accepted, m.data.length ≤ 2 ^ 31 - 5)
    (htotal : (σ.src.accepted.flatMap segment).length < 2 ^ 31 - 10) :
    ∃ es σ', σ.steps fresh es = some σ' ∧ (∀ e ∈ es, e.isClean = true) ∧
      10 * (es.countP SysEvent.isTimeout : ℤ) <
        (σ.src.accepted.flatMap segment).length - σ.src.snd.ackExpected + 10 ∧
      σ'.src.timer = false ∧ σ'.dst.delivered = σ.src.accepted.map toMessage := by
  have hsrc := run_src_orderly (bufferFits_of_bounded h)
  have hack := (SenderSys.resting_windowed hsrc).1.1.ack_nonneg
  obtain ⟨es, σ', hes, hclean, hcount, hoff⟩ := exists_rounds
    (((σ.src.accepted.flatMap segment).length - σ.src.snd.ackExpected + 9) / 10).toNat h hsize
    htotal (by omega)
  obtain ⟨h', hacc⟩ := run_clean_steps h htotal hclean hes
  have hle : σ.src.snd.ackExpected ≤ (σ.src.accepted.flatMap segment).length := by
    have hbuilt := SenderSys.length_built_le hsrc
    have hlen := (SenderSys.resting_windowed hsrc).2.length_eq
    have hout := (SenderSys.resting_windowed hsrc).1.1.ack_le
    omega
  refine ⟨es, σ', hes, hclean, by omega, hoff, ?_⟩
  rw [← hacc]
  exact delivered_of_timer_off h' hoff

/-- After the rough history one more expiry of the timer is enough. -/
theorem rough_history_finishes : ∃ σ es σ', Rough σ ∧
    σ.steps (fun _ _ => 0) es = some σ' ∧ es.countP SysEvent.isTimeout ≤ 1 ∧
    σ'.dst.delivered = [SenderSys.paragraph.toMessage, SenderSys.word.toMessage] := by
  obtain ⟨σ, hrun, hσ⟩ := exists_rough fun _ _ _ h => bounded_of_test h
  have hfinish := finishes_from_any_history hrun
  rw [hσ.accepted, SenderSys.rough_segments, hσ.ackExpected] at hfinish
  obtain ⟨es, σ', hes, -, hcount, -, hdelivered⟩ :=
    hfinish SenderSys.rough_sizes (by norm_num)
  exact ⟨σ, es, σ', hσ, hes, by omega, hdelivered⟩

end Sys
end NetLabs.Rdt
