import NetLabs.Rdt.SenderStream

/-!
# The message buffer

`buffer` is a ring of `MAX_BUFFER_SIZE` messages that `Sender_FromUpperLayer` writes without
looking at how many of them are still waiting. `Fits` is exactly the condition under which
that is harmless (`retained_iff_fits`); in a run in which every message fits, the buffer does
what it is there for (`buffer_retains`), and `message_overwritten` is a run in which a message
that did not fit replaced one that was waiting.
-/

namespace NetLabs.Rdt

open NetLabs.Lib NetLabs.Lib.Bytes

namespace SenderSys

open Sender

/-- Every entry of the buffer that is not cut completely before a call is still there after
it. -/
def Kept (σ σ' : SenderSys) : Prop :=
  ∀ k, σ.snd.curMessageSeq ≤ k → k < σ.snd.nextMessageSeq →
    σ'.snd.buffer.get k = σ.snd.buffer.get k

/-- The only write to the buffer is the one of `Sender_FromUpperLayer`. -/
lemma buffer_of_fromUpperLayer {σ σ' : SenderSys} {msg : UpperMessage} {junk : Packet}
    (he : σ.step (.fromUpperLayer msg junk) = some σ') :
    σ'.snd.buffer = (σ.snd.enqueue msg.toMessage).buffer := by
  rcases step_cases he with ⟨msg', junk', heq, -, rfl⟩ | ⟨msg', junk', o, heq, -, ho, rfl⟩ |
    ⟨pkt, junk', heq, -⟩ | ⟨pkt, junk', o, heq, -⟩ | ⟨junk', o, heq, -⟩
  · cases heq; rfl
  · cases heq
    obtain ⟨c, hc, hsnd, -⟩ := constructAndSend_eq_some ho
    show o.snd.buffer = _
    rw [hsnd]
    exact (constructPKT_frame hc).1.buffer
  all_goals cases heq

/-- **A message leaves the waiting ones alone exactly if it fits.** A ring with
`MAX_BUFFER_SIZE` messages waiting has no free slot: the new message is stored over the one
that is `MAX_BUFFER_SIZE` numbers older. -/
theorem retained_iff_fits {σ σ' : SenderSys} {msg : UpperMessage} {junk : Packet}
    (he : σ.step (.fromUpperLayer msg junk) = some σ') : Kept σ σ' ↔ Fits σ.snd msg := by
  have hbuf := buffer_of_fromUpperLayer he
  constructor
  · intro hkept
    by_contra hnot
    obtain ⟨hfull, hdiff⟩ := not_or.mp hnot
    -- the ring is full: a message that waits has the slot of the new one
    have hslot : Ring.slot maxBufferSize (σ.snd.nextMessageSeq - maxBufferSize) =
        Ring.slot maxBufferSize σ.snd.nextMessageSeq := by
      have h := Ring.slot_add_self (n := maxBufferSize) (σ.snd.nextMessageSeq - maxBufferSize)
      rw [Int.sub_add_cancel] at h
      exact h.symm
    have hold := hkept (σ.snd.nextMessageSeq - maxBufferSize) (by omega) (by omega)
    rw [hbuf, Ring.get_congr _ hslot, Ring.get_congr _ hslot] at hold
    apply hdiff
    rw [← hold]
    exact Ring.get_set_self _ _ _
  · intro hfits k h₁ h₂
    rw [hbuf]
    exact get_enqueue_of_fits hfits h₁ h₂

/-! ## A run that loses a message -/

/-- The upper layer hands over the same byte `n` more times while the first packet is not
acknowledged. -/
def flood : ℕ → SenderSys
  | 0 => afterFirstByte
  | n + 1 => { flood n with
      snd := (flood n).snd.enqueue ⟨1, [0x41]⟩
      accepted := (flood n).accepted ++ [.byte 0x41] }

/-- Every message has at least one byte. -/
def NonEmpty (_ : SenderSys) (e : SenderEvent) (_ : SenderSys) : Prop :=
  ∀ msg junk, e = .fromUpperLayer msg junk → 1 ≤ msg.data.length

lemma flood_timer (n : ℕ) : (flood n).timer = true := by
  induction n with
  | zero => decide
  | succ n ih => exact ih

lemma flood_counts (n : ℕ) :
    (flood n).snd.curMessageSeq = 1 ∧ (flood n).snd.nextMessageSeq = n + 1 := by
  induction n with
  | zero => decide
  | succ n ih =>
    refine ⟨ih.1, ?_⟩
    show (flood n).snd.nextMessageSeq + 1 = _
    rw [ih.2]; push_cast; rfl

/-- With the timer set, a message is only stored. -/
lemma flood_step (n : ℕ) (b : Byte) : (flood n).step (.fromUpperLayer (.byte b) .zero) =
    some { flood n with
      snd := (flood n).snd.enqueue ⟨1, [b]⟩
      accepted := (flood n).accepted ++ [.byte b] } :=
  step_of_timer (flood_timer n) (.byte b) .zero

lemma flood_run (n : ℕ) : Run step NonEmpty Init (flood n) := by
  induction n with
  | zero => exact run_firstByte fun msg junk h => by cases h; decide
  | succ n ih => exact ih.next (flood_step n 0x41) fun msg junk h => by cases h; decide

/-- The byte `0x41` is stored for every number that is waiting. -/
lemma flood_stored : ∀ {n : ℕ} {k : ℤ}, 1 ≤ k → k ≤ n →
    (flood n).snd.buffer.get k = stored ⟨1, [0x41]⟩ := by
  intro n
  induction n with
  | zero => intro k h₁ h₂; omega
  | succ n ih =>
    intro k h₁ h₂
    show ((flood n).snd.buffer.set (flood n).snd.nextMessageSeq (stored ⟨1, [0x41]⟩)).get k = _
    rw [Ring.get_set]
    split
    · rfl
    · rename_i hslot
      apply ih h₁
      by_contra hgt
      apply hslot
      rw [(flood_counts n).2, show k = n + 1 by push_cast at h₂; omega]

/-- **A message that does not fit replaces one that is waiting.** One byte is sent and not
acknowledged, a thousand more are stored, and the next message is stored over number 1. -/
theorem message_overwritten : Run step NonEmpty Init (flood 1000) ∧
    ∃ σ', (flood 1000).step (.fromUpperLayer (.byte 0x42) .zero) = some σ' ∧
      (flood 1000).snd.curMessageSeq ≤ 1 ∧ 1 < (flood 1000).snd.nextMessageSeq ∧
      (flood 1000).snd.buffer.get 1 = stored ⟨1, [0x41]⟩ ∧
      σ'.snd.buffer.get 1 = stored ⟨1, [0x42]⟩ ∧ ¬ Kept (flood 1000) σ' := by
  obtain ⟨hcur, hnext⟩ := flood_counts 1000
  have hold : (flood 1000).snd.buffer.get 1 = stored ⟨1, [0x41]⟩ :=
    flood_stored (le_refl 1) (by norm_num)
  have hstep := flood_step 1000 0x42
  -- numbers 1 and 1001 have the same slot
  have hnew : ((flood 1000).snd.enqueue ⟨1, [0x42]⟩).buffer.get 1 = stored ⟨1, [0x42]⟩ := by
    show ((flood 1000).snd.buffer.set (flood 1000).snd.nextMessageSeq _).get 1 = _
    rw [Ring.get_set, hnext, if_pos (by decide)]
  refine ⟨flood_run 1000, _, hstep, by omega, by omega, hold, hnew, fun hkept => ?_⟩
  have hsame := hkept 1 (by omega) (by omega)
  rw [hold] at hsame
  have : stored ⟨1, [0x42]⟩ = stored ⟨1, [0x41]⟩ := hnew.symm.trans hsame
  revert this
  decide

/-! ## Runs in which every message fits -/

/-- **The buffer retains unprocessed messages as long as every message fits.** In every run in
which each message is accepted with fewer than `MAX_BUFFER_SIZE` messages waiting, or into a
slot that holds the same bytes already: every message that is not cut completely is stored as
it was accepted, and the packets carry the bytes of the accepted messages in order. In any run
at all, a call keeps the waiting messages exactly under that condition. The counters have no bound
here: the program is that of runs in which its `int`s stay below `2 ^ 31`. -/
theorem buffer_retains (σ : SenderSys) :
    (Run step Retaining Init σ →
      σ.snd.nextMessageSeq = σ.accepted.length ∧
      (∀ (k : ℕ) (msg : UpperMessage), σ.snd.curMessageSeq ≤ k → σ.accepted[k]? = some msg →
        σ.snd.buffer.get k = stored msg.toMessage) ∧
      σ.built.map Packet.payload <+: σ.accepted.flatMap UpperMessage.segment ∧
      ∀ msg junk σ', σ.step (.fromUpperLayer msg junk) = some σ' →
        Retaining σ (.fromUpperLayer msg junk) σ' → Kept σ σ') ∧
    (Run step Anything Init σ →
      ∀ msg junk σ', σ.step (.fromUpperLayer msg junk) = some σ' →
        (Kept σ σ' ↔ Fits σ.snd msg)) := by
  constructor
  · intro h
    have hs := stream_of_run h
    exact ⟨hs.next_eq, hs.retained, payload_isPrefix hs,
      fun msg junk σ' he hok => (retained_iff_fits he).mpr (hok msg junk rfl)⟩
  · intro _ msg junk σ' he
    exact retained_iff_fits he

/-- A second byte fits behind the first one. -/
theorem second_byte_kept : Run step Retaining Init (flood 1) ∧
    (flood 1).snd.buffer.get 1 = stored ⟨1, [0x41]⟩ := by
  have hrun : Run step Retaining Init (flood 1) := by
    refine (run_firstByte ?_).next (flood_step 0 0x41) ?_
    · exact fun msg junk _ => Or.inl (by decide)
    · exact fun msg junk _ => Or.inl (by decide)
  exact ⟨hrun, ((buffer_retains _).1 hrun).2.1 1 (.byte 0x41) (by decide) rfl⟩

end SenderSys
end NetLabs.Rdt
