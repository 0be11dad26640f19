import NetLabs.Rdt.SenderBuffer

/-!
# The loop of `Sender_ConstructPKT` makes progress

The loop has a branch for a message that goes on behind the next packet and one for its last
packet, and none for a message whose size is not above the cursor. `Advancing` is the relation
between the cursor and the buffer that keeps the loop out of the missing branch. A new message
can break it in two ways (`KeepsCursor`): its size with the prefix is no `int`, or it is stored
over the message that is being cut, which the cursor has already passed.
-/

namespace NetLabs.Rdt

open NetLabs.Lib NetLabs.Lib.Bytes

namespace Sender

/-- Every waiting message has a positive size, and the cursor is inside the current one. -/
structure Advancing (s : Sender) : Prop where
  size_pos : ∀ k, s.curMessageSeq ≤ k → k < s.nextMessageSeq → 0 < (s.buffer.get k).size
  cursor_lt : s.curMessageSeq < s.nextMessageSeq →
    s.cursorSender < (s.buffer.get s.curMessageSeq).size
  cursor_eq_zero : s.nextMessageSeq ≤ s.curMessageSeq → s.cursorSender = 0

/-- A message that leaves the loop a branch: its size with the prefix is an `int`, and if it is
stored over the message that is being cut, it is longer than what has been cut. -/
def KeepsCursor (s : Sender) (msg : UpperMessage) : Prop :=
  msg.data.length ≤ 2 ^ 31 - 5 ∧
    (s.curMessageSeq < s.nextMessageSeq →
      Ring.slot maxBufferSize s.nextMessageSeq = Ring.slot maxBufferSize s.curMessageSeq →
      s.cursorSender < msg.data.length + 4)

namespace Advancing

lemma init (w : Ring maxWindowSize Packet) : Advancing (.init w) where
  size_pos k h₁ h₂ := by simp only [Sender.init] at h₁ h₂; omega
  cursor_lt h := by simp only [Sender.init] at h; omega
  cursor_eq_zero _ := rfl

/-- The fields the relation depends on. -/
lemma congr {s t : Sender} (h : Advancing s) (hb : t.buffer = s.buffer)
    (hn : t.nextMessageSeq = s.nextMessageSeq) (hm : t.curMessageSeq = s.curMessageSeq)
    (hc : t.cursorSender = s.cursorSender) : Advancing t := by
  refine ⟨?_, ?_, ?_⟩
  · rw [hb, hn, hm]; exact h.size_pos
  · rw [hb, hn, hm, hc]; exact h.cursor_lt
  · rw [hn, hm, hc]; exact h.cursor_eq_zero

/-- Storing a message of the right size. -/
lemma enqueue {s : Sender} (h : Advancing s) (hcur : s.curMessageSeq ≤ s.nextMessageSeq)
    {msg : UpperMessage} (hk : KeepsCursor s msg) : Advancing (s.enqueue msg.toMessage) := by
  have hsize : (stored msg.toMessage).size = msg.data.length + 4 := by
    rw [stored_size_of_le hk.1, UpperMessage.encoded, List.length_append, length_intBytes]
    push_cast
    ring
  have hget : ∀ k, (s.enqueue msg.toMessage).buffer.get k =
      if Ring.slot maxBufferSize k = Ring.slot maxBufferSize s.nextMessageSeq then
        stored msg.toMessage else s.buffer.get k := by
    intro k
    exact Ring.get_set _ _ _ _
  refine ⟨?_, ?_, ?_⟩
  · intro k h₁ h₂
    rw [hget]
    split
    · rw [hsize]; omega
    · rename_i hslot
      have hne : k ≠ s.nextMessageSeq := fun heq => hslot (by rw [heq])
      change k < s.nextMessageSeq + 1 at h₂
      exact h.size_pos k h₁ (by omega)
  · intro _
    change s.cursorSender < ((s.enqueue msg.toMessage).buffer.get s.curMessageSeq).size
    rw [hget]
    rcases lt_or_eq_of_le hcur with hwait | hnone
    · -- a message is being cut: it is still there, or the new one is longer than the cursor
      split
      · rename_i hslot
        rw [hsize]
        exact hk.2 hwait hslot.symm
      · exact h.cursor_lt hwait
    · rw [if_pos (by rw [hnone]), hsize, h.cursor_eq_zero (le_of_eq hnone.symm)]
      omega
  · intro hle
    change s.nextMessageSeq + 1 ≤ s.curMessageSeq at hle
    omega

/-- The relation inside the loop, where the local `msg` is the current message. -/
def Loop (c : Construct) : Prop :=
  Advancing c.snd ∧ (c.snd.curMessageSeq < c.snd.nextMessageSeq →
    c.msg = c.snd.buffer.get c.snd.curMessageSeq)

lemma start {s : Sender} (h : Advancing s) (junk : Packet) : Loop (constructStart junk s) :=
  ⟨h, fun _ => rfl⟩

/-- At the start of a round the cursor is inside the current message. -/
lemma Loop.cursor_lt {c : Construct} (h : Loop c) (hc : c.cond = true) :
    c.snd.cursorSender < c.msg.size := by
  have hwait := (c.cond_iff.mp hc).2
  rw [h.2 hwait]
  exact h.1.cursor_lt hwait

lemma Loop.body {c : Construct} (h : Loop c) (hc : c.cond = true) : Loop c.body := by
  have hwait := (c.cond_iff.mp hc).2
  have hmsg := h.2 hwait
  have hlt : c.msg.size > c.snd.cursorSender := h.cursor_lt hc
  rw [Construct.body]
  by_cases hmore : c.msg.size - c.snd.cursorSender > maxPayloadSize
  · rw [if_pos hmore]
    -- the message goes on behind this packet
    refine ⟨⟨h.1.size_pos, fun _ => ?_, fun hle => ?_⟩, h.2⟩
    · change c.snd.cursorSender + maxPayloadSize < (c.snd.buffer.get c.snd.curMessageSeq).size
      rw [← hmsg]
      omega
    · change c.snd.nextMessageSeq ≤ c.snd.curMessageSeq at hle
      omega
  · rw [if_neg hmore, if_pos hlt]
    -- the next message starts at its first byte
    refine ⟨⟨?_, ?_, fun _ => rfl⟩, fun hnext => if_pos hnext⟩
    · intro k h₁ h₂
      change c.snd.curMessageSeq + 1 ≤ k at h₁
      exact h.1.size_pos k (by omega) h₂
    · intro hnext
      exact h.1.size_pos (c.snd.curMessageSeq + 1) (by omega) hnext

/-- Such a round fills a slot of the window. -/
lemma Loop.room_body {c : Construct} (h : Loop c) (hc : c.cond = true) :
    c.body.room < c.room := by
  rcases Construct.body_progress hc with hstuck | hless
  · have hlt : c.msg.size > c.snd.cursorSender := h.cursor_lt hc
    -- a round with a branch adds a packet
    have hgrow : c.body.built.length = c.built.length + 1 := by
      rw [Construct.body]
      by_cases hmore : c.msg.size - c.snd.cursorSender > maxPayloadSize
      · rw [if_pos hmore]
        simp [Construct.cut]
      · rw [if_neg hmore, if_pos hlt]
        simp [Construct.cutLast]
    rw [hstuck] at hgrow
    omega
  · exact hless

/-- **`Sender_ConstructPKT` returns**, and leaves the cursor inside the current message. -/
theorem exists_constructPKT {s : Sender} (h : Advancing s) (junk : Packet) :
    ∃ c, Sender.constructPKT junk s = some c ∧ Advancing c.snd := by
  have hbody : ∀ c, Loop c → c.cond = true → Loop c.body ∧ c.body.room < c.room :=
    fun c hl hc => ⟨hl.body hc, hl.room_body hc⟩
  obtain ⟨c, hc⟩ := While.exists_run Construct.room hbody _ (h.start junk) (le_refl _)
  exact ⟨c, hc, (While.run_inv (fun _ hl hc => hl.body hc) _ (h.start junk) hc).1.1⟩

lemma constructAndSend {s : Sender} (h : Advancing s) (junk : Packet) :
    ∃ o, Sender.constructAndSend junk s = some o ∧ Advancing o.snd := by
  obtain ⟨c, hc, hadv⟩ := h.exists_constructPKT junk
  obtain ⟨o, ho⟩ := constructAndSend_isSome hc
  obtain ⟨c', hc', hsnd, -⟩ := constructAndSend_eq_some ho
  obtain rfl : c = c' := Option.some.inj (hc.symm.trans hc')
  refine ⟨o, ho, ?_⟩
  rw [hsnd]
  exact hadv.congr rfl rfl rfl rfl

end Advancing
end Sender

namespace SenderSys

open Sender

/-! ## Runs -/

/-- The state in which the handler of an event enters `Sender_ConstructPKT`, with the contents
of its local packet, if it does. -/
def entersConstruct (σ : SenderSys) : SenderEvent → Option (Packet × Sender)
  | .fromUpperLayer msg junk =>
    if σ.timer then none else some (junk, σ.snd.enqueue msg.toMessage)
  | .fromLowerLayer pkt junk =>
    if rdtVerifyChecksum pkt = true ∧ σ.snd.ackExpected ≤ pkt.seq ∧ pkt.seq < σ.snd.pktSeq then
      some (junk, σ.snd.slide pkt.seq)
    else none
  | .timeout junk => some (junk, σ.snd.rewind)

/-- Every message leaves the loop a branch. -/
def Steady (σ : SenderSys) (e : SenderEvent) (_ : SenderSys) : Prop :=
  ∀ msg junk, e = .fromUpperLayer msg junk → KeepsCursor σ.snd msg

variable {σ σ' : SenderSys} {e : SenderEvent}

/-- The loop is entered with the cursor inside the current message. -/
lemma advancing_entersConstruct (hr : Resting σ) (h : Advancing σ.snd)
    (hok : ∀ msg junk, e = .fromUpperLayer msg junk → KeepsCursor σ.snd msg) {junk : Packet}
    {s : Sender} (hs : σ.entersConstruct e = some (junk, s)) : Advancing s := by
  cases e with
  | fromUpperLayer msg junk' =>
    simp only [entersConstruct, Option.ite_none_left_eq_some, Option.some.injEq,
      Prod.mk.injEq] at hs
    obtain ⟨-, -, rfl⟩ := hs
    exact h.enqueue hr.1.cur_le (hok msg junk' rfl)
  | fromLowerLayer pkt junk' =>
    simp only [entersConstruct, Option.ite_none_right_eq_some, Option.some.injEq,
      Prod.mk.injEq] at hs
    obtain ⟨-, -, rfl⟩ := hs
    exact h.congr rfl rfl rfl rfl
  | timeout junk' =>
    simp only [entersConstruct, Option.some.injEq, Prod.mk.injEq] at hs
    obtain ⟨-, rfl⟩ := hs
    exact h.congr rfl rfl rfl rfl

/-- A handler returns if its call of `Sender_ConstructPKT` does. -/
lemma exists_step (h : ∀ junk s, σ.entersConstruct e = some (junk, s) →
    ∃ c, constructPKT junk s = some c) : ∃ σ', σ.step e = some σ' := by
  have hsend : ∀ junk s, σ.entersConstruct e = some (junk, s) →
      ∃ o, constructAndSend junk s = some o := by
    intro junk s hs
    obtain ⟨c, hc⟩ := h junk s hs
    exact constructAndSend_isSome hc
  suffices hhandle : ∃ o, σ.handle e = some o by
    obtain ⟨o, ho⟩ := hhandle
    exact ⟨_, by rw [step, ho, Option.map_some]⟩
  cases e with
  | fromUpperLayer msg junk =>
    simp only [handle, fromUpperLayer]
    cases htimer : σ.timer with
    | true => exact ⟨_, rfl⟩
    | false => exact hsend _ _ (by simp [entersConstruct, htimer])
  | fromLowerLayer pkt junk =>
    simp only [handle, fromLowerLayer]
    cases hver : rdtVerifyChecksum pkt with
    | false => exact ⟨_, rfl⟩
    | true =>
      by_cases hin : σ.snd.ackExpected ≤ pkt.seq ∧ pkt.seq < σ.snd.pktSeq
      · obtain ⟨o, ho⟩ := hsend junk (σ.snd.slide pkt.seq) (by simp [entersConstruct, hver, hin])
        simp [hin, ho]
      · simp [hin]
  | timeout junk => exact hsend _ _ rfl

/-- Every call keeps the cursor inside the current message. -/
theorem advancing_step (hr : Resting σ) (h : Advancing σ.snd) (he : σ.step e = some σ')
    (hok : Steady σ e σ') : Advancing σ'.snd := by
  have hafter : ∀ {junk s o}, Advancing s → constructAndSend junk s = some o →
      Advancing o.snd := by
    intro junk s o hs ho
    obtain ⟨o', ho', hadv⟩ := hs.constructAndSend junk
    obtain rfl : o = o' := Option.some.inj (ho.symm.trans ho')
    exact hadv
  rcases step_cases he with ⟨msg, junk, rfl, -, rfl⟩ | ⟨msg, junk, o, rfl, -, ho, rfl⟩ |
    ⟨pkt, junk, rfl, -, rfl⟩ | ⟨pkt, junk, o, rfl, -, h₁, h₂, ho, rfl⟩ | ⟨junk, o, rfl, ho, rfl⟩
  · exact h.enqueue hr.1.cur_le (hok msg junk rfl)
  · exact hafter (h.enqueue hr.1.cur_le (hok msg junk rfl)) ho
  · exact h
  · exact hafter (h.congr rfl rfl rfl rfl : Advancing (σ.snd.slide pkt.seq)) ho
  · exact hafter (h.congr rfl rfl rfl rfl : Advancing σ.snd.rewind) ho

lemma advancing_of_run (h : Run step Steady Init σ) : Advancing σ.snd := by
  refine Run.invariant (I := fun σ => Advancing σ.snd) ?_ ?_ h
  · rintro s ⟨w, rfl⟩
    exact Advancing.init w
  · intro s e t hrun hs he hok
    exact advancing_step (resting_windowed hrun).1 hs he hok

/-- **Packet construction never gets stuck while the messages keep the cursor.** In every run in
which each message has a size that is an `int` with its prefix and is not stored over a message
that has been cut beyond it, the next such call returns, and at the start of every round of the
loop of `Sender_ConstructPKT` the cursor is inside the current message and the round fills a
slot of the window. The counters have no bound here: the program is that of runs in which its
`int`s stay below `2 ^ 31`. -/
theorem construct_never_stuck (h : Run step Steady Init σ)
    (hok : ∀ msg junk, e = .fromUpperLayer msg junk → KeepsCursor σ.snd msg) :
    (∃ σ', σ.step e = some σ') ∧
    ∀ junk s, σ.entersConstruct e = some (junk, s) →
      (∃ c, constructPKT junk s = some c) ∧
      ∀ c, While.Round Construct.cond Construct.body (constructStart junk s) c →
        c.snd.cursorSender < (c.snd.buffer.get c.snd.curMessageSeq).size ∧
        c.body.room < c.room := by
  have hadv := advancing_of_run h
  have henter : ∀ junk s, σ.entersConstruct e = some (junk, s) → Advancing s :=
    fun junk s hs => advancing_entersConstruct (resting_windowed h).1 hadv hok hs
  have hreturns : ∀ junk s, σ.entersConstruct e = some (junk, s) →
      ∃ c, constructPKT junk s = some c := by
    intro junk s hs
    obtain ⟨c, hc, -⟩ := (henter junk s hs).exists_constructPKT junk
    exact ⟨c, hc⟩
  refine ⟨exists_step hreturns, fun junk s hs => ⟨hreturns junk s hs, fun c hround => ?_⟩⟩
  obtain ⟨hloop, hc⟩ := hround.inv ((henter junk s hs).start junk)
    (fun _ hl hc => Advancing.Loop.body hl hc)
  exact ⟨hloop.1.cursor_lt (c.cond_iff.mp hc).2, hloop.room_body hc⟩

instance (s : Sender) (msg : UpperMessage) : Decidable (KeepsCursor s msg) :=
  inferInstanceAs (Decidable (_ ∧ (_ → _ → _)))

/-- The messages keep the cursor. -/
def steadyTest (s : SenderSys) (e : SenderEvent) (_ : SenderSys) : Bool :=
  match e with
  | .fromUpperLayer msg _ => KeepsCursor s.snd msg
  | .fromLowerLayer _ _ => true
  | .timeout _ => true

/-- A message that fills the window and goes on behind it. -/
def longMessage : UpperMessage := ⟨List.replicate 1200 0x41, by norm_num⟩

/-- In the middle of `longMessage`, with `word` behind it, the ack of packet 4 makes the sender go
on cutting, and it returns. -/
theorem rough_construct : ∃ σ σ', Run step Steady Init σ ∧ 0 < σ.snd.cursorSender ∧
    σ.snd.msgBufferNum = 2 ∧ σ.step (.fromLowerLayer (fillPkt .zero 4 0 []) .zero) = some σ' := by
  have htest : ∀ s e t, True → steadyTest s e t = true → Steady s e t := by
    rintro s e t - h msg junk rfl
    exact of_decide_eq_true h
  have heval : (play step steadyTest (init (Ring.fill _ .zero))
      [fun _ => .fromUpperLayer longMessage .zero, fun _ => .fromUpperLayer word .zero,
        fun _ => .timeout .zero]).map
      (fun σ => (decide (0 < σ.snd.cursorSender), σ.snd.msgBufferNum)) = some (true, 2) := by
    decide +kernel
  obtain ⟨σ, hσ, heq⟩ := Option.map_eq_some_iff.mp heval
  rw [Prod.mk.injEq, decide_eq_true_eq] at heq
  have hrun : Run step Steady Init σ := 
    Run.play htest (fun _ _ _ => trivial) (.start ⟨_, rfl⟩) hσ
  obtain ⟨⟨σ', hσ'⟩, -⟩ := construct_never_stuck hrun
    (show ∀ msg junk, SenderEvent.fromLowerLayer (fillPkt .zero 4 0 []) .zero =
      .fromUpperLayer msg junk → KeepsCursor σ.snd msg from fun _ _ h => by cases h)
  exact ⟨σ, σ', hrun, heq.1, heq.2, hσ'⟩

/-! ## A run that gets stuck -/

/-- The window is full of the first 1190 bytes of message 0, and `n` more messages wait. -/
structure Blocked (n : ℕ) (σ : SenderSys) : Prop where
  timer : σ.timer = true
  curMessageSeq : σ.snd.curMessageSeq = 0
  nextMessageSeq : σ.snd.nextMessageSeq = n + 1
  cursorSender : σ.snd.cursorSender = 1190
  ackExpected : σ.snd.ackExpected = 0
  pktSeq : σ.snd.pktSeq = 10
  pktWindowNum : σ.snd.pktWindowNum = 10

lemma exists_blocked_zero : ∃ σ, Run step NonEmpty Init σ ∧ Blocked 0 σ := by
  have heval : ((init (Ring.fill _ .zero)).step (.fromUpperLayer longMessage .zero)).map
      (fun σ => (σ.timer, [σ.snd.curMessageSeq, σ.snd.nextMessageSeq, σ.snd.cursorSender,
        σ.snd.ackExpected, σ.snd.pktSeq, σ.snd.pktWindowNum])) =
      some (true, [0, 1, 1190, 0, 10, 10]) := by decide +kernel
  obtain ⟨σ, hσ, hfields⟩ := Option.map_eq_some_iff.mp heval
  simp only [Prod.mk.injEq, List.cons.injEq, and_true] at hfields
  obtain ⟨h₁, h₂, h₃, h₄, h₅, h₆, h₇⟩ := hfields
  refine ⟨σ, (Run.start ⟨_, rfl⟩).next hσ fun msg junk h => ?_, h₁, h₂, h₃, h₄, h₅, h₆, h₇⟩
  cases h
  rw [longMessage, List.length_replicate]
  norm_num

/-- The messages behind it are stored without a look at how many wait. The last one is in the
buffer. -/
lemma exists_blocked (n : ℕ) : ∃ σ, Run step NonEmpty Init σ ∧ Blocked (n + 1) σ ∧
    σ.snd.buffer.get (n + 1) = stored ⟨1, [0x41]⟩ := by
  have hstore : ∀ (k : ℕ) {τ : SenderSys}, Run step NonEmpty Init τ → Blocked k τ →
      ∃ σ, Run step NonEmpty Init σ ∧ Blocked (k + 1) σ ∧
        σ.snd.buffer.get (k + 1) = stored ⟨1, [0x41]⟩ := by
    intro k τ hrun hτ
    refine ⟨_, hrun.next (step_of_timer hτ.timer (.byte 0x41) .zero) ?_, ?_, ?_⟩
    · intro msg junk h
      cases h
      decide
    · refine ⟨hτ.timer, hτ.curMessageSeq, ?_, hτ.cursorSender, hτ.ackExpected, hτ.pktSeq,
        hτ.pktWindowNum⟩
      change τ.snd.nextMessageSeq + 1 = _
      rw [hτ.nextMessageSeq]
      push_cast
      ring
    · change (τ.snd.buffer.set τ.snd.nextMessageSeq _).get (k + 1) = _
      rw [hτ.nextMessageSeq, Ring.get_set_self]
      rfl
  induction n with
  | zero =>
    obtain ⟨τ, hrun, hτ⟩ := exists_blocked_zero
    exact hstore 0 hrun hτ
  | succ n ih =>
    obtain ⟨τ, hrun, hτ, -⟩ := ih
    exact hstore (n + 1) hrun hτ

/-- **The loop can run for ever.** Message 0 has 1200 bytes, and its first ten packets fill the
window. A thousand messages of one byte are stored, the last of them over message 0. Then the
first packet is acknowledged: there is room in the window, the current message has 5 bytes, and
the cursor is at 1190. -/
theorem construct_gets_stuck :
    ¬∀ σ : SenderSys, Run step NonEmpty Init σ →
      ∀ e junk s, (∀ msg junk, e = .fromUpperLayer msg junk → 1 ≤ msg.data.length) →
        σ.entersConstruct e = some (junk, s) →
        ∃ rounds c, While.run Construct.cond Construct.body rounds (constructStart junk s) =
          some c := by
  intro hclaim
  obtain ⟨σ, hrun, hσ, hstored⟩ := exists_blocked 999
  have hver : rdtVerifyChecksum (fillPkt .zero 0 0 []) = true := rdtVerifyChecksum_fillPkt ..
  have hseq : (fillPkt .zero 0 0 []).seq = 0 := by
    rw [Packet.seq_eq_toInt, seqWord_fillPkt]
    rfl
  have henter : σ.entersConstruct (.fromLowerLayer (fillPkt .zero 0 0 []) .zero) =
      some (.zero, σ.snd.slide 0) := by
    rw [entersConstruct, hseq, hσ.ackExpected, hσ.pktSeq, if_pos ⟨hver, by decide, by decide⟩]
  obtain ⟨rounds, c, hc⟩ := hclaim σ hrun _ _ _ (by simp) henter
  -- messages 0 and 1000 share a slot
  have hslot : Ring.slot maxBufferSize 0 = Ring.slot maxBufferSize (((999 : ℕ) : ℤ) + 1) := by
    decide
  have hmsg : (constructStart .zero (σ.snd.slide 0)).msg = stored ⟨1, [0x41]⟩ := by
    change σ.snd.buffer.get σ.snd.curMessageSeq = _
    rw [hσ.curMessageSeq, Ring.get_congr _ hslot, hstored]
  have hsize : (stored ⟨1, [0x41]⟩).size = 5 := by decide
  have hcursor : (constructStart .zero (σ.snd.slide 0)).snd.cursorSender = 1190 :=
    hσ.cursorSender
  have hcond : (constructStart .zero (σ.snd.slide 0)).cond = true := by
    rw [Construct.cond_iff]
    change σ.snd.pktWindowNum - (0 - σ.snd.ackExpected + 1) < 10 ∧
      σ.snd.curMessageSeq < σ.snd.nextMessageSeq
    rw [hσ.pktWindowNum, hσ.ackExpected, hσ.curMessageSeq, hσ.nextMessageSeq]
    decide
  have hbody : (constructStart .zero (σ.snd.slide 0)).body =
      constructStart .zero (σ.snd.slide 0) := by
    rw [Construct.body, hmsg, hcursor, hsize, if_neg (by decide), if_neg (by decide)]
  rw [While.run_eq_none_of_stuck hcond hbody] at hc
  cases hc

end SenderSys
end NetLabs.Rdt
