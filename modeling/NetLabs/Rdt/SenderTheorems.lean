import NetLabs.Lib.Transition
import NetLabs.Rdt.Sender

/-!
# The sender's counters and timer

What holds of the sender whatever messages, packets and expiries it is given:

* `constructPKT_frame` and `sendPKT_eq`, the specifications of the two loops, and
  `SenderSys.step_cases`, everything one call into the sender can do;
* `Counters`, the relations between the nine counters;
* `TimerRight`, that the timer runs exactly while a packet is outstanding.

Nothing here looks at the contents of the message buffer.
-/

namespace NetLabs.Rdt

open NetLabs.Lib NetLabs.Lib.Bytes

namespace Sender

/-! ## The packets the sender fills -/

lemma slice_fillPkt_seq (pkt : Packet) (n size : ℤ) (bs : List Byte) :
    slice (fillPkt pkt n size bs).data checksumSize 4 = intBytes n := by
  rw [fillPkt, slice_rdtAddChecksum _ (by decide), Packet.data_write,
    slice_overwrite_disjoint _ (Or.inl (by decide)), Packet.data_write,
    slice_overwrite_disjoint _ (Or.inl (by decide)), Packet.data_write,
    slice_overwrite_self _ (length_intBytes n) (by rw [pkt.length_data]; decide)]

@[simp] lemma seqWord_fillPkt (pkt : Packet) (n size : ℤ) (bs : List Byte) :
    (fillPkt pkt n size bs).seqWord = BitVec.ofInt 32 n := by
  rw [Packet.seqWord, slice_fillPkt_seq, readWord_intBytes]

@[simp] lemma rdtVerifyChecksum_fillPkt (pkt : Packet) (n size : ℤ) (bs : List Byte) :
    rdtVerifyChecksum (fillPkt pkt n size bs) = true :=
  rdtVerifyChecksum_rdtAddChecksum _

/-! ## The loop of `Sender_ConstructPKT` -/

namespace Construct

lemma cond_iff (c : Construct) : c.cond = true ↔
    c.snd.pktWindowNum < 10 ∧ c.snd.curMessageSeq < c.snd.nextMessageSeq := by
  simp [cond]

/-- What the loop leaves alone, and how the counters it moves belong together. -/
structure Frame (s : Sender) (c : Construct) : Prop where
  buffer : c.snd.buffer = s.buffer
  nextMessageSeq : c.snd.nextMessageSeq = s.nextMessageSeq
  ackExpected : c.snd.ackExpected = s.ackExpected
  nextPacketToSend : c.snd.nextPacketToSend = s.nextPacketToSend
  pktSeq : c.snd.pktSeq = s.pktSeq + c.built.length
  pktWindowNum : c.snd.pktWindowNum = s.pktWindowNum + c.built.length
  msgBufferNum : c.snd.msgBufferNum + c.snd.curMessageSeq = s.msgBufferNum + s.curMessageSeq
  le_cur : s.curMessageSeq ≤ c.snd.curMessageSeq
  cur_le_add : c.snd.curMessageSeq ≤ s.curMessageSeq + c.built.length
  cur_le_next : s.curMessageSeq ≤ s.nextMessageSeq → c.snd.curMessageSeq ≤ s.nextMessageSeq
  window_le : s.pktWindowNum ≤ 10 → c.snd.pktWindowNum ≤ 10
  cursor_nonneg : 0 ≤ s.cursorSender → 0 ≤ c.snd.cursorSender

lemma Frame.start (junk : Packet) (s : Sender) : Frame s (constructStart junk s) := by
  constructor <;> simp [constructStart]

lemma Frame.cut {s : Sender} {c : Construct} (h : Frame s c) (hc : c.cond = true) :
    Frame s c.cut := by
  obtain ⟨hw, hm⟩ := c.cond_iff.mp hc
  have hp := h.pktSeq
  have hn := h.pktWindowNum
  constructor
  case pktSeq => simp [Construct.cut]; omega
  case pktWindowNum => simp [Construct.cut]; omega
  case cur_le_add => have := h.cur_le_add; simp [Construct.cut]; omega
  case window_le => intro _; simp [Construct.cut]; omega
  case cursor_nonneg => intro h0; have := h.cursor_nonneg h0; simp [Construct.cut]; omega
  all_goals first | exact h.buffer | exact h.nextMessageSeq | exact h.ackExpected |
    exact h.nextPacketToSend | exact h.msgBufferNum | exact h.le_cur | exact h.cur_le_next

lemma Frame.cutLast {s : Sender} {c : Construct} (h : Frame s c) (hc : c.cond = true) :
    Frame s c.cutLast := by
  obtain ⟨hw, hm⟩ := c.cond_iff.mp hc
  have hp := h.pktSeq
  have hn := h.pktWindowNum
  have hb := h.msgBufferNum
  have hle := h.le_cur
  have hnext := h.nextMessageSeq
  constructor
  case pktSeq => simp [Construct.cutLast]; omega
  case pktWindowNum => simp [Construct.cutLast]; omega
  case msgBufferNum => simp [Construct.cutLast]; omega
  case le_cur => simp [Construct.cutLast]; omega
  case cur_le_add => have := h.cur_le_add; simp [Construct.cutLast]; omega
  case cur_le_next => intro _; simp [Construct.cutLast]; omega
  case window_le => intro _; simp [Construct.cutLast]; omega
  case cursor_nonneg => intro _; simp [Construct.cutLast]
  all_goals first | exact h.buffer | exact h.nextMessageSeq | exact h.ackExpected |
    exact h.nextPacketToSend

/-- A round keeps what both branches keep. -/
lemma body_inv {I : Construct → Prop} {c : Construct} (hcut : I c.cut) (hlast : I c.cutLast)
    (hc : I c) : I c.body := by
  unfold body
  split
  · exact hcut
  · split
    · exact hlast
    · exact hc

lemma Frame.body {s : Sender} {c : Construct} (h : Frame s c) (hc : c.cond = true) :
    Frame s c.body :=
  body_inv (h.cut hc) (h.cutLast hc) h

/-- A round fills a slot of the window, or it changes nothing. -/
lemma body_progress {c : Construct} (hc : c.cond = true) :
    c.body = c ∨ c.body.room < c.room := by
  obtain ⟨hw, -⟩ := c.cond_iff.mp hc
  unfold body
  split
  · right; simp [room, Construct.cut]; omega
  · split
    · right; simp [room, Construct.cutLast]; omega
    · exact Or.inl rfl

end Construct

/-- **Specification of `Sender_ConstructPKT`.** When it returns, the window is full or no
message is waiting. -/
theorem constructPKT_frame {junk : Packet} {s : Sender} {c : Construct}
    (h : constructPKT junk s = some c) : Construct.Frame s c ∧ c.cond = false :=
  While.run_inv (fun _ hI hc => Construct.Frame.body hI hc) _ (Construct.Frame.start junk s) h

/-- The budget of `constructPKT` decides the loop of the source: without a result, the loop
never ends. -/
theorem constructPKT_eq_none {junk : Packet} {s : Sender} (h : constructPKT junk s = none)
    (rounds : ℕ) :
    While.run Construct.cond Construct.body rounds (constructStart junk s) = none :=
  While.run_none_all (fun _ hc => Construct.body_progress hc) _ (le_refl _) h rounds

/-- With room in the window and a message waiting, at least one packet is built. -/
lemma constructPKT_built_pos {junk : Packet} {s : Sender} {c : Construct}
    (h : constructPKT junk s = some c) (hw : s.pktWindowNum < 10)
    (hm : s.curMessageSeq < s.nextMessageSeq) : 0 < c.built.length := by
  obtain ⟨hf, hexit⟩ := constructPKT_frame h
  by_contra hzero
  -- with nothing built the loop condition would still hold
  have hcond : c.cond = true := by
    rw [Construct.cond_iff, hf.pktWindowNum, hf.nextMessageSeq]
    have := hf.cur_le_add
    omega
  rw [hcond] at hexit
  cases hexit

/-! ## The loop of `Sender_SendPKT` -/

/-- The packets a ring holds for the numbers from `a` up to `b`. -/
def ringRange (w : Ring maxWindowSize Packet) (a b : ℤ) : List Packet :=
  (List.range (b - a).toNat).map fun i : ℕ => w.get (a + i)

lemma ringRange_of_le (w : Ring maxWindowSize Packet) {a b : ℤ} (h : b ≤ a) :
    ringRange w a b = [] := by
  rw [ringRange, show (b - a).toNat = 0 by omega]
  rfl

lemma ringRange_of_lt (w : Ring maxWindowSize Packet) {a b : ℤ} (h : a < b) :
    ringRange w a b = w.get a :: ringRange w (a + 1) b := by
  rw [ringRange, show (b - a).toNat = (b - (a + 1)).toNat + 1 by omega, List.range_succ_eq_map,
    List.map_cons, List.map_map, ringRange]
  -- head and tail: number `a`, and the numbers from `a + 1` on
  congr 1
  · simp
  · apply List.map_congr_left
    intro i _
    simp only [Function.comp, Nat.cast_succ]
    congr 1
    omega

lemma sendPKT_run (n : ℕ) : ∀ c : Sending, (c.snd.pktSeq - c.snd.nextPacketToSend).toNat = n →
    While.run Sending.cond Sending.body n c =
      some ⟨{ c.snd with nextPacketToSend := max c.snd.nextPacketToSend c.snd.pktSeq },
        c.sent ++ ringRange c.snd.windows c.snd.nextPacketToSend c.snd.pktSeq⟩ := by
  -- on the number of packets that are left to transmit
  induction n with
  | zero =>
    intro c hn
    have hmax : max c.snd.nextPacketToSend c.snd.pktSeq = c.snd.nextPacketToSend := by omega
    rw [While.run_of_not_cond (by simp [Sending.cond]; omega), hmax,
      ringRange_of_le _ (by omega), List.append_nil]
  | succ n ih =>
    intro c hn
    have hlt : c.snd.nextPacketToSend < c.snd.pktSeq := by omega
    have hmax : max (c.snd.nextPacketToSend + 1) c.snd.pktSeq =
        max c.snd.nextPacketToSend c.snd.pktSeq := by omega
    rw [While.run_succ_of_cond (by simpa [Sending.cond] using hlt),
      ih _ (by simp [Sending.body]; omega), ringRange_of_lt c.snd.windows hlt]
    simp only [Sending.body, hmax, List.append_assoc, List.singleton_append]

/-- **Specification of `Sender_SendPKT`**: it hands on the packets numbered from
`next_packet_to_send` up to `pkt_seq`, in order, and always returns. -/
theorem sendPKT_eq (s : Sender) : sendPKT s =
    some ⟨{ s with nextPacketToSend := max s.nextPacketToSend s.pktSeq },
      ringRange s.windows s.nextPacketToSend s.pktSeq⟩ :=
  sendPKT_run _ ⟨s, []⟩ rfl

/-! ## The handlers -/

/-- Calls to the lower layer leave the timer alone. -/
lemma foldl_timer_toLowerLayer (ps : List Packet) (t : Bool) :
    (ps.map SenderCall.toLowerLayer).foldl (fun t call => match call with
      | .startTimer => true
      | .stopTimer => false
      | .toLowerLayer _ => t) t = t := by
  induction ps with
  | nil => rfl
  | cons p ps ih => exact ih

/-- Everything `constructAndSend` does, in terms of the loop of `Sender_ConstructPKT`. -/
lemma constructAndSend_eq_some {junk : Packet} {s : Sender} {o : Outcome}
    (h : constructAndSend junk s = some o) : ∃ c, constructPKT junk s = some c ∧
      o.snd = { c.snd with nextPacketToSend := max c.snd.nextPacketToSend c.snd.pktSeq } ∧
      o.built = c.built ∧
      o.calls = .startTimer :: (ringRange c.snd.windows c.snd.nextPacketToSend
        c.snd.pktSeq).map .toLowerLayer := by
  unfold constructAndSend at h
  cases hc : constructPKT junk s with
  | none => simp [hc] at h
  | some c =>
    simp only [hc, sendPKT_eq, Option.bind_eq_bind, Option.bind_some, Option.pure_def,
      Option.some.injEq] at h
    subst h
    exact ⟨c, rfl, rfl, rfl, rfl⟩

lemma constructAndSend_isSome {junk : Packet} {s : Sender} {c : Construct}
    (h : constructPKT junk s = some c) : ∃ o, constructAndSend junk s = some o := by
  simp [constructAndSend, h, sendPKT_eq]

/-- The shared lines start the timer. -/
lemma constructAndSend_timer {junk : Packet} {s : Sender} {o : Outcome}
    (h : constructAndSend junk s = some o) (t : Bool) : o.timer t = true := by
  obtain ⟨c, -, -, -, hcalls⟩ := constructAndSend_eq_some h
  rw [Outcome.timer, hcalls, List.foldl_cons]
  exact foldl_timer_toLowerLayer _ _

/-- The shared lines transmit what is in the window from `next_packet_to_send` on. -/
lemma constructAndSend_sent {junk : Packet} {s : Sender} {o : Outcome} {c : Construct}
    (h : constructAndSend junk s = some o) (hc : constructPKT junk s = some c) :
    o.sent = ringRange c.snd.windows c.snd.nextPacketToSend c.snd.pktSeq := by
  obtain ⟨c', hc', -, -, hcalls⟩ := constructAndSend_eq_some h
  obtain rfl : c = c' := Option.some.inj (hc.symm.trans hc')
  rw [Outcome.sent, hcalls]
  simp [List.filterMap_map]

/-- A packet that is no ack of an outstanding packet can at most stop the timer. -/
lemma calls_of_refused {s : Sender} {junk pkt : Packet} {o : Outcome}
    (hout : rdtVerifyChecksum pkt = false ∨ ¬(s.ackExpected ≤ pkt.seq ∧ pkt.seq < s.pktSeq))
    (ho : s.fromLowerLayer junk pkt = some o) :
    o.snd = s ∧ (o.calls = [] ∨ o.calls = [.stopTimer]) := by
  unfold fromLowerLayer at ho
  cases hver : rdtVerifyChecksum pkt with
  | false =>
    rw [hver, if_pos (by decide)] at ho
    obtain rfl := Option.some.inj ho
    exact ⟨rfl, Or.inl rfl⟩
  | true =>
    obtain hbad | hrange := hout
    · rw [hver] at hbad
      cases hbad
    · simp only [hver, Bool.not_true, Bool.false_eq_true, if_false, hrange,
        Option.bind_eq_bind, Option.bind_some, Option.pure_def, Option.some.injEq] at ho
      subst ho
      split
      · exact ⟨rfl, Or.inr rfl⟩
      · exact ⟨rfl, Or.inl rfl⟩

end Sender

/-! ## Everything one call can do -/

namespace SenderSys

open Sender

/-- **Everything one call into the sender can do.** A message is only stored while the timer is
set; a packet that is no ack of an outstanding packet can at most stop the timer; in the other
three cases the shared lines run, from the state the handler prepared. -/
theorem step_cases {σ σ' : SenderSys} {e : SenderEvent} (h : σ.step e = some σ') :
    (∃ msg junk, e = .fromUpperLayer msg junk ∧ σ.timer = true ∧
      σ' = { σ with snd := σ.snd.enqueue msg.toMessage, accepted := σ.accepted ++ [msg] }) ∨
    (∃ msg junk o, e = .fromUpperLayer msg junk ∧ σ.timer = false ∧
      constructAndSend junk (σ.snd.enqueue msg.toMessage) = some o ∧
      σ' = { σ.absorb o with timer := true, accepted := σ.accepted ++ [msg] }) ∨
    (∃ pkt junk, e = .fromLowerLayer pkt junk ∧
      (rdtVerifyChecksum pkt = false ∨ ¬ (σ.snd.ackExpected ≤ pkt.seq ∧ pkt.seq < σ.snd.pktSeq)) ∧
      σ' = { σ with
        timer := σ.timer && !(rdtVerifyChecksum pkt && pkt.seq == σ.snd.pktSeq - 1) }) ∨
    (∃ pkt junk o, e = .fromLowerLayer pkt junk ∧ rdtVerifyChecksum pkt = true ∧
      σ.snd.ackExpected ≤ pkt.seq ∧ pkt.seq < σ.snd.pktSeq ∧
      constructAndSend junk (σ.snd.slide pkt.seq) = some o ∧
      σ' = { σ.absorb o with timer := pkt.seq != o.snd.pktSeq - 1 }) ∨
    (∃ junk o, e = .timeout junk ∧
      constructAndSend junk σ.snd.rewind = some o ∧
      σ' = { σ.absorb o with timer := true }) := by
  unfold step at h
  rw [Option.map_eq_some_iff] at h
  obtain ⟨o, ho, rfl⟩ := h
  cases e with
  | fromUpperLayer msg junk =>
    simp only [handle, fromUpperLayer] at ho
    cases htimer : σ.timer with
    | true =>
      left
      rw [htimer, if_pos rfl] at ho
      obtain rfl := Option.some.inj ho
      refine ⟨msg, junk, rfl, rfl, ?_⟩
      simp [after, absorb, timerBefore, accepts, Outcome.timer, Outcome.sent, htimer]
    | false =>
      right; left
      rw [htimer, if_neg (by simp)] at ho
      refine ⟨msg, junk, o, rfl, rfl, ho, ?_⟩
      simp [after, absorb, timerBefore, accepts, constructAndSend_timer ho]
  | fromLowerLayer pkt junk =>
    right; right
    simp only [handle, fromLowerLayer] at ho
    cases hver : rdtVerifyChecksum pkt with
    | false =>
      left
      simp only [hver, Bool.not_false, if_true] at ho
      obtain rfl := Option.some.inj ho
      refine ⟨pkt, junk, rfl, Or.inl hver, ?_⟩
      simp [after, absorb, timerBefore, accepts, Outcome.timer, Outcome.sent, hver]
    | true =>
      by_cases hin : σ.snd.ackExpected ≤ pkt.seq ∧ pkt.seq < σ.snd.pktSeq
      · right; left
        simp only [hver, Bool.not_true, Bool.false_eq_true, if_false, hin, and_self, if_true,
          Option.bind_eq_bind, Option.bind_eq_some_iff, Option.pure_def,
          Option.some.injEq] at ho
        obtain ⟨o', ho', rfl⟩ := ho
        have htimer := constructAndSend_timer ho' σ.timer
        refine ⟨pkt, junk, o', rfl, hver, hin.1, hin.2, ho', ?_⟩
        -- whether the ack is the last one decides over the timer
        split
        · simp_all [after, absorb, timerBefore, accepts, Outcome.timer, Outcome.sent,
            List.filterMap_append]
        · simp_all [after, absorb, timerBefore, accepts]
      · left
        refine ⟨pkt, junk, rfl, Or.inr hin, ?_⟩
        simp only [hver, Bool.not_true, Bool.false_eq_true, if_false, hin,
          Option.bind_eq_bind, Option.bind_some, Option.pure_def, Option.some.injEq] at ho
        subst ho
        split
        · simp_all [after, absorb, timerBefore, accepts, Outcome.timer, Outcome.sent]
        · simp_all [after, absorb, timerBefore, accepts, Outcome.timer, Outcome.sent]
  | timeout junk =>
    right; right; right; right
    simp only [handle, timeout] at ho
    refine ⟨junk, o, rfl, ho, ?_⟩
    simp [after, absorb, timerBefore, accepts, constructAndSend_timer ho]

/-- With the timer set, a message is only stored. -/
lemma step_of_timer {σ : SenderSys} (htimer : σ.timer = true) (msg : UpperMessage)
    (junk : Packet) :
    σ.step (.fromUpperLayer msg junk) = some { σ with
      snd := σ.snd.enqueue msg.toMessage
      accepted := σ.accepted ++ [msg] } := by
  simp [step, handle, fromUpperLayer, htimer, after, absorb, timerBefore, accepts, Outcome.timer,
    Outcome.sent]

end SenderSys

/-! ## The counters -/

namespace Sender

/-- How the counters belong together, between any two statements of a handler that touch
them together. -/
structure Counters (s : Sender) : Prop where
  ack_nonneg : 0 ≤ s.ackExpected
  ack_le : s.ackExpected ≤ s.pktSeq
  window_eq : s.pktWindowNum = s.pktSeq - s.ackExpected
  window_le : s.pktWindowNum ≤ 10
  buffer_eq : s.msgBufferNum = s.nextMessageSeq - s.curMessageSeq
  cur_nonneg : 0 ≤ s.curMessageSeq
  cur_le : s.curMessageSeq ≤ s.nextMessageSeq
  cursor_nonneg : 0 ≤ s.cursorSender

namespace Counters

lemma init (w : Ring maxWindowSize Packet) : Counters (.init w) := by
  constructor <;> simp [Sender.init]

lemma enqueue {s : Sender} (h : Counters s) (msg : Message) : Counters (s.enqueue msg) where
  ack_nonneg := h.ack_nonneg
  ack_le := h.ack_le
  window_eq := h.window_eq
  window_le := h.window_le
  buffer_eq := by have := h.buffer_eq; simp only [Sender.enqueue]; omega
  cur_nonneg := h.cur_nonneg
  cur_le := by have := h.cur_le; simp only [Sender.enqueue]; omega
  cursor_nonneg := h.cursor_nonneg

lemma slide {s : Sender} (h : Counters s) {ack : ℤ} (h₁ : s.ackExpected ≤ ack)
    (h₂ : ack < s.pktSeq) : Counters (s.slide ack) where
  ack_nonneg := by have := h.ack_nonneg; simp only [Sender.slide]; omega
  ack_le := by simp only [Sender.slide]; omega
  window_eq := by have := h.window_eq; simp only [Sender.slide]; omega
  window_le := by have := h.window_le; simp only [Sender.slide]; omega
  buffer_eq := h.buffer_eq
  cur_nonneg := h.cur_nonneg
  cur_le := h.cur_le
  cursor_nonneg := h.cursor_nonneg

lemma withNextPacketToSend {s : Sender} (h : Counters s) (n : ℤ) :
    Counters { s with nextPacketToSend := n } :=
  ⟨h.ack_nonneg, h.ack_le, h.window_eq, h.window_le, h.buffer_eq, h.cur_nonneg, h.cur_le,
    h.cursor_nonneg⟩

lemma rewind {s : Sender} (h : Counters s) : Counters s.rewind := h.withNextPacketToSend _

lemma frame {s : Sender} (h : Counters s) {c : Construct} (hf : Construct.Frame s c) :
    Counters c.snd where
  ack_nonneg := by rw [hf.ackExpected]; exact h.ack_nonneg
  ack_le := by have := h.ack_le; rw [hf.ackExpected, hf.pktSeq]; omega
  window_eq := by have := h.window_eq; rw [hf.ackExpected, hf.pktSeq, hf.pktWindowNum]; omega
  window_le := hf.window_le h.window_le
  buffer_eq := by have := h.buffer_eq; have := hf.msgBufferNum; rw [hf.nextMessageSeq]; omega
  cur_nonneg := le_trans h.cur_nonneg hf.le_cur
  cur_le := by rw [hf.nextMessageSeq]; exact hf.cur_le_next h.cur_le
  cursor_nonneg := hf.cursor_nonneg h.cursor_nonneg

end Counters

/-- The counters after the shared lines: everything built has been transmitted, and the window
is full or no message is waiting. -/
theorem Counters.constructAndSend {s : Sender} (h : Counters s) (hn : s.nextPacketToSend ≤ s.pktSeq)
    {junk : Packet} {o : Outcome} (ho : s.constructAndSend junk = some o) :
    Counters o.snd ∧ o.snd.nextPacketToSend = o.snd.pktSeq ∧
      o.snd.ackExpected = s.ackExpected ∧ o.snd.nextMessageSeq = s.nextMessageSeq ∧
      o.snd.pktSeq = s.pktSeq + o.built.length ∧
      (o.snd.pktWindowNum = 10 ∨ o.snd.curMessageSeq = o.snd.nextMessageSeq) ∧
      (s.pktWindowNum < 10 → s.curMessageSeq < s.nextMessageSeq → s.pktSeq < o.snd.pktSeq) := by
  obtain ⟨c, hc, hsnd, hbuilt, -⟩ := constructAndSend_eq_some ho
  obtain ⟨hf, hexit⟩ := constructPKT_frame hc
  have hcount := h.frame hf
  have hp := hf.pktSeq
  have hnext := hf.nextPacketToSend
  rw [hsnd]
  refine ⟨hcount.withNextPacketToSend _, ?_, hf.ackExpected, hf.nextMessageSeq, ?_, ?_, ?_⟩
  · show max c.snd.nextPacketToSend c.snd.pktSeq = c.snd.pktSeq
    omega
  · show c.snd.pktSeq = s.pktSeq + o.built.length
    rw [hbuilt]; exact hp
  · show c.snd.pktWindowNum = 10 ∨ c.snd.curMessageSeq = c.snd.nextMessageSeq
    -- the loop was left, so one of its two conditions fails
    have hnot := mt c.cond_iff.mpr (by rw [hexit]; simp)
    have := hcount.window_le
    have := hcount.cur_le
    omega
  · intro hw hm
    have := constructPKT_built_pos hc hw hm
    show s.pktSeq < c.snd.pktSeq
    omega

end Sender

namespace SenderSys

open Sender

/-- The counters between two calls. -/
def Resting (σ : SenderSys) : Prop :=
  Counters σ.snd ∧ σ.snd.nextPacketToSend = σ.snd.pktSeq

lemma Resting.init {σ : SenderSys} (h : Init σ) : Resting σ := by
  obtain ⟨w, rfl⟩ := h
  exact ⟨Counters.init w, rfl⟩

/-- Every call keeps the counters together. -/
theorem Resting.step {σ σ' : SenderSys} {e : SenderEvent} (h : Resting σ)
    (he : σ.step e = some σ') : Resting σ' := by
  obtain ⟨hc, hn⟩ := h
  rcases step_cases he with ⟨msg, junk, rfl, -, rfl⟩ | ⟨msg, junk, o, rfl, -, ho, rfl⟩ |
    ⟨pkt, junk, rfl, -, rfl⟩ | ⟨pkt, junk, o, rfl, -, h₁, h₂, ho, rfl⟩ | ⟨junk, o, rfl, ho, rfl⟩
  · exact ⟨hc.enqueue _, hn⟩
  · obtain ⟨hc', hn', -⟩ := (hc.enqueue _).constructAndSend (le_of_eq hn) ho
    exact ⟨hc', hn'⟩
  · exact ⟨hc, hn⟩
  · obtain ⟨hc', hn', -⟩ := (hc.slide h₁ h₂).constructAndSend (le_of_eq hn) ho
    exact ⟨hc', hn'⟩
  · obtain ⟨hc', hn', -⟩ := hc.rewind.constructAndSend hc.ack_le ho
    exact ⟨hc', hn'⟩

/-- Only a valid ack moves `ack_expected`, to the number behind it. -/
lemma step_ackExpected {σ σ' : SenderSys} {e : SenderEvent} (h : Resting σ)
    (he : σ.step e = some σ') : σ'.snd.ackExpected = σ.snd.ackExpected ∨
      ∃ pkt junk, e = .fromLowerLayer pkt junk ∧ rdtVerifyChecksum pkt = true ∧
        σ'.snd.ackExpected = pkt.seq + 1 := by
  obtain ⟨hc, hn⟩ := h
  rcases step_cases he with ⟨msg, junk, rfl, -, rfl⟩ | ⟨msg, junk, o, rfl, -, ho, rfl⟩ |
    ⟨pkt, junk, rfl, -, rfl⟩ | ⟨pkt, junk, o, rfl, hver, h₁, h₂, ho, rfl⟩ | ⟨junk, o, rfl, ho, rfl⟩
  · exact Or.inl rfl
  · exact Or.inl ((hc.enqueue _).constructAndSend (le_of_eq hn) ho).2.2.1
  · exact Or.inl rfl
  · exact Or.inr ⟨pkt, junk, rfl, hver, ((hc.slide h₁ h₂).constructAndSend (le_of_eq hn) ho).2.2.1⟩
  · exact Or.inl (hc.rewind.constructAndSend hc.ack_le ho).2.2.1

/-- The timer runs exactly while a packet is outstanding, and while a message is waiting. -/
structure TimerRight (σ : SenderSys) : Prop where
  timer_iff : σ.timer = true ↔ σ.snd.ackExpected < σ.snd.pktSeq
  waiting : σ.snd.curMessageSeq < σ.snd.nextMessageSeq → σ.timer = true

lemma TimerRight.init {σ : SenderSys} (h : Init σ) : TimerRight σ := by
  obtain ⟨w, rfl⟩ := h
  exact ⟨by simp [SenderSys.init, Sender.init], by simp [SenderSys.init, Sender.init]⟩

/-- An expiry happens only while the timer is set. -/
def ExpiresSet (σ : SenderSys) (e : SenderEvent) (_ : SenderSys) : Prop :=
  ∀ junk, e = .timeout junk → σ.timer = true

theorem TimerRight.step {σ σ' : SenderSys} {e : SenderEvent} (hr : Resting σ) (h : TimerRight σ)
    (he : σ.step e = some σ') (hexp : ExpiresSet σ e σ') : TimerRight σ' := by
  obtain ⟨hc, hn⟩ := hr
  have hle := hc.ack_le
  have hwin := hc.window_eq
  have htimer := h.timer_iff
  rcases step_cases he with ⟨msg, junk, rfl, ht, rfl⟩ | ⟨msg, junk, o, rfl, ht, ho, rfl⟩ |
    ⟨pkt, junk, rfl, hpkt, rfl⟩ | ⟨pkt, junk, o, rfl, hver, h₁, h₂, ho, rfl⟩ | ⟨junk, o, rfl, ho, rfl⟩
  · exact ⟨h.timer_iff, fun _ => ht⟩
  · -- the timer was off: nothing outstanding, so the message is cut at once
    obtain ⟨hc', hn', hack, hnext, hseq, hexit, hgrow⟩ :=
      (hc.enqueue msg.toMessage).constructAndSend (le_of_eq hn) ho
    have hcur := hc.cur_le
    -- the window is empty and a message is waiting: a packet is built
    have hgt := hgrow (by show σ.snd.pktWindowNum < 10; rw [ht] at htimer; simp at htimer; omega)
      (by simp only [Sender.enqueue]; omega)
    simp only [Sender.enqueue] at hack hgt
    exact ⟨by simp [absorb]; omega, fun _ => rfl⟩
  · -- a stale number can only stop a timer that is off already
    have hkeep : (σ.timer && !(rdtVerifyChecksum pkt && pkt.seq == σ.snd.pktSeq - 1)) =
        σ.timer := by
      rcases hpkt with hver | hout
      · simp [hver]
      · by_cases hseq : pkt.seq = σ.snd.pktSeq - 1
        · have hoff : σ.timer = false := by
            rw [Bool.eq_false_iff, Ne, htimer]; omega
          simp [hoff]
        · simp [hseq]
    rw [hkeep]
    exact ⟨h.timer_iff, h.waiting⟩
  · obtain ⟨hc', hn', hack, hnext, hseq, hexit, -⟩ :=
      (hc.slide h₁ h₂).constructAndSend (le_of_eq hn) ho
    have hwin' := hc'.window_eq
    simp only [Sender.slide] at hack hseq
    refine ⟨?_, fun hwait => ?_⟩
    · simp only [absorb, bne_iff_ne, ne_eq]; omega
    · -- a message still waits, so the window is full and the ack is not the last one
      simp only [absorb, bne_iff_ne, ne_eq] at hwait ⊢; omega
  · obtain ⟨hc', hn', hack, hnext, hseq, hexit, -⟩ :=
      hc.rewind.constructAndSend hc.ack_le ho
    -- the timer was set, so a packet is outstanding and stays so
    have hset := htimer.mp (hexp junk rfl)
    simp only [Sender.rewind] at hack hseq
    exact ⟨by simp [absorb]; omega, fun _ => rfl⟩

theorem resting_timerRight {ok : SenderSys → SenderEvent → SenderSys → Prop}
    (hok : ∀ s e t, ok s e t → ExpiresSet s e t) {σ : SenderSys} (h : Run step ok Init σ) :
    Resting σ ∧ TimerRight σ := by
  refine Run.invariant (I := fun σ => Resting σ ∧ TimerRight σ)
    (fun s hs => ⟨Resting.init hs, TimerRight.init hs⟩) ?_ h
  rintro s e t - ⟨hr, ht⟩ he hexp
  exact ⟨hr.step he, ht.step hr he (hok s e t hexp)⟩

/-- The first call of a run on zeroed memory: the upper layer hands over one byte. -/
def firstByte : SenderEvent := .fromUpperLayer (.byte 0x41) .zero

/-- The state after that call. -/
def afterFirstByte : SenderSys :=
  ((init (Ring.fill _ .zero)).step firstByte).get (by decide)

lemma run_firstByte {ok : SenderSys → SenderEvent → SenderSys → Prop}
    (h : ok (init (Ring.fill _ .zero)) firstByte afterFirstByte) :
    Run step ok Init afterFirstByte :=
  (Run.start ⟨_, rfl⟩).next (Option.some_get _).symm h

/-- **The sender's invariant, whatever the network delivers.** After any calls that return,
with any messages and any packets and with expiries only while the timer is set, the counters
agree, the timer runs exactly while a packet is outstanding, and no message waits with the
timer off. -/
theorem sender_state_invariant {σ : SenderSys} (h : Run step ExpiresSet Init σ) :
    σ.snd.pktWindowNum = σ.snd.pktSeq - σ.snd.ackExpected ∧
    0 ≤ σ.snd.pktWindowNum ∧ σ.snd.pktWindowNum ≤ maxWindowSize ∧
    σ.snd.nextPacketToSend = σ.snd.pktSeq ∧
    σ.snd.msgBufferNum = σ.snd.nextMessageSeq - σ.snd.curMessageSeq ∧ 0 ≤ σ.snd.msgBufferNum ∧
    (σ.timer = true ↔ σ.snd.ackExpected < σ.snd.pktSeq) ∧
    (σ.snd.curMessageSeq < σ.snd.nextMessageSeq → σ.timer = true) := by
  obtain ⟨⟨hc, hn⟩, ht⟩ := resting_timerRight (fun _ _ _ hok => hok) h
  have hwin := hc.window_eq
  have hbuf := hc.buffer_eq
  have hack := hc.ack_le
  have hcur := hc.cur_le
  exact ⟨hwin, by omega, hc.window_le, hn, hbuf, by omega, ht.timer_iff, ht.waiting⟩

/-! ## A rough history -/

/-- A message of three packets. -/
def paragraph : UpperMessage := ⟨List.replicate 300 0x50, by norm_num⟩

/-- A message of one packet. -/
def word : UpperMessage := ⟨[0x77, 0x6f, 0x72, 0x64, 0x21], by norm_num⟩

/-- While `paragraph` is on its way, `word` has to wait; the timer expires, so that all packets are
transmitted again and `word` follows; and the first two packets are acknowledged. -/
def roughCalls : List (SenderSys → SenderEvent) :=
  [fun _ => .fromUpperLayer paragraph .zero, fun _ => .fromUpperLayer word .zero,
    fun _ => .timeout .zero, fun _ => .fromLowerLayer (fillPkt .zero 1 0 []) .zero]

/-- There is room for the message, and the timer is set when it expires. -/
def orderlyTest (s : SenderSys) (e : SenderEvent) (_ : SenderSys) : Bool :=
  match e with
  | .fromUpperLayer _ _ => s.snd.msgBufferNum + 1 ≤ maxBufferSize
  | .fromLowerLayer _ _ => true
  | .timeout _ => s.timer

/-- The sender after these calls, on zeroed memory. -/
@[irreducible] def rough : SenderSys :=
  (play step orderlyTest (init (Ring.fill _ .zero)) roughCalls).get (by decide +kernel)

lemma run_rough {ok : SenderSys → SenderEvent → SenderSys → Prop}
    (hok : ∀ s e t, orderlyTest s e t = true → ok s e t) : Run step ok Init rough := by
  unfold rough
  exact Run.play (fun s e t (_ : True) => hok s e t) (fun _ _ _ => trivial) (.start ⟨_, rfl⟩)
    (Option.some_get _).symm

lemma rough_accepted : rough.accepted = [paragraph, word] := by decide +kernel

lemma rough_counters : rough.snd.ackExpected = 2 ∧ rough.snd.pktSeq = 4 ∧
    rough.snd.curMessageSeq = rough.snd.nextMessageSeq := by decide +kernel

/-- The `k`-th packet that is built there: 0, 1 and 2 are those of `paragraph`, 3 is that of
`word`. -/
@[irreducible] def roughPacket (k : ℕ) : Packet := rough.built.getD k .zero

/-- Packets 2 and 3 are outstanding at the end, so the timer runs. -/
theorem rough_timer : Run step ExpiresSet Init rough ∧
    rough.sent.map Packet.seq = [0, 1, 2, 0, 1, 2, 3] ∧ rough.timer = true := by
  have hrun : Run step ExpiresSet Init rough := by
    refine run_rough fun s e t h => ?_
    rintro junk rfl
    exact h
  obtain ⟨hack, hseq, -⟩ := rough_counters
  refine ⟨hrun, by decide +kernel, ?_⟩
  exact (sender_state_invariant hrun).2.2.2.2.2.2.1.mpr (by omega)

end SenderSys
end NetLabs.Rdt
