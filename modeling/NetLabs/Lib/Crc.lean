import Mathlib.Data.Finset.Range
import Mathlib.Data.Finset.Card
import Mathlib.Data.List.Basic
import Mathlib.Logic.Function.Iterate
import Mathlib.Tactic.Common

/-!
# Reflected cyclic redundancy codes

A register of `w` bits with the polynomial `poly`. One step shifts the register right and
adds the polynomial when a one fell out; a message is fed bit by bit, least significant bit of
each byte first. The register is linear in the message, a step loses nothing as soon as the
polynomial has its top bit, and so the errors the code detects are read off the steps alone:
a burst no longer than the register, and one or two bits closer than the order of the step.
-/

namespace NetLabs.Lib.Crc

variable {w : ℕ} (poly : BitVec w)

/-! ## One step of the register -/

/-- Shift right by one, adding the polynomial when the bit shifted out is 1. -/
def shift (r : BitVec w) : BitVec w :=
  if r.getLsbD 0 then (r >>> 1) ^^^ poly else r >>> 1

theorem shift_xor (r s : BitVec w) : shift poly (r ^^^ s) = shift poly r ^^^ shift poly s := by
  unfold shift
  rw [BitVec.getLsbD_xor, BitVec.ushiftRight_xor_distrib]
  cases r.getLsbD 0 <;> cases s.getLsbD 0 <;> simp only [Bool.xor_false, Bool.xor_true,
    Bool.not_false, Bool.not_true, if_true, if_false, Bool.false_eq_true]
  · exact (BitVec.xor_assoc _ _ _)
  · rw [BitVec.xor_assoc, BitVec.xor_comm _ poly, ← BitVec.xor_assoc]
  · have hboth : (r >>> 1 ^^^ poly) ^^^ (s >>> 1 ^^^ poly)
        = (r >>> 1 ^^^ s >>> 1) ^^^ (poly ^^^ poly) := by
      ac_rfl
    rw [hboth, BitVec.xor_self, BitVec.xor_zero]

@[simp] lemma shift_zero : shift poly 0 = 0 := by
  simp [shift]

/-- A step loses nothing: the top bit of the result tells what fell out. -/
theorem shift_injective (hpoly : poly.msb = true) : Function.Injective (shift poly) := by
  have hzero : ∀ r, shift poly r = 0 → r = 0 := by
    intro r hr
    have hlow : r.getLsbD 0 = false := by
      by_contra hone
      rw [shift, if_pos (by simpa using hone), BitVec.ofNat_eq_ofNat,
        BitVec.xor_eq_zero_iff] at hr
      rw [← hr] at hpoly
      simp at hpoly
    rw [shift, if_neg (by simp [hlow])] at hr
    apply BitVec.eq_of_getLsbD_eq
    intro i hi
    cases i with
    | zero => simpa using hlow
    | succ i =>
      have hbit := congrArg (fun x => BitVec.getLsbD x i) hr
      simpa [Nat.add_comm 1 i] using hbit
  intro r s hrs
  have hdiff : shift poly (r ^^^ s) = 0 := by
    rw [shift_xor, hrs, BitVec.xor_self, BitVec.ofNat_eq_ofNat]
  simpa using hzero _ hdiff

theorem iterate_xor (n : ℕ) (r s : BitVec w) :
    (shift poly)^[n] (r ^^^ s) = (shift poly)^[n] r ^^^ (shift poly)^[n] s := by
  induction n generalizing r s with
  | zero => rfl
  | succ n ih => rw [Function.iterate_succ_apply, shift_xor, ih]; rfl

@[simp] lemma iterate_zero (n : ℕ) : (shift poly)^[n] 0 = 0 :=
  Function.iterate_fixed (shift_zero poly) n

lemma iterate_eq_zero (hpoly : poly.msb = true) {n : ℕ} {r : BitVec w}
    (h : (shift poly)^[n] r = 0) : r = 0 := by
  apply (shift_injective poly hpoly).iterate n
  rw [h, iterate_zero]

/-- A register whose low `n` bits are clear only moves down. -/
lemma iterate_of_low_clear {n : ℕ} {r : BitVec w} (h : ∀ i < n, r.getLsbD i = false) :
    (shift poly)^[n] r = r >>> n := by
  induction n with
  | zero => simp
  | succ n ih =>
    have hlow : (r >>> n).getLsbD 0 = false := by simpa using h n (by omega)
    rw [Function.iterate_succ_apply', ih (fun i hi => h i (by omega)), shift,
      if_neg (by simp [hlow]), BitVec.shiftRight_add]

/-! ## Feeding a message -/

/-- One bit in the low place of a register. -/
def unit (b : Bool) : BitVec w := (BitVec.ofBool b).setWidth w

/-- Add one bit of the message to the register and step. -/
def bitStep (r : BitVec w) (b : Bool) : BitVec w := shift poly (r ^^^ unit b)

/-- Feed a message bit by bit. -/
def feed (r : BitVec w) (l : List Bool) : BitVec w := l.foldl (bitStep poly) r

@[simp] lemma feed_nil (r : BitVec w) : feed poly r [] = r := rfl

@[simp] lemma feed_cons (r : BitVec w) (b : Bool) (l : List Bool) :
    feed poly r (b :: l) = feed poly (bitStep poly r b) l := rfl

lemma feed_append (r : BitVec w) (l l' : List Bool) :
    feed poly r (l ++ l') = feed poly (feed poly r l) l' :=
  List.foldl_append

lemma unit_xor (b c : Bool) : (unit (b ^^ c) : BitVec w) = unit b ^^^ unit c := by
  cases b <;> cases c <;> simp [unit]

@[simp] lemma unit_false : (unit false : BitVec w) = 0 := by simp [unit]

lemma bitStep_xor (r s : BitVec w) (b c : Bool) :
    bitStep poly (r ^^^ s) (b ^^ c) = bitStep poly r b ^^^ bitStep poly s c := by
  have hswap : (r ^^^ s) ^^^ unit (b ^^ c) = (r ^^^ unit b) ^^^ (s ^^^ unit c) := by
    rw [unit_xor]
    ac_rfl
  rw [bitStep, hswap, shift_xor, bitStep, bitStep]

/-- **Linearity.** Two messages of one length leave registers that differ as their difference
does. -/
theorem feed_xor (r s : BitVec w) {l l' : List Bool} (h : l.length = l'.length) :
    feed poly r l ^^^ feed poly s l' = feed poly (r ^^^ s) (List.zipWith xor l l') := by
  induction l generalizing r s l' with
  | nil =>
    rw [List.length_nil] at h
    rw [List.eq_nil_of_length_eq_zero h.symm]
    rfl
  | cons b l ih =>
    cases l' with
    | nil => simp at h
    | cons c l' =>
      rw [List.zipWith_cons_cons, feed_cons, feed_cons, feed_cons, bitStep_xor]
      exact ih _ _ (by simpa using h)

/-- Zeros only step the register. -/
lemma feed_replicate_false (r : BitVec w) (n : ℕ) :
    feed poly r (List.replicate n false) = (shift poly)^[n] r := by
  induction n generalizing r with
  | zero => rfl
  | succ n ih =>
    rw [List.replicate_succ, feed_cons, ih, Function.iterate_succ_apply, bitStep, unit_false]
    simp

/-! ## A block no longer than the register -/

/-- The bits of a block as one word, the first bit lowest. -/
def word : List Bool → BitVec w
  | [] => 0
  | b :: l => unit b ^^^ (word l <<< 1)

lemma getLsbD_word (l : List Bool) (i : ℕ) :
    (word l : BitVec w).getLsbD i = (decide (i < w) && l.getD i false) := by
  induction l generalizing i with
  | nil => simp [word]
  | cons b l ih =>
    rw [word, BitVec.getLsbD_xor, BitVec.getLsbD_shiftLeft, ih, unit]
    cases i with
    | zero => cases b <;> cases w <;> simp
    | succ i =>
      by_cases hi : i + 1 < w
      · have hi' : i < w := by omega
        simp [hi, hi']
      · simp [hi]

lemma word_append (l l' : List Bool) :
    (word (l ++ l') : BitVec w) = word l ^^^ (word l' <<< l.length) := by
  apply BitVec.eq_of_getLsbD_eq
  intro i hi
  rw [BitVec.getLsbD_xor, BitVec.getLsbD_shiftLeft, getLsbD_word, getLsbD_word, getLsbD_word]
  simp only [List.getD_eq_getElem?_getD]
  by_cases hl : i < l.length
  · rw [List.getElem?_append_left hl]
    simp [hl]
  · have hrest : i - l.length < w := by omega
    have hnone : l[i]? = none := List.getElem?_eq_none (by omega)
    rw [List.getElem?_append_right (by omega), hnone]
    simp [hi, hl, hrest]

lemma shift_shiftLeft {x : BitVec w} (h : x.msb = false) : shift poly (x <<< 1) = x := by
  rw [shift, if_neg (by simp)]
  apply BitVec.eq_of_getLsbD_eq
  intro i hi
  rw [BitVec.getLsbD_ushiftRight, BitVec.getLsbD_shiftLeft]
  by_cases htop : 1 + i < w
  · simp [htop]
  · have hlast : i = w - 1 := by omega
    rw [BitVec.msb_eq_getLsbD_last, ← hlast] at h
    simp [htop, h]

/-- Feeding a block that fits the register is adding it as a word and stepping over it. -/
theorem feed_eq_iterate (r : BitVec w) {l : List Bool} (h : l.length ≤ w) :
    feed poly r l = (shift poly)^[l.length] (r ^^^ word l) := by
  induction l generalizing r with
  | nil => simp [word]
  | cons b l ih =>
    rw [List.length_cons] at h
    have hmsb : (word l : BitVec w).msb = false := by
      rw [BitVec.msb_eq_getLsbD_last, getLsbD_word, List.getD_eq_getElem?_getD,
        List.getElem?_eq_none (by omega)]
      simp
    have hsplit : r ^^^ word (b :: l) = (r ^^^ unit b) ^^^ (word l <<< 1) := by
      rw [word, BitVec.xor_assoc]
    rw [feed_cons, ih _ (by omega), List.length_cons, Function.iterate_succ_apply, hsplit,
      shift_xor, shift_shiftLeft poly hmsb, bitStep]

/-! ## The errors a register detects -/

lemma bitStep_injective (hpoly : poly.msb = true) (b : Bool) :
    Function.Injective fun r => bitStep poly r b := by
  intro r s hrs
  have hsum : r ^^^ unit b = s ^^^ unit b := shift_injective poly hpoly hrs
  exact (BitVec.xor_left_inj _).mp hsum

/-- A difference in the register is never absorbed by what is fed later. -/
lemma feed_injective (hpoly : poly.msb = true) (l : List Bool) :
    Function.Injective fun r => feed poly r l := by
  induction l with
  | nil => exact Function.injective_id
  | cons b l ih => exact ih.comp (bitStep_injective poly hpoly b)

lemma word_injective {l l' : List Bool} (hlen : l.length = l'.length) (hw : l.length ≤ w)
    (h : (word l : BitVec w) = word l') : l = l' := by
  apply List.ext_getElem hlen
  intro i hi hi'
  have hbit := congrArg (fun x => BitVec.getLsbD x i) h
  simp only [getLsbD_word] at hbit
  have hiw : i < w := by omega
  simpa [hiw, hi, hi'] using hbit

/-- **Bursts.** Two messages that differ inside a block no longer than the register leave
different registers. -/
theorem burst_detected (hpoly : poly.msb = true) (r : BitVec w) {x y y' z : List Bool}
    (hlen : y.length = y'.length) (hw : y.length ≤ w)
    (h : feed poly r (x ++ y ++ z) = feed poly r (x ++ y' ++ z)) : y = y' := by
  simp only [feed_append] at h
  have hblock : feed poly (feed poly r x) y = feed poly (feed poly r x) y' :=
    feed_injective poly hpoly z h
  rw [feed_eq_iterate poly (feed poly r x) hw, feed_eq_iterate poly (feed poly r x) (hlen ▸ hw),
    ← hlen] at hblock
  have hsum := (shift_injective poly hpoly).iterate _ hblock
  exact word_injective hlen hw ((BitVec.xor_right_inj _).mp hsum)

/-- Without a one in the message the register is only stepped. -/
lemma feed_of_count_zero (r : BitVec w) {l : List Bool} (h : l.count true = 0) :
    feed poly r l = (shift poly)^[l.length] r := by
  have hl : l = List.replicate l.length false := by
    apply List.eq_replicate_of_mem
    intro b hb
    cases b with
    | false => rfl
    | true => exact absurd hb (List.count_eq_zero.mp h)
  rw [hl, feed_replicate_false, List.length_replicate]

/-- With one single one in the message, the register is stepped as often as there are bits
from it to the end. -/
lemma feed_of_count_one {l : List Bool} (h : l.count true = 1) (r : BitVec w) :
    ∃ n, 0 < n ∧ n ≤ l.length ∧
      feed poly r l = (shift poly)^[n] ((shift poly)^[l.length - n] r ^^^ unit true) := by
  induction l generalizing r with
  | nil => simp at h
  | cons b l ih =>
    cases b with
    | false =>
      obtain ⟨n, hpos, hn, heq⟩ := ih (by simpa using h) (bitStep poly r false)
      refine ⟨n, hpos, by rw [List.length_cons]; omega, ?_⟩
      rw [feed_cons, heq, List.length_cons, show l.length + 1 - n = l.length - n + 1 by omega,
        Function.iterate_succ_apply, bitStep, unit_false]
      simp
    | true =>
      refine ⟨l.length + 1, by omega, by simp, ?_⟩
      rw [feed_cons, feed_of_count_zero poly _ (by simpa using h), List.length_cons,
        Function.iterate_succ_apply]
      simp [bitStep]

/-- The register's step does not bring a one in the low place back within `n` steps. -/
def NoReturn (n : ℕ) : Prop := ∀ d, 0 < d → d < n → (shift poly)^[d] (unit true) ≠ unit true

/-- A single one in the message is never lost. -/
lemma one_bit_detected (hpoly : poly.msb = true) (hw : 0 < w) {l : List Bool}
    (h : l.count true = 1) : feed poly 0 l ≠ 0 := by
  intro hzero
  obtain ⟨n, _, _, heq⟩ := feed_of_count_one poly h 0
  rw [heq, iterate_zero] at hzero
  have hunit : (unit true : BitVec w) = 0 := by simpa using iterate_eq_zero poly hpoly hzero
  have hbit := congrArg (fun x => BitVec.getLsbD x 0) hunit
  simp [unit, hw] at hbit

/-- Two ones in a message cancel only at a distance that brings the register back. -/
lemma two_bits_detected (hpoly : poly.msb = true) {l : List Bool} (h : l.count true = 2)
    (hret : NoReturn poly l.length) : feed poly 0 l ≠ 0 := by
  induction l with
  | nil => simp at h
  | cons b l ih =>
    cases b with
    | false =>
      rw [feed_cons, bitStep, unit_false, BitVec.ofNat_eq_ofNat, BitVec.xor_zero,
        ← BitVec.ofNat_eq_ofNat, shift_zero]
      apply ih (by simpa using h)
      intro d hd hlt
      exact hret d hd (by rw [List.length_cons]; omega)
    | true =>
      -- the register is stepped from the first one to the second, where the two meet
      intro hzero
      obtain ⟨n, hpos, hn, heq⟩ :=
        feed_of_count_one poly (by simpa using h) (bitStep poly 0 true)
      rw [feed_cons, heq] at hzero
      have hmeet := iterate_eq_zero poly hpoly hzero
      rw [BitVec.ofNat_eq_ofNat, BitVec.xor_eq_zero_iff, bitStep, BitVec.zero_xor,
        ← Function.iterate_succ_apply] at hmeet
      exact hret _ (by omega) (by rw [List.length_cons]; omega) hmeet

/-- **Single and double bits.** Two messages that differ in one bit or in two leave different
registers, as long as the register does not return within their length. -/
theorem few_bits_detected (hpoly : poly.msb = true) (hw : 0 < w) (r : BitVec w)
    {l l' : List Bool} (hlen : l.length = l'.length) (hret : NoReturn poly l.length)
    (h : (List.zipWith xor l l').count true = 1 ∨ (List.zipWith xor l l').count true = 2) :
    feed poly r l ≠ feed poly r l' := by
  intro heq
  have hzero : feed poly 0 (List.zipWith xor l l') = 0 := by
    have hsum := feed_xor poly r r hlen
    rw [heq, BitVec.xor_self, BitVec.xor_self] at hsum
    exact hsum.symm
  rcases h with hone | htwo
  · exact one_bit_detected poly hpoly hw hone hzero
  · refine two_bits_detected poly hpoly htwo ?_ hzero
    rwa [List.length_zipWith, ← hlen, Nat.min_self]

/-! ## Bytes -/

/-- The bits of a byte, least significant first. -/
def byteBits (b : BitVec 8) : List Bool := List.ofFn fun i : Fin 8 => b.getLsbD i

/-- The bits of a byte string. -/
def bits (bs : List (BitVec 8)) : List Bool := bs.flatMap byteBits

/-- Add a byte to the low end of the register and step over it. -/
def byteStep (r : BitVec w) (b : BitVec 8) : BitVec w := (shift poly)^[8] (r ^^^ b.setWidth w)

/-- The bit-by-bit code of a byte string, from the register `init`. -/
def bitwise (init : BitVec w) (bs : List (BitVec 8)) : BitVec w := bs.foldl (byteStep poly) init

@[simp] lemma length_byteBits (b : BitVec 8) : (byteBits b).length = 8 := List.length_ofFn

@[simp] lemma bits_cons (b : BitVec 8) (bs : List (BitVec 8)) :
    bits (b :: bs) = byteBits b ++ bits bs :=
  List.flatMap_cons

lemma bits_append (bs cs : List (BitVec 8)) : bits (bs ++ cs) = bits bs ++ bits cs :=
  List.flatMap_append

lemma length_bits (bs : List (BitVec 8)) : (bits bs).length = 8 * bs.length := by
  induction bs with
  | nil => rfl
  | cons b bs ih => rw [bits_cons, List.length_append, ih, length_byteBits, List.length_cons]; omega

lemma word_byteBits (b : BitVec 8) : (word (byteBits b) : BitVec w) = b.setWidth w := by
  apply BitVec.eq_of_getLsbD_eq
  intro i hi
  rw [getLsbD_word, BitVec.getLsbD_setWidth, List.getD_eq_getElem?_getD]
  by_cases h8 : i < 8
  · rw [byteBits, List.getElem?_ofFn, dif_pos h8]
    rfl
  · rw [List.getElem?_eq_none (by rw [length_byteBits]; omega), BitVec.getLsbD_of_ge b i (by omega)]
    rfl

lemma byteBits_injective : Function.Injective byteBits := by
  intro b c h
  have hword := congrArg (word : List Bool → BitVec 8) h
  simpa [word_byteBits] using hword

lemma bits_injective : Function.Injective bits := by
  intro bs cs h
  have hlen : bs.length = cs.length := by
    have := congrArg List.length h
    rw [length_bits, length_bits] at this
    omega
  induction bs generalizing cs with
  | nil => exact (List.eq_nil_of_length_eq_zero hlen.symm).symm
  | cons b bs ih =>
    cases cs with
    | nil => simp at hlen
    | cons c cs =>
      rw [bits_cons, bits_cons] at h
      obtain ⟨hb, hbs⟩ := List.append_inj h (by simp)
      rw [byteBits_injective hb, ih hbs (by simpa using hlen)]

lemma byteStep_eq_feed (hw : 8 ≤ w) (r : BitVec w) (b : BitVec 8) :
    byteStep poly r b = feed poly r (byteBits b) := by
  rw [feed_eq_iterate poly r (by simpa using hw), length_byteBits, word_byteBits, byteStep]

/-- The byte-wise loop feeds the bits of the bytes. -/
theorem bitwise_eq_feed (hw : 8 ≤ w) (init : BitVec w) (bs : List (BitVec 8)) :
    bitwise poly init bs = feed poly init (bits bs) := by
  induction bs generalizing init with
  | nil => rfl
  | cons b bs ih =>
    rw [bits_cons, feed_append, ← byteStep_eq_feed poly hw, ← ih]
    rfl

/-- Bit `t` of a byte string. -/
def bitAt (bs : List (BitVec 8)) (t : ℕ) : Bool := (bs.getD (t / 8) 0).getLsbD (t % 8)

lemma byteBits_eq_map (b : BitVec 8) (bs : List (BitVec 8)) :
    byteBits b = (List.range 8).map (bitAt (b :: bs)) := by
  apply List.ext_getElem (by simp)
  intro i hi _
  rw [length_byteBits] at hi
  have hdiv : i / 8 = 0 := by omega
  have hmod : i % 8 = i := by omega
  simp only [byteBits, List.getElem_ofFn, List.getElem_map, List.getElem_range, bitAt, hdiv, hmod,
    List.getD_cons_zero]

theorem bits_eq_map (bs : List (BitVec 8)) :
    bits bs = (List.range (8 * bs.length)).map (bitAt bs) := by
  induction bs with
  | nil => rfl
  | cons b bs ih =>
    have hrest : bitAt bs = bitAt (b :: bs) ∘ (8 + ·) := by
      funext t
      have hdiv : (8 + t) / 8 = t / 8 + 1 := by omega
      have hmod : (8 + t) % 8 = t % 8 := by omega
      simp only [bitAt, Function.comp, hdiv, hmod, List.getD_cons_succ]
    rw [List.length_cons, show 8 * (bs.length + 1) = 8 + 8 * bs.length by omega, List.range_add,
      List.map_append, List.map_map, ← hrest, ← ih, ← byteBits_eq_map, bits_cons]

/-- The ones in the difference of two byte strings are the places in which they differ. -/
lemma count_zipWith_bits {bs cs : List (BitVec 8)} (h : bs.length = cs.length) :
    (List.zipWith xor (bits bs) (bits cs)).count true =
      ((Finset.range (8 * bs.length)).filter fun t => bitAt bs t ≠ bitAt cs t).card := by
  have hcount : ∀ l : List ℕ, ((l.map fun t => bitAt bs t ^^ bitAt cs t).count true) =
      (l.filter fun t => bitAt bs t ≠ bitAt cs t).length := by
    intro l
    rw [List.count_eq_countP, List.countP_map, List.countP_eq_length_filter]
    congr 2
    funext t
    rw [Function.comp_apply]
    cases bitAt bs t <;> cases bitAt cs t <;> rfl
  rw [bits_eq_map, bits_eq_map, ← h, List.zipWith_map, List.zipWith_self, hcount]
  rfl

/-- Stepping over the low `n` bits of a register leaves what they make of the polynomial, and
the rest moved down: what a table of the `2 ^ n` low parts is for. -/
theorem iterate_split {n : ℕ} (hn : n ≤ w) (r : BitVec w) :
    (shift poly)^[n] r = (shift poly)^[n] ((r.setWidth n).setWidth w) ^^^ (r >>> n) := by
  set low : BitVec w := (r.setWidth n).setWidth w with hlow
  have hbit : ∀ i, (r ^^^ low).getLsbD i = (decide (n ≤ i) && r.getLsbD i) := by
    intro i
    rw [BitVec.getLsbD_xor, hlow, BitVec.getLsbD_setWidth, BitVec.getLsbD_setWidth]
    by_cases hi : i < n
    · have hiw : i < w := by omega
      have hni : ¬n ≤ i := by omega
      simp [hi, hiw, hni]
    · have hni : n ≤ i := by omega
      simp [hi, hni]
  have hclear : ∀ i < n, (r ^^^ low).getLsbD i = false := by
    intro i hi
    have hni : ¬n ≤ i := by omega
    rw [hbit]
    simp [hni]
  have hhigh : (r ^^^ low) >>> n = r >>> n := by
    apply BitVec.eq_of_getLsbD_eq
    intro i _
    rw [BitVec.getLsbD_ushiftRight, BitVec.getLsbD_ushiftRight, hbit]
    simp
  have hr : r = low ^^^ (r ^^^ low) := by
    rw [BitVec.xor_comm r, ← BitVec.xor_assoc, BitVec.xor_self, BitVec.zero_xor]
  calc (shift poly)^[n] r = (shift poly)^[n] (low ^^^ (r ^^^ low)) := by rw [← hr]
    _ = (shift poly)^[n] low ^^^ (shift poly)^[n] (r ^^^ low) := iterate_xor poly n _ _
    _ = (shift poly)^[n] low ^^^ (r >>> n) := by
      rw [iterate_of_low_clear poly hclear, hhigh]

end NetLabs.Lib.Crc
