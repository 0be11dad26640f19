import Mathlib.Data.List.Basic
import Mathlib.Tactic.Common
import Mathlib.Tactic.Ring

/-!
# Byte blocks

A block of memory is a list of bytes. `slice` reads from a block and `overwrite` is `memcpy`
into one: it never changes the block's length, bytes that would land past its end are
dropped. Machine words are stored as `leBytes`, least significant byte first; a big-endian
field is the reverse of that list.
-/

namespace NetLabs.Lib

/-- A byte, read as unsigned by `toNat` and as a signed `char` by `toInt`. -/
abbrev Byte := BitVec 8

namespace Bytes

variable {α : Type*}

/-! ## Reading and writing a block -/

/-- The `n` bytes of `l` from offset `off` on (fewer if the block ends before). -/
def slice (l : List α) (off n : ℕ) : List α := (l.drop off).take n

/-- `l` with the bytes from offset `off` on replaced by `bs`. -/
def overwrite (l : List α) (off : ℕ) (bs : List α) : List α :=
  (l.take off ++ bs ++ l.drop (off + bs.length)).take l.length

@[simp] lemma length_slice (l : List α) (off n : ℕ) :
    (slice l off n).length = min n (l.length - off) := by
  simp [slice]

@[simp] lemma length_overwrite (l : List α) (off : ℕ) (bs : List α) :
    (overwrite l off bs).length = l.length := by
  simp only [overwrite, List.length_take, List.length_append, List.length_drop]
  omega

lemma getElem?_slice (l : List α) (off n i : ℕ) :
    (slice l off n)[i]? = if i < n then l[off + i]? else none := by
  simp only [slice, List.getElem?_take, List.getElem?_drop]

lemma getElem?_overwrite (l : List α) (off : ℕ) (bs : List α) (i : ℕ) :
    (overwrite l off bs)[i]? =
      if off ≤ i ∧ i < off + bs.length ∧ i < l.length then bs[i - off]? else l[i]? := by
  rcases Nat.lt_or_ge i l.length with hl | hl
  · have hfront : (l.take off).length = min off l.length := List.length_take
    rw [overwrite, List.getElem?_take, if_pos hl]
    rcases Nat.lt_or_ge i off with h1 | h1
    · -- before the written bytes
      rw [if_neg (by omega), List.append_assoc, List.getElem?_append_left (by omega),
        List.getElem?_take, if_pos h1]
    · rcases Nat.lt_or_ge i (off + bs.length) with h2 | h2
      · rw [if_pos ⟨h1, h2, hl⟩, List.append_assoc, List.getElem?_append_right (by omega),
          List.getElem?_append_left (by omega), show (l.take off).length = off by omega]
      · -- behind the written bytes
        rw [if_neg (by omega), List.getElem?_append_right (by rw [List.length_append]; omega),
          List.getElem?_drop, List.length_append, show (l.take off).length = off by omega,
          show off + bs.length + (i - (off + bs.length)) = i by omega]
  · rw [if_neg (by omega), List.getElem?_eq_none (by rw [length_overwrite]; omega),
      List.getElem?_eq_none hl]

/-- Reading inside the bytes just written. -/
lemma slice_overwrite_within (l : List α) {off o n : ℕ} {bs : List α} (ho : off ≤ o)
    (hn : o + n ≤ off + bs.length) (hl : off + bs.length ≤ l.length) :
    slice (overwrite l off bs) o n = slice bs (o - off) n := by
  apply List.ext_getElem?
  intro i
  rw [getElem?_slice, getElem?_slice, getElem?_overwrite]
  by_cases hi : i < n
  · rw [if_pos hi, if_pos hi, if_pos (by omega), show o + i - off = o - off + i by omega]
  · rw [if_neg hi, if_neg hi]

/-- Reading beside the bytes just written. -/
lemma slice_overwrite_disjoint (l : List α) {off o n : ℕ} {bs : List α}
    (h : o + n ≤ off ∨ off + bs.length ≤ o) :
    slice (overwrite l off bs) o n = slice l o n := by
  apply List.ext_getElem?
  intro i
  rw [getElem?_slice, getElem?_slice, getElem?_overwrite]
  by_cases hi : i < n
  · rw [if_pos hi, if_pos hi, if_neg (by omega)]
  · rw [if_neg hi, if_neg hi]

/-- Reading exactly the bytes just written. -/
lemma slice_overwrite_self (l : List α) {off n : ℕ} {bs : List α} (hn : bs.length = n)
    (hl : off + n ≤ l.length) : slice (overwrite l off bs) off n = bs := by
  rw [slice_overwrite_within l (le_refl off) (by omega) (by omega), Nat.sub_self]
  simp [slice, ← hn]

lemma slice_slice (l : List α) {o n off k : ℕ} (h : o + n ≤ k) :
    slice (slice l off k) o n = slice l (off + o) n := by
  apply List.ext_getElem?
  intro i
  rw [getElem?_slice, getElem?_slice, getElem?_slice]
  by_cases hi : i < n
  · rw [if_pos hi, if_pos hi, if_pos (by omega), show off + (o + i) = off + o + i by omega]
  · rw [if_neg hi, if_neg hi]

/-- Appending to a written front: `memcpy` right behind the first `off` bytes. -/
lemma take_overwrite (l : List α) {off : ℕ} {bs : List α} (hl : off + bs.length ≤ l.length) :
    (overwrite l off bs).take (off + bs.length) = l.take off ++ bs := by
  have hlen : (l.take off ++ bs).length = off + bs.length := by
    rw [List.length_append, List.length_take]; omega
  rw [overwrite, List.take_take, Nat.min_eq_left hl, List.take_append_of_le_length (by omega),
    List.take_of_length_le (by omega)]

/-- `take_overwrite` with the end of the written bytes given by its value. -/
lemma take_overwrite_of_eq (l : List α) {off stop : ℕ} {bs : List α}
    (hstop : off + bs.length = stop) (hl : stop ≤ l.length) :
    (overwrite l off bs).take stop = l.take off ++ bs := by
  subst hstop
  exact take_overwrite l hl

/-! ## Words in memory -/

/-- The low `n` bytes of `v`, least significant first. -/
def leBytes : ℕ → ℕ → List Byte
  | 0, _ => []
  | n + 1, v => BitVec.ofNat 8 v :: leBytes n (v / 256)

/-- The value of a little-endian byte string. -/
def ofLeBytes : List Byte → ℕ
  | [] => 0
  | b :: bs => b.toNat + 256 * ofLeBytes bs

@[simp] lemma leBytes_zero (v : ℕ) : leBytes 0 v = [] := rfl

/-- The bytes of a machine word, the low one split off. -/
lemma leBytes_toNat_succ {w : ℕ} (x : BitVec w) (n : ℕ) :
    leBytes (n + 1) x.toNat = x.setWidth 8 :: leBytes n (x >>> 8).toNat := by
  rw [leBytes, BitVec.ofNat_toNat, BitVec.toNat_ushiftRight, Nat.shiftRight_eq_div_pow]

@[simp] lemma length_leBytes (n v : ℕ) : (leBytes n v).length = n := by
  induction n generalizing v with
  | zero => rfl
  | succ n ih => rw [leBytes, List.length_cons, ih]

/-- Storing a word and reading it back keeps its low `n` bytes. -/
theorem ofLeBytes_leBytes (n v : ℕ) : ofLeBytes (leBytes n v) = v % 256 ^ n := by
  induction n generalizing v with
  | zero => simp [leBytes, ofLeBytes, Nat.mod_one]
  | succ n ih =>
    rw [leBytes, ofLeBytes, ih, BitVec.toNat_ofNat, pow_succ 256 n, Nat.mul_comm (256 ^ n) 256,
      Nat.mod_mul]

/-- The low `n` bytes of `v` in network byte order, most significant first. -/
def beBytes (n v : ℕ) : List Byte := (leBytes n v).reverse

/-- The value of a byte string in network byte order. -/
def ofBeBytes (bs : List Byte) : ℕ := ofLeBytes bs.reverse

theorem ofBeBytes_beBytes (n v : ℕ) : ofBeBytes (beBytes n v) = v % 256 ^ n := by
  rw [ofBeBytes, beBytes, List.reverse_reverse, ofLeBytes_leBytes]

/-- A two-byte word stored in host order and read in network order has its bytes exchanged. -/
lemma ofBeBytes_leBytes_two {v : ℕ} (hv : v < 65536) :
    ofBeBytes (leBytes 2 v) = 256 * (v % 256) + v / 256 := by
  have hhi : v / 256 % 256 = v / 256 := Nat.mod_eq_of_lt (by omega)
  simp only [ofBeBytes, leBytes, List.reverse_cons, List.reverse_nil, List.nil_append,
    List.cons_append, ofLeBytes, BitVec.toNat_ofNat, Nat.reducePow, hhi]
  omega

/-- The four bytes of a 32-bit `int`. -/
def intBytes (v : ℤ) : List Byte := leBytes 4 (BitVec.ofInt 32 v).toNat

/-- The word in four bytes. -/
def readWord (bs : List Byte) : BitVec 32 := BitVec.ofNat 32 (ofLeBytes bs)

/-- The `int` in four bytes. -/
def readInt (bs : List Byte) : ℤ := (readWord bs).toInt

@[simp] lemma length_intBytes (v : ℤ) : (intBytes v).length = 4 := length_leBytes _ _

@[simp] lemma readWord_leBytes (w : BitVec 32) : readWord (leBytes 4 w.toNat) = w := by
  apply BitVec.eq_of_toNat_eq
  rw [readWord, ofLeBytes_leBytes, BitVec.toNat_ofNat]
  have := w.isLt
  omega

@[simp] lemma readWord_intBytes (v : ℤ) : readWord (intBytes v) = BitVec.ofInt 32 v :=
  readWord_leBytes _

lemma toInt_ofInt32 {v : ℤ} (hlo : -2 ^ 31 ≤ v) (hhi : v < 2 ^ 31) :
    (BitVec.ofInt 32 v).toInt = v := by
  rw [BitVec.toInt_ofInt]
  exact Int.bmod_eq_of_le (by norm_num at hlo ⊢; omega) (by norm_num at hhi ⊢; omega)

/-- An `int` in range survives the trip through memory. -/
lemma readInt_intBytes {v : ℤ} (hlo : -2 ^ 31 ≤ v) (hhi : v < 2 ^ 31) :
    readInt (intBytes v) = v := by
  rw [readInt, readWord_intBytes, toInt_ofInt32 hlo hhi]

lemma readInt_lt (bs : List Byte) : readInt bs < 2 ^ 31 := by
  have := (readWord bs).toInt_lt
  simpa [readInt] using this

end Bytes
end NetLabs.Lib
