import Mathlib.Tactic

/-!
# `Lib.LittleEndian` — bytes, little-endian words, and byte buffers of a fixed size

Generic support, with no reference to any program. A word is assembled from a *byte function*
(`Nat → Byte`, least significant byte first), so that a byte buffer, a slice of one, and a flat
machine memory can all be read through the same `leWord`: two readers agree as soon as their byte
functions agree on the eight positions read.

Buffers are `Vector Byte n`. `store` overwrites a run of bytes, given again as a byte function; its
one characterising lemma is `byteAt_store`. `blockByte` is the byte function of a run of doublewords.
-/

namespace MinerTim

/-- An octet. -/
abbrev Byte := BitVec 8

/-- A 64-bit machine word. -/
abbrev Word := BitVec 64

/-- The little-endian value of the `n` bytes `b 0 … b (n-1)`, least significant first. -/
def leBits (b : Nat → Byte) : (n : Nat) → BitVec (8 * n)
  | 0 => 0
  | n + 1 => (b n ++ leBits b n).cast (by omega)

/-- The 64-bit word with bytes `b 0 … b 7`. -/
def leWord (b : Nat → Byte) : Word := leBits b 8

/-- The 32-bit word with bytes `b 0 … b 3`. -/
def leWord32 (b : Nat → Byte) : BitVec 32 := leBits b 4

/-- Byte `k` of a word, counted from the least significant end. -/
def byteOf {w : Nat} (v : BitVec w) (k : Nat) : Byte := v.extractLsb' (8 * k) 8

/-- Bit `i` of an assembled value is bit `i % 8` of byte `i / 8`. -/
theorem getLsbD_leBits (b : Nat → Byte) (n i : Nat) :
    (leBits b n).getLsbD i = (decide (i < 8 * n) && (b (i / 8)).getLsbD (i % 8)) := by
  induction n with
  | zero => simp [leBits]
  | succ n ih =>
    rw [leBits, BitVec.getLsbD_cast, BitVec.getLsbD_append, ih]
    by_cases h : i < 8 * n
    · simp [h, show i < 8 * (n + 1) by omega]
    · by_cases h' : i < 8 * (n + 1)
      · rw [if_neg h, show i / 8 = n by omega, show i % 8 = i - 8 * n by omega]
        simp [h']
      · rw [if_neg h, BitVec.getLsbD_of_ge _ _ (by omega)]
        simp [h']

theorem leBits_congr {b b' : Nat → Byte} {n : Nat} (h : ∀ k < n, b k = b' k) :
    leBits b n = leBits b' n := by
  apply BitVec.eq_of_getLsbD_eq
  intro i hi
  rw [getLsbD_leBits, getLsbD_leBits, h (i / 8) (by omega)]

/-- Assembling a value from its own bytes gives the value back. -/
theorem leBits_byteOf {n : Nat} (v : BitVec (8 * n)) : leBits (byteOf v) n = v := by
  apply BitVec.eq_of_getLsbD_eq
  intro i hi
  rw [getLsbD_leBits, byteOf, BitVec.getLsbD_extractLsb', show 8 * (i / 8) + i % 8 = i by omega]
  simp [hi, show i % 8 < 8 by omega]

/-- Byte `k` of an assembled value is the byte it was assembled from. -/
theorem byteOf_leBits (b : Nat → Byte) {n k : Nat} (hk : k < n) : byteOf (leBits b n) k = b k := by
  apply BitVec.eq_of_getLsbD_eq
  intro i hi
  rw [byteOf, BitVec.getLsbD_extractLsb', getLsbD_leBits, show (8 * k + i) / 8 = k by omega,
    show (8 * k + i) % 8 = i by omega]
  simp [hi, show 8 * k + i < 8 * n by omega]

theorem leWord_congr {b b' : Nat → Byte} (h : ∀ k < 8, b k = b' k) : leWord b = leWord b' :=
  leBits_congr h

theorem leWord32_congr {b b' : Nat → Byte} (h : ∀ k < 4, b k = b' k) :
    leWord32 b = leWord32 b' :=
  leBits_congr h

@[simp] theorem leWord_byteOf (v : Word) : leWord (byteOf v) = v := leBits_byteOf (n := 8) v

/-! ## Byte buffers -/

variable {n : Nat}

/-- The byte at index `i`, and zero past the end. -/
def byteAt (v : Vector Byte n) (i : Nat) : Byte := v[i]?.getD 0

theorem byteAt_eq_getElem (v : Vector Byte n) {i : Nat} (h : i < n) : byteAt v i = v[i] := by
  simp [byteAt, h]

/-- Two buffers with the same bytes are the same buffer. -/
theorem eq_of_byteAt {v w : Vector Byte n} (h : ∀ i < n, byteAt v i = byteAt w i) : v = w := by
  apply Vector.ext
  intro i hi
  rw [← byteAt_eq_getElem v hi, ← byteAt_eq_getElem w hi]
  exact h i hi

/-- Overwrite the `len` bytes from `off` with `b 0, b 1, …`. -/
def store (v : Vector Byte n) (off len : Nat) (b : Nat → Byte) : Vector Byte n :=
  Vector.ofFn fun i => if off ≤ i ∧ i < off + len then b (i - off) else v[i]

theorem byteAt_store (v : Vector Byte n) (off len : Nat) (b : Nat → Byte) {i : Nat} (h : i < n) :
    byteAt (store v off len b) i
      = if off ≤ i ∧ i < off + len then b (i - off) else byteAt v i := by
  rw [byteAt_eq_getElem _ h, byteAt_eq_getElem _ h]
  simp [store]

/-! ## Blocks of doublewords -/

theorem store_zero (v : Vector Byte n) (off : Nat) (b : Nat → Byte) :
    store v off 0 b = v := by
  refine eq_of_byteAt fun i hi => ?_
  rw [byteAt_store _ _ _ _ hi, if_neg (by omega)]

/-- Byte `k` of a block of doublewords. -/
def blockByte (w : Nat → Word) (k : Nat) : Byte := byteOf (w (k / 8)) (k % 8)

/-- A doubleword of a block. -/
theorem leWord_blockByte (w : Nat → Word) (i : Nat) : leWord (fun k => blockByte w (8 * i + k)) = w i := by
  rw [← leWord_byteOf (w i)]
  apply leWord_congr
  intro k hk
  rw [blockByte, show (8 * i + k) / 8 = i by omega, show (8 * i + k) % 8 = k by omega]

/-- Storing one more doubleword of a block. -/
theorem store_blockByte (v : Vector Byte n) (off i : Nat) (w : Nat → Word) :
    store (store v off (8 * i) (blockByte w)) (off + 8 * i) 8 (byteOf (w i))
      = store v off (8 * (i + 1)) (blockByte w) := by
  refine eq_of_byteAt fun k hk => ?_
  rw [byteAt_store _ _ _ _ hk, byteAt_store _ _ _ _ hk, byteAt_store _ _ _ _ hk]
  by_cases h : off + 8 * i ≤ k ∧ k < off + 8 * i + 8
  · rw [if_pos h, if_pos (by omega), blockByte, show (k - off) / 8 = i by omega,
      show (k - off) % 8 = k - (off + 8 * i) by omega]
  · rw [if_neg h]
    by_cases h' : off ≤ k ∧ k < off + 8 * i
    · rw [if_pos h', if_pos (by omega)]
    · rw [if_neg h', if_neg (by omega)]

end MinerTim
