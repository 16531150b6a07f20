import MinerTim.Lib.Yields
import MinerTim.RandomX.Argon2d

/-!
# `RandomX.Argon2dSpec` — the cache is the matrix of Argon2d

The memory after `n` blocks holds the last `4 * s` blocks of the sequence of `Lib.Argon2`, each in its column, and
the log says how they were made (`Filled`). A step of the loop keeps that for the next block (`yields_fillStep`),
and a segment, a slice, a pass and the whole fill follow by the loop rule. All of it is for a memory of any content,
whose first two blocks are the ones the sequence starts with.

No `u32` operation overflows where `7 * s` fits (`Fits`): the largest sum is a start position `3 * s` and a
relative position below `4 * s`.
-/

namespace MinerTim
namespace RandomX
namespace Argon2d

open Blake2 (Work applyQuad)
open Argon2 (Block gather scatter)
open Blake2b (blake2b)

/-! ## Compression -/

theorem fBlaMka_eq : fBlaMka = Argon2.multiplyAdd := by
  have htrunc : ∀ x : Word, x &&& 0xFFFFFFFF = Argon2.trunc x := by
    intro x
    apply BitVec.eq_of_toNat_eq
    rw [BitVec.toNat_and, show (0xFFFFFFFF : Word).toNat = 2 ^ 32 - 1 from rfl, Nat.and_two_pow_sub_one_eq_mod,
      Argon2.trunc, BitVec.toNat_setWidth_of_le (by decide), BitVec.toNat_setWidth]
  funext x y
  simp only [fBlaMka, Argon2.multiplyAdd, htrunc, BitVec.mul_assoc]

theorem gBlamka_eq (v : Work) {a b c d : Index} (h : [a, b, c, d].Nodup) : gBlamka v a b c d
    = applyQuad (Blake2.mixWith Argon2.multiplyAdd Argon2.multiplyAdd Argon2.multiplyAdd) v a b c d := by
  rw [← fBlaMka_eq]
  exact Blake2.applyQuad_mixWith fBlaMka fBlaMka fBlaMka v h

/-- The round is the permutation. -/
theorem blake2RoundNomsg_eq : blake2RoundNomsg = Argon2.P := by
  funext v
  rw [Argon2.P, ← Blake2.round_eq]
  simp only [blake2RoundNomsg]
  rw [gBlamka_eq v (by decide), gBlamka_eq _ (by decide), gBlamka_eq _ (by decide), gBlamka_eq _ (by decide),
    gBlamka_eq _ (by decide), gBlamka_eq _ (by decide), gBlamka_eq _ (by decide), gBlamka_eq _ (by decide)]

/-- The first loop works on the rows. -/
theorem contiguous_eq : contiguous = Argon2.rows.word := by
  funext i j
  exact Fin.ext (Nat.add_comm (16 * i) j)

/-- The second loop works on the columns. -/
theorem strided_eq : strided = Argon2.columns.word := by
  have hoffset : ∀ j : Fin 16, ((#v[0, 1, 16, 17, 32, 33, 48, 49, 64, 65, 80, 81, 96, 97, 112, 113] :
      Vector (Fin 114) 16)[j]).val = 16 * (j / 2) + j % 2 := by decide
  funext i j
  apply Fin.ext
  simp only [strided, Argon2.columns, hoffset]
  omega

theorem xorWith_comm (x y : Block) : xorWith x y = xorWith y x := by
  unfold xorWith
  simp only [BitVec.xor_comm]

theorem getElem_xorWith (x y : Block) {k : Nat} (hk : k < 128) : (xorWith x y)[k] = x[k] ^^^ y[k] :=
  Vector.getElem_ofFn hk

/-- The XOR of three blocks in two orders. -/
theorem xorWith_right_comm (x y z : Block) : xorWith (xorWith x y) z = xorWith (xorWith x z) y := by
  apply Vector.ext
  intro k hk
  simp only [getElem_xorWith, BitVec.xor_assoc, BitVec.xor_comm y[k]]

/-- **`fill_block` is the compression function**, XORed over the old block if asked to. -/
theorem fillBlock_eq (prev ref next : Block) (withXor : Bool) : fillBlock prev ref next withXor
    = if withXor then Argon2.xorBlock (Argon2.G prev ref) next else Argon2.G prev ref := by
  have hG : xorWith (xorWith ref prev) (Argon2.columns.map Argon2.P (Argon2.rows.map Argon2.P (xorWith ref prev)))
      = Argon2.G prev ref := by
    rw [xorWith_comm ref prev, xorWith_comm]
    rfl
  unfold fillBlock
  rw [blake2RoundNomsg_eq, contiguous_eq, strided_eq]
  dsimp only
  rw [Argon2.columns.foldl_eq_map, Argon2.rows.foldl_eq_map]
  cases withXor with
  | false => exact hG
  | true =>
    rw [if_pos rfl, if_pos rfl, ← hG]
    exact xorWith_right_comm _ _ _

/-! ## The variable-length hash -/

/-- The hash function under Argon2. -/
def H (length : Nat) (message : List Byte) : List Byte := Blake2.blake2b length [] message

theorem length_H (length : Nat) (message : List Byte) : (H length message).length = length := by
  simp [H, Blake2.blake2b]

theorem blake2b_eq {outLen : Nat} (hout : 1 ≤ outLen ∧ outLen ≤ 64) (input : List Byte) :
    blake2b outLen input = some (H outLen input) :=
  @Blake2b.blake2bFull_eq_spec outLen hout [] (Nat.zero_le 64) input

/-- The loop of `blake2b_long`, after the first `i + 1` blocks. -/
theorem extend_eq {length : Nat} (a : List Byte) {i : Nat} (hi : i < (length + 31) / 32 - 2) :
    extend (length - 32 * (i + 1)) (Argon2.hashChain H length a i)
        ((List.range (i + 1)).flatMap fun i => (Argon2.hashChain H length a i).take 32)
      = some (Argon2.hashLong H length a) := by
  induction hk : (length + 31) / 32 - 3 - i generalizing i with
  | zero =>
    have hlast : i = (length + 31) / 32 - 2 - 1 := by omega
    have hr : i + 1 = (length + 31) / 32 - 2 := by omega
    unfold extend Argon2.hashLong
    have hout : 1 ≤ length - 32 * (i + 1) ∧ length - 32 * (i + 1) ≤ 64 := by omega
    rw [if_neg (by omega), if_neg (by omega), blake2b_eq hout, ← hr]
    rfl
  | succ k ih =>
    unfold extend
    rw [if_pos (by omega), blake2b_eq (show 1 ≤ 64 ∧ 64 ≤ 64 by decide)]
    have hnext := @ih (i + 1) (by omega) (by omega)
    rw [List.range_succ, List.flatMap_append, List.flatMap_singleton] at hnext
    exact hnext

/-- **`blake2b_long` is the variable-length hash.** -/
theorem blake2bLong_eq {outLen : Nat} (hout : 1 ≤ outLen) (input : List Byte) :
    blake2bLong outLen input = some (Argon2.hashLong H outLen input) := by
  unfold blake2bLong
  by_cases h : outLen ≤ 64
  · rw [if_pos h, blake2b_eq ⟨hout, h⟩, Argon2.hashLong, if_pos h]
    rfl
  · rw [if_neg h, blake2b_eq (show 1 ≤ 64 ∧ 64 ≤ 64 by decide)]
    have hrun := @extend_eq outLen input 0 (by omega)
    rw [List.range_one, List.flatMap_singleton] at hrun
    exact hrun

theorem length_hashChain (length : Nat) (a : List Byte) (i : Nat) : (Argon2.hashChain H length a i).length = 64 := by
  cases i with
  | zero => exact length_H 64 _
  | succ i => exact length_H 64 _

theorem length_hashLong (length : Nat) (a : List Byte) : (Argon2.hashLong H length a).length = length := by
  unfold Argon2.hashLong
  by_cases h : length ≤ 64
  · rw [if_pos h, length_H]
  · rw [if_neg h, List.length_append, length_H, List.length_flatMap]
    have hsum : ((List.range ((length + 31) / 32 - 2)).map
        fun i => ((Argon2.hashChain H length a i).take 32).length).sum = 32 * ((length + 31) / 32 - 2) := by
      simp [length_hashChain, Nat.mul_comm]
    rw [hsum]
    omega

/-- **`blake2b_long` returns the tag of `H'`**, of the length asked for, for every length its prefix can
    hold. -/
theorem blake2b_long_is_variable_length_hash {outLen : Nat} (hout : 1 ≤ outLen ∧ outLen < 2 ^ 32)
    (input : List Byte) :
    ∃ tag, blake2bLong outLen input = some tag ∧ tag.length = outLen
      ∧ tag = Argon2.hashLong (fun length => Blake2.blake2b length []) outLen input :=
  ⟨_, blake2bLong_eq hout.1 input, length_hashLong outLen input, rfl⟩

/-- The block of `fill_first_blocks`, and a length that is no multiple of 32. -/
theorem blake2b_long_is_variable_length_hash_lengths :
    (∃ tag, blake2bLong 1024 [] = some tag ∧ tag.length = 1024
        ∧ tag = Argon2.hashLong (fun length => Blake2.blake2b length []) 1024 [])
      ∧ ∃ tag, blake2bLong 97 [1] = some tag ∧ tag.length = 97
        ∧ tag = Argon2.hashLong (fun length => Blake2.blake2b length []) 97 [1] :=
  ⟨blake2b_long_is_variable_length_hash (by decide) [],
    blake2b_long_is_variable_length_hash (by decide) [1]⟩

theorem loadFromBytes_eq {bytes : List Byte} (h : bytes.length = 1024) :
    loadFromBytes bytes = some (Argon2.blockOfBytes bytes) := by
  unfold loadFromBytes Argon2.blockOfBytes
  rw [if_pos (show ARGON2_BLOCK_SIZE ≤ bytes.length from Nat.le_of_eq h.symm)]
  simp only [Nat.mul_comm]

/-! ## Where the reference block is -/

theorem u32_eq {x : Nat} (h : x < 2 ^ 32) : u32 x = some x := if_pos h

/-- No start position and relative position overflow. -/
def Fits (s : Nat) : Prop := 7 * s ≤ 2 ^ 32 + 2

/-- Block `n` is the one at `i` in a slice of a pass. -/
structure Position (s n pass slice i : Nat) : Prop where
  slice_lt : slice < 4
  i_lt : i < s
  eq : n = pass * (4 * s) + (slice * s + i)

namespace Position

variable {s n pass slice i : Nat} (h : Position s n pass slice i)
include h

theorem slice_mul_le : slice * s ≤ 3 * s := Nat.mul_le_mul_right s (Nat.le_of_lt_succ h.slice_lt)

theorem offset_lt : slice * s + i < 4 * s := by
  have hle := h.slice_mul_le
  have hi := h.i_lt
  omega

theorem mod_lane : n % (4 * s) = slice * s + i := by
  rw [h.eq, Nat.mul_comm, Nat.mul_add_mod, Nat.mod_eq_of_lt h.offset_lt]

theorem div_lane : n / (4 * s) = pass := by
  have hpos : 0 < 4 * s := Nat.zero_lt_of_lt h.offset_lt
  rw [h.eq, Nat.mul_comm, Nat.mul_add_div hpos, Nat.div_eq_of_lt h.offset_lt, Nat.add_zero]

theorem div_segment : n % (4 * s) / s = slice := by
  have hpos : 0 < s := Nat.zero_lt_of_lt h.i_lt
  rw [h.mod_lane, Nat.mul_comm, Nat.mul_add_div hpos, Nat.div_eq_of_lt h.i_lt, Nat.add_zero]

theorem mod_segment : n % s = i := by
  rw [← Nat.mod_mul_left_mod n 4 s, h.mod_lane, Nat.mul_comm, Nat.mul_add_mod, Nat.mod_eq_of_lt h.i_lt]

/-- In the first pass the window starts at block 0. -/
theorem windowStart_first (hpass : pass = 0) : Argon2.windowStart s n = 0 := by
  have hle := h.slice_mul_le
  have heq := h.eq
  rw [hpass, Nat.zero_mul] at heq
  rw [Argon2.windowStart, h.mod_segment]
  omega

/-- In a later pass it starts behind the current segment, which is three segments back. -/
theorem windowStart_later (hpass : pass ≠ 0) : Argon2.windowStart s n + 3 * s = pass * (4 * s) + slice * s := by
  have hle : 1 * (4 * s) ≤ pass * (4 * s) := Nat.mul_le_mul_right _ (Nat.pos_of_ne_zero hpass)
  have heq := h.eq
  rw [Argon2.windowStart, h.mod_segment]
  omega

theorem area_lt (hn : 2 ≤ n) : n - 1 - Argon2.windowStart s n + 2 ≤ 4 * s := by
  have hi := h.i_lt
  have hle := h.slice_mul_le
  have heq := h.eq
  by_cases hpass : pass = 0
  · rw [h.windowStart_first hpass]
    rw [hpass, Nat.zero_mul] at heq
    omega
  · have hstart := h.windowStart_later hpass
    omega

theorem referenceAreaSize_eq (hn : 2 ≤ n) (hs : 4 * s < 2 ^ 32) :
    referenceAreaSize pass slice i true (4 * s) s = some (n - 1 - Argon2.windowStart s n) := by
  have hle := h.slice_mul_le
  have hlt := h.offset_lt
  have hi := h.i_lt
  have heq := h.eq
  -- the first pass sees what is filled so far, the later ones three slices and the current segment
  by_cases hpass : pass = 0
  · rw [h.windowStart_first hpass]
    rw [hpass, Nat.zero_mul] at heq
    by_cases hslice : slice = 0
    · rw [hslice, Nat.zero_mul] at heq
      simp only [referenceAreaSize, if_pos hpass, if_pos hslice, subU32]
      rw [if_pos (by omega)]
      simp only [Option.some.injEq]
      omega
    · simp only [referenceAreaSize, if_pos hpass, if_neg hslice, if_true, subU32, u32]
      rw [if_pos (show slice * s < 2 ^ 32 by omega)]
      simp only [Option.bind_eq_bind, Option.bind_some]
      rw [if_pos (show slice * s + i < 2 ^ 32 by omega)]
      simp only [Option.bind_some]
      rw [if_pos (by omega)]
      simp only [Option.some.injEq]
      omega
  · have hstart := h.windowStart_later hpass
    simp only [referenceAreaSize, if_neg hpass, if_true, subU32, u32]
    rw [if_pos (show s ≤ 4 * s by omega)]
    simp only [Option.bind_eq_bind, Option.bind_some]
    rw [if_pos (show 4 * s - s + i < 2 ^ 32 by omega)]
    simp only [Option.bind_some]
    rw [if_pos (by omega)]
    simp only [Option.some.injEq]
    omega

theorem exists_startPosition (hs : 4 * s < 2 ^ 32) : ∃ start, startPosition pass slice s = some start ∧
    start ≤ 3 * s ∧ start % (4 * s) = Argon2.windowStart s n % (4 * s) := by
  by_cases hpass : pass = 0
  · refine ⟨0, ?_, by omega, ?_⟩
    · simp only [startPosition, ne_eq, hpass, not_true_eq_false, if_false]
    · rw [h.windowStart_first hpass]
  · have hstart := h.windowStart_later hpass
    have hle := h.slice_mul_le
    by_cases hslice : slice = 3
    · refine ⟨0, ?_, by omega, ?_⟩
      · simp only [startPosition, ARGON2_SYNC_POINTS, ne_eq, hpass, not_false_eq_true, if_true, hslice]
      · rw [hslice] at hstart
        rw [show Argon2.windowStart s n = pass * (4 * s) by omega, Nat.mul_mod_left, Nat.zero_mod]
    · have hslice3 := h.slice_lt
      have hnext : (slice + 1) * s ≤ 3 * s := Nat.mul_le_mul_right s (by omega)
      refine ⟨(slice + 1) * s, ?_, hnext, ?_⟩
      · simp only [startPosition, ARGON2_SYNC_POINTS, ne_eq, hpass, not_false_eq_true, if_true, hslice,
          if_false, u32]
        rw [if_pos (by omega)]
        simp only [Option.bind_eq_bind, Option.bind_some]
        rw [if_pos (by omega)]
      · obtain ⟨p, rfl⟩ := Nat.exists_eq_succ_of_ne_zero hpass
        have hback : Argon2.windowStart s n = 4 * s * p + (slice + 1) * s := by
          rw [Nat.succ_mul p, Nat.mul_comm p] at hstart
          rw [Nat.succ_mul slice]
          omega
        rw [hback, Nat.mul_add_mod]

end Position

/-- The mapping of `J1` into the window. -/
theorem relativePosition_toNat {area : Nat} (hpos : 0 < area) (harea : area < 2 ^ 32) (J : BitVec 32) :
    (relativePosition J area).toNat = area - 1 - area * (J.toNat * J.toNat / 2 ^ 32) / 2 ^ 32 := by
  have hJ := J.isLt
  have hlt := Argon2.scaled_lt hpos hJ
  have hsq : J.toNat * J.toNat / 2 ^ 32 < 2 ^ 32 := by
    rw [Nat.div_lt_iff_lt_mul (by decide)]
    exact Nat.mul_lt_mul'' hJ hJ
  have hrp : ((J.setWidth 64 * J.setWidth 64) >>> 32 : Word).toNat = J.toNat * J.toNat / 2 ^ 32 := by
    have hmul : J.toNat * J.toNat < 2 ^ 64 := Nat.lt_of_lt_of_eq (Nat.mul_lt_mul'' hJ hJ) (by decide)
    rw [BitVec.toNat_ushiftRight, Nat.shiftRight_eq_div_pow, BitVec.toNat_mul,
      BitVec.toNat_setWidth_of_le (by decide), Nat.mod_eq_of_lt hmul]
  have hscaled : ((BitVec.ofNat 64 area * (J.setWidth 64 * J.setWidth 64) >>> 32) >>> 32 : Word).toNat
      = area * (J.toNat * J.toNat / 2 ^ 32) / 2 ^ 32 := by
    have hmul : area * (J.toNat * J.toNat / 2 ^ 32) < 2 ^ 64 :=
      Nat.lt_of_lt_of_eq (Nat.mul_lt_mul'' harea hsq) (by decide)
    rw [BitVec.toNat_ushiftRight, Nat.shiftRight_eq_div_pow, BitVec.toNat_mul, hrp, BitVec.toNat_ofNat,
      Nat.mod_eq_of_lt (show area < 2 ^ 64 by omega), Nat.mod_eq_of_lt hmul]
  simp only [relativePosition]
  rw [BitVec.toNat_setWidth, BitVec.toNat_sub, BitVec.toNat_sub, hscaled, BitVec.toNat_ofNat,
    show (1 : Word).toNat = 1 from rfl]
  omega

/-- **`index_alpha` is the column of the reference block.** -/
theorem yields_indexAlpha {s n pass slice i : Nat} (h : Position s n pass slice i) (hn : 2 ≤ n)
    (hs : 4 * s < 2 ^ 32) (J : BitVec 32) :
    Yields (Fits s) (· = Argon2.reference s n J.toNat % (4 * s)) (indexAlpha pass slice i J true (4 * s) s) := by
  have hpos : 0 < s := Nat.zero_lt_of_lt h.i_lt
  have hwindow := Argon2.windowStart_le hpos hn
  have harea := h.area_lt hn
  obtain ⟨start, hstart, hle, hmod⟩ := h.exists_startPosition hs
  have hrel := @relativePosition_toNat (n - 1 - Argon2.windowStart s n) (by omega) (by omega) J
  refine Yields.bind_some (h.referenceAreaSize_eq hn hs) (Yields.bind_some hstart ?_)
  rw [hrel, Argon2.reference_eq hpos hn, u32]
  split
  · refine Yields.bind_some rfl ?_
    rw [if_neg (by omega)]
    show (_ : Nat) % _ = _
    rw [Nat.add_mod, hmod, ← Nat.add_mod]
  · intro hfits
    unfold Fits at hfits
    omega

/-! ## Filling -/

section

variable (first : Nat → Block) (s : Nat)

/-- What is read and written to make block `n`. -/
def access (n : Nat) : Access where
  pass := n / (4 * s)
  slice := n % (4 * s) / s
  index := n % s
  curr := n % (4 * s)
  prev := (n - 1) % (4 * s)
  ref := Argon2.reference s n (Argon2.j1 (Argon2.block first s (n - 1))) % (4 * s)

/-- **The memory after `n` blocks.** -/
structure Filled (n : Nat) (memory : Memory) : Prop where
  size : memory.blocks.size = 4 * s
  block : ∀ m < n, n ≤ m + 4 * s → memory.blocks[m % (4 * s)]? = some (Argon2.block first s m)
  log : memory.log = (List.range' 2 (n - 2)).map (access first s)

/-- The loop at block `n`; the previous offset is corrected at offset 1. -/
structure Cursor (n offset : Nat) (st : Filling) : Prop where
  filled : Filled first s n st.memory
  curr : st.currOffset = offset
  prev : offset = 1 ∨ st.prevOffset = (n - 1) % (4 * s)

end

variable {first : Nat → Block} {s n pass slice i : Nat}

/-- Two of `q` successive numbers are in different columns. -/
theorem mod_ne_mod {m n q : Nat} (hlt : m < n) (hq : n < m + q) : m % q ≠ n % q := by
  intro h
  have hsub := Nat.sub_mod_eq_zero_of_mod_eq h.symm
  rw [Nat.mod_eq_of_lt (by omega)] at hsub
  omega

/-- The column before, cyclically. -/
theorem prev_mod {q offset : Nat} (hlt : offset < q) (hn : 1 ≤ pass * q + offset) :
    (pass * q + offset - 1) % q = if offset = 0 then q - 1 else offset - 1 := by
  rw [Nat.mul_comm] at hn ⊢
  split
  next h0 =>
    have hpass : pass ≠ 0 := by
      rintro rfl
      omega
    obtain ⟨p, rfl⟩ := Nat.exists_eq_succ_of_ne_zero hpass
    rw [Nat.mul_succ, show q * p + q + offset - 1 = q * p + (q - 1) by omega, Nat.mul_add_mod,
      Nat.mod_eq_of_lt (by omega)]
  next h0 =>
    rw [show q * pass + offset - 1 = q * pass + (offset - 1) by omega, Nat.mul_add_mod, Nat.mod_eq_of_lt (by omega)]

theorem Position.prev_mod (h : Position s n pass slice i) (hn : 2 ≤ n) :
    (n - 1) % (4 * s) = if slice * s + i = 0 then 4 * s - 1 else slice * s + i - 1 := by
  obtain rfl := h.eq
  exact Argon2d.prev_mod h.offset_lt (by omega)

/-- The memory with the next block. -/
theorem Filled.next {memory : Memory} (hf : Filled first s n memory) (hs : 0 < s) (hn : 2 ≤ n) :
    Filled first s (n + 1) {
      blocks := memory.blocks.setIfInBounds (n % (4 * s)) (Argon2.block first s n)
      log := memory.log ++ [access first s n] } := by
  have hcol : n % (4 * s) < memory.blocks.size := by
    rw [hf.size]
    exact Nat.mod_lt n (by omega)
  refine ⟨?_, ?_, ?_⟩
  · rw [Array.size_setIfInBounds, hf.size]
  · intro m hm hlast
    by_cases hmn : m = n
    · rw [hmn, Array.getElem?_setIfInBounds_self_of_lt hcol]
    · rw [Array.getElem?_setIfInBounds_ne (mod_ne_mod (by omega) (by omega)).symm]
      exact hf.block m (by omega) (by omega)
  · rw [hf.log, show n + 1 - 2 = n - 2 + 1 by omega, List.range'_1_concat, List.map_append,
      show 2 + (n - 2) = n by omega]
    rfl

/-- The block that the loop makes is the next of the sequence. -/
theorem fillBlock_eq_block (h : Position s n pass slice i) (hn : 2 ≤ n) {old : Block}
    (hold : 4 * s ≤ n → old = Argon2.block first s (n - 4 * s)) :
    fillBlock (Argon2.block first s (n - 1)) (Argon2.block first s
      (Argon2.reference s n (Argon2.j1 (Argon2.block first s (n - 1))))) old (decide (0 < pass))
      = Argon2.block first s n := by
  have hpos : 0 < s := Nat.zero_lt_of_lt h.i_lt
  have hpass : 0 < pass ↔ 4 * s ≤ n := by
    rw [← h.div_lane, Nat.div_pos_iff]
    omega
  rw [fillBlock_eq, Argon2.block_eq hpos n, Argon2.nextBlock, if_neg (show ¬ n < 2 by omega)]
  by_cases hfirst : n < 4 * s
  · rw [if_pos hfirst, decide_eq_false (show ¬ 0 < pass by omega)]
    rfl
  · rw [if_neg hfirst, decide_eq_true (show 0 < pass by omega), hold (by omega)]
    rfl

/-- **The body of the loop makes the next block.** -/
theorem yields_fillStep (h : Position s n pass slice i) (hn : 2 ≤ n) (hs : 4 * s < 2 ^ 32) {st : Filling}
    (hc : Cursor first s n (slice * s + i) st) : Yields (Fits s) (Cursor first s (n + 1) (slice * s + (i + 1)))
      (fillStep pass 0 slice 1 (4 * s) s st i) := by
  obtain ⟨hf, hcurr, hprev⟩ := hc
  have hpos : 0 < s := Nat.zero_lt_of_lt h.i_lt
  have hlt := h.offset_lt
  have hprevmod := h.prev_mod hn
  have hprevlt : (n - 1) % (4 * s) < 4 * s := Nat.mod_lt _ (by omega)
  -- after the first block of a lane the previous offset is taken anew
  have hprevOffset : (if st.currOffset % (4 * s) = 1 then subU32 st.currOffset 1 else some st.prevOffset)
      = some ((n - 1) % (4 * s)) := by
    rw [hcurr, Nat.mod_eq_of_lt hlt]
    by_cases h1 : slice * s + i = 1
    · rw [if_pos h1, h1, hprevmod, if_neg (by omega), h1]
      rfl
    · rw [if_neg h1, hprev.resolve_left h1]
  have hprevBlock := hf.block (n - 1) (by omega) (by omega)
  unfold fillStep
  refine Yields.bind_some hprevOffset (Yields.bind_some hprevBlock ?_)
  -- there is one lane
  have hlane : ∀ x : BitVec 32, (if pass = 0 ∧ slice = 0 then 0 else x.toNat % 1) = 0 := by
    intro x
    rw [Nat.mod_one, ite_self]
  dsimp only
  rw [hlane]
  refine (yields_indexAlpha h hn hs _).bind fun ref hrefIndex => ?_
  obtain rfl : ref = Argon2.reference s n (Argon2.j1 (Argon2.block first s (n - 1))) % (4 * s) := hrefIndex
  have href := Argon2.reference_mem hpos hn (Argon2.j1 (Argon2.block first s (n - 1)))
  have harea := h.area_lt hn
  have hwindow := Argon2.windowStart_le hpos hn
  have hrefBlock := hf.block _ (show Argon2.reference s n (Argon2.j1 (Argon2.block first s (n - 1))) < n by omega)
    (by omega)
  have hreflt : Argon2.reference s n (Argon2.j1 (Argon2.block first s (n - 1))) % (4 * s) < 4 * s :=
    Nat.mod_lt _ (by omega)
  have hcurrlt : st.currOffset < st.memory.blocks.size := by
    rw [hf.size, hcurr]
    exact hlt
  -- what the block is written over is the block of one pass before
  have hold : 4 * s ≤ n → st.memory.blocks[st.currOffset] = Argon2.block first s (n - 4 * s) := by
    intro hle
    have hget := hf.block (n - 4 * s) (by omega) (by omega)
    rw [← Nat.mod_eq_sub_mod hle, h.mod_lane, ← hcurr, Array.getElem?_eq_getElem hcurrlt] at hget
    exact Option.some.inj hget
  refine Yields.bind_some (u32_eq (by omega)) (Yields.bind_some (u32_eq (by omega)) ?_)
  rw [Nat.zero_mul, Nat.zero_add]
  refine Yields.bind_some hrefBlock (Yields.bind_some (Array.getElem?_eq_getElem hcurrlt) ?_)
  refine Yields.bind_some (u32_eq (by omega)) (Yields.bind_some (u32_eq (by omega)) ?_)
  rw [fillBlock_eq_block h hn hold]
  refine ⟨?_, ?_, ?_⟩
  · have hnext := hf.next hpos hn
    rw [h.mod_lane, ← hcurr] at hnext
    have haccess : access first s n = ⟨pass, slice, i, st.currOffset, (n - 1) % (4 * s),
        Argon2.reference s n (Argon2.j1 (Argon2.block first s (n - 1))) % (4 * s)⟩ := by
      rw [access, h.div_lane, h.div_segment, h.mod_segment, h.mod_lane, hcurr]
    rw [haccess] at hnext
    exact hnext
  · exact congrArg (· + 1) hcurr
  · rw [Nat.add_sub_cancel, h.mod_lane]
    show _ ∨ (n - 1) % (4 * s) + 1 = _
    rw [hprevmod]
    split
    · exact Or.inl (by omega)
    · exact Or.inr (by omega)

/-! ## Segments, slices, passes -/

/-- **A segment.** -/
theorem yields_fillSegment (hs2 : 2 ≤ s) (hs : 4 * s < 2 ^ 32) (hslice : slice < 4) {memory : Memory}
    (hf : Filled first s (max 2 (pass * (4 * s) + slice * s)) memory) :
    Yields (Fits s) (Filled first s (max 2 (pass * (4 * s) + (slice + 1) * s)))
      (fillSegment memory pass 0 slice 1 (4 * s) s) := by
  have hle : slice * s ≤ 3 * s := Nat.mul_le_mul_right s (Nat.le_of_lt_succ hslice)
  have hsucc : (slice + 1) * s = slice * s + s := Nat.succ_mul slice s
  -- the first segment of all starts after the two blocks that are given
  obtain ⟨start, hstart, hstartle, hn⟩ : ∃ start, (if pass = 0 ∧ slice = 0 then 2 else 0) = start ∧ start ≤ s ∧
      max 2 (pass * (4 * s) + slice * s) = pass * (4 * s) + (slice * s + start) := by
    by_cases h0 : pass = 0 ∧ slice = 0
    · refine ⟨2, if_pos h0, hs2, ?_⟩
      rw [h0.1, h0.2, Nat.zero_mul, Nat.zero_mul]
      rfl
    · refine ⟨0, if_neg h0, Nat.zero_le s, Nat.max_eq_right ?_⟩
      by_cases hpass : pass = 0
      · have hone : 1 * s ≤ slice * s := Nat.mul_le_mul_right s (by omega)
        omega
      · have hone : 1 * (4 * s) ≤ pass * (4 * s) := Nat.mul_le_mul_right (4 * s) (by omega)
        omega
  rw [hn] at hf
  have hn2 : 2 ≤ pass * (4 * s) + (slice * s + start) := hn ▸ Nat.le_max_left 2 _
  unfold fillSegment
  dsimp only
  rw [hstart]
  refine Yields.bind_some (u32_eq (x := 0 * (4 * s)) (by omega))
    (Yields.bind_some (u32_eq (x := slice * s) (by omega)) ?_)
  rw [Nat.zero_mul, Nat.zero_add]
  refine Yields.bind_some (u32_eq (x := slice * s) (by omega))
    (Yields.bind_some (u32_eq (x := slice * s + start) (by omega)) ?_)
  have hlt : slice * s + start < 4 * s := by
    omega
  -- the previous block of the first in a lane is the lane's last
  have hprev : (if (slice * s + start) % (4 * s) = 0 then do subU32 (← u32 (slice * s + start + 4 * s)) 1
      else subU32 (slice * s + start) 1) = some ((pass * (4 * s) + (slice * s + start) - 1) % (4 * s)) := by
    rw [prev_mod hlt (by omega), Nat.mod_eq_of_lt hlt]
    by_cases h0 : slice * s + start = 0
    · rw [if_pos h0, if_pos h0, h0, Nat.zero_add, u32_eq hs]
      exact if_pos (by omega)
    · rw [if_neg h0, if_neg h0]
      exact if_pos (by omega)
  refine Yields.bind_some hprev ?_
  have hcursor : Cursor first s (pass * (4 * s) + (slice * s + start)) (slice * s + start)
      ⟨memory, slice * s + start, (pass * (4 * s) + (slice * s + start) - 1) % (4 * s)⟩ := ⟨hf, rfl, Or.inr rfl⟩
  have hrun : Yields (Fits s) (fun st => Cursor first s (pass * (4 * s) + (slice * s + (start + (s - start))))
      (slice * s + (start + (s - start))) st) ((List.range' start (s - start)).foldlM
        (fillStep pass 0 slice 1 (4 * s) s) _) :=
    Yields.foldlM_range' (fun i => Cursor first s (pass * (4 * s) + (slice * s + i)) (slice * s + i)) hcursor
      fun i st hi his hc => yields_fillStep ⟨hslice, by omega, rfl⟩ (by omega) hs hc
  refine hrun.bind fun st hst => ?_
  have hend := hst.filled
  rw [show slice * s + (start + (s - start)) = (slice + 1) * s by omega] at hend
  rw [Nat.max_eq_right (by omega)]
  exact hend

/-- **All passes.** -/
theorem yields_fillMemory (hs2 : 2 ≤ s) (hs : 4 * s < 2 ^ 32) {memory : Memory} (hf : Filled first s 2 memory)
    (passes : Nat) : Yields (Fits s) (Filled first s (max 2 (passes * (4 * s))))
      (fillMemory memory passes 1 (4 * s) s) := by
  refine Yields.foldlM_range (fun pass => Filled first s (max 2 (pass * (4 * s)))) ?_ ?_
  · rw [Nat.zero_mul]
    exact hf
  · intro pass memory _ hpass
    have hslices : Yields (Fits s) (Filled first s (max 2 (pass * (4 * s) + ARGON2_SYNC_POINTS * s)))
        ((List.range ARGON2_SYNC_POINTS).foldlM (fun memory slice => (List.range 1).foldlM (fun memory lane =>
          fillSegment memory pass lane slice 1 (4 * s) s) memory) memory) := by
      refine Yields.foldlM_range (fun slice => Filled first s (max 2 (pass * (4 * s) + slice * s))) ?_ ?_
      · rwa [Nat.zero_mul]
      · intro slice memory hslice hfill
        exact (yields_fillSegment hs2 hs hslice hfill).bind fun _ h => h
    rwa [Nat.succ_mul]

/-! ## The fill discipline -/

/-- One access: the block before the written one is read, and the reference block is an other one that is not
    waiting to be rewritten. -/
structure AccessOk (s : Nat) (a : Access) : Prop where
  slice_lt : a.slice < 4
  index_lt : a.index < s
  curr : a.curr = a.slice * s + a.index
  prev : a.prev = (a.curr + 4 * s - 1) % (4 * s)
  ref_lt : a.ref < 4 * s
  ref_ne_curr : a.ref ≠ a.curr
  ref_ne_prev : a.ref ≠ a.prev
  /-- In the first pass, only blocks that were written. -/
  first_pass : a.pass = 0 → a.ref < a.curr
  /-- In a later pass, of the current segment only blocks that were rewritten. -/
  later_pass : a.pass ≠ 0 → a.ref / s = a.slice → a.ref < a.curr

/-- The log of `passes` passes: every block once in each pass, in increasing order, from block 2 in the first. -/
structure Disciplined (s passes : Nat) (log : List Access) : Prop where
  order : log.map (fun a => (a.pass, a.curr)) = (List.range passes).flatMap fun pass =>
    (if pass = 0 then List.range' 2 (4 * s - 2) else List.range (4 * s)).map fun c => (pass, c)
  each : ∀ a ∈ log, AccessOk s a

theorem exists_position (hs : 0 < s) (n : Nat) : Position s n (n / (4 * s)) (n % (4 * s) / s) (n % s) := by
  have hq : n % (4 * s) < 4 * s := Nat.mod_lt n (by omega)
  refine ⟨?_, Nat.mod_lt n hs, ?_⟩
  · exact Nat.div_lt_of_lt_mul (Nat.lt_of_lt_of_eq hq (Nat.mul_comm 4 s))
  · have hdiv := Nat.div_add_mod n (4 * s)
    have hmod := Nat.div_add_mod (n % (4 * s)) s
    rw [Nat.mod_mul_left_mod] at hmod
    rw [Nat.mul_comm (n / (4 * s)), Nat.mul_comm (n % (4 * s) / s)]
    omega

/-- A block of the window that lies in the current segment is before the written block. -/
theorem Position.window_lt (h : Position s n pass slice i) (hpass : pass ≠ 0) {m : Nat}
    (hm : Argon2.windowStart s n ≤ m) (hlt : m < n) (hslice : m % (4 * s) / s = slice) :
    m % (4 * s) < slice * s + i := by
  have hpos : 0 < s := Nat.zero_lt_of_lt h.i_lt
  have hstart := h.windowStart_later hpass
  have heq := h.eq
  have hmdiv := Nat.div_add_mod m (4 * s)
  have hmseg : m % (4 * s) < (slice + 1) * s := by
    rw [← hslice]
    exact Nat.lt_mul_of_div_lt (Nat.lt_succ_self _) hpos
  rw [Nat.succ_mul slice s] at hmseg
  by_contra hge
  -- then the block is of an earlier pass, and before the window
  have hk : m / (4 * s) < pass := by
    by_contra hk
    have hle : pass * (4 * s) ≤ m / (4 * s) * (4 * s) := Nat.mul_le_mul_right _ (by omega)
    rw [Nat.mul_comm (4 * s)] at hmdiv
    omega
  have hle : (m / (4 * s) + 1) * (4 * s) ≤ pass * (4 * s) := Nat.mul_le_mul_right _ hk
  rw [Nat.succ_mul (m / (4 * s)), Nat.mul_comm _ (4 * s)] at hle
  omega

theorem pred_offset {q offset : Nat} (hlt : offset < q) :
    (if offset = 0 then q - 1 else offset - 1) = (offset + q - 1) % q := by
  split
  next h0 => rw [h0, Nat.zero_add, Nat.mod_eq_of_lt (by omega)]
  next h0 => rw [show offset + q - 1 = offset - 1 + q by omega, Nat.add_mod_right, Nat.mod_eq_of_lt (by omega)]

theorem accessOk_access (hs : 2 ≤ s) (hn : 2 ≤ n) : AccessOk s (access first s n) := by
  have hpos : 0 < s := by omega
  have h := exists_position hpos n
  have href := Argon2.reference_mem hpos hn (Argon2.j1 (Argon2.block first s (n - 1)))
  have harea := h.area_lt hn
  have hcurr : n % (4 * s) = n % (4 * s) / s * s + n % s := h.mod_lane
  unfold access
  generalize Argon2.reference s n (Argon2.j1 (Argon2.block first s (n - 1))) = m at href
  refine ⟨h.slice_lt, h.i_lt, hcurr, ?_, Nat.mod_lt m (by omega), ?_, ?_, ?_, ?_⟩
  · show (n - 1) % (4 * s) = (n % (4 * s) + 4 * s - 1) % (4 * s)
    rw [h.prev_mod hn, ← hcurr]
    exact pred_offset (Nat.mod_lt n (by omega))
  · exact mod_ne_mod (by omega) (by omega)
  · exact mod_ne_mod (by omega) (by omega)
  · intro hpass
    have hlt : n < 4 * s := (Nat.div_eq_zero_iff_lt (by omega)).mp hpass
    show m % (4 * s) < n % (4 * s)
    rw [Nat.mod_eq_of_lt hlt, Nat.mod_eq_of_lt (by omega)]
    omega
  · intro hpass hslice
    have hlt := h.window_lt hpass href.1 (by omega) hslice
    rw [← hcurr] at hlt
    exact hlt

/-- The order of the blocks, pass by pass. -/
theorem map_access (hs : 2 ≤ s) (passes : Nat) :
    ((List.range' 2 (passes * (4 * s) - 2)).map (access first s)).map (fun a => (a.pass, a.curr))
      = (List.range passes).flatMap fun pass =>
        (if pass = 0 then List.range' 2 (4 * s - 2) else List.range (4 * s)).map fun c => (pass, c) := by
  have hblock : ∀ pass c, c < 4 * s → ((access first s (pass * (4 * s) + c)).pass,
      (access first s (pass * (4 * s) + c)).curr) = (pass, c) := by
    intro pass c hc
    simp only [access]
    rw [Nat.mul_comm, Nat.mul_add_div (by omega), Nat.mul_add_mod, Nat.div_eq_of_lt hc, Nat.mod_eq_of_lt hc,
      Nat.add_zero]
  -- a pass is one block for each offset, and the first pass leaves out the two blocks that are given
  induction passes with
  | zero => simp
  | succ p ih =>
    rw [List.range_succ, List.flatMap_append, List.flatMap_singleton, ← ih, List.map_map, List.map_map]
    by_cases hp : p = 0
    · subst hp
      rw [if_pos rfl, Nat.zero_mul, Nat.zero_add, Nat.one_mul]
      refine List.map_congr_left fun c hc => ?_
      have hlt := List.mem_range'_1.mp hc
      have := hblock 0 c (by omega)
      rwa [Nat.zero_mul, Nat.zero_add] at this
    · have hone : 1 * (4 * s) ≤ p * (4 * s) := Nat.mul_le_mul_right _ (by omega)
      rw [if_neg hp, show (p + 1) * (4 * s) - 2 = (p * (4 * s) - 2) + 4 * s by rw [Nat.succ_mul]; omega,
        ← List.range'_append_1, List.map_append, show 2 + (p * (4 * s) - 2) = p * (4 * s) + 0 by omega,
        ← List.map_add_range', List.map_map, ← List.range_eq_range']
      congr 1
      refine List.map_congr_left fun c hc => ?_
      exact hblock p c (List.mem_range.mp hc)

/-- The memory before the first pass: its first two blocks start the sequence. -/
theorem filled_two {blocks : Array Block} (hsize : blocks.size = 4 * s) (hs : 2 ≤ s)
    (hfirst : ∀ k < 2, blocks[k]? = some (first k)) : Filled first s 2 { blocks, log := [] } := by
  refine ⟨hsize, ?_, rfl⟩
  intro m hm _
  rw [Nat.mod_eq_of_lt (by omega), hfirst m hm, Argon2.block_eq (by omega), Argon2.nextBlock, if_pos hm]

/-- **The fill discipline**: on a memory of `4 * s` blocks of any content, any number of passes ends without an
    overflow or an index out of bounds, and reads and writes in the order and from the blocks that `Disciplined`
    says. -/
theorem fillMemory_disciplined {s : Nat} (hs : 2 ≤ s) (hmax : s ≤ 2 ^ 29) (blocks : Array Block)
    (hsize : blocks.size = 4 * s) (passes : Nat) : ∃ memory,
      fillMemory { blocks, log := [] } passes RANDOMX_ARGON_LANES (4 * s) s = some memory
        ∧ memory.blocks.size = 4 * s ∧ Disciplined s passes memory.log := by
  have hfilled : Filled (fun k => blocks.getD k newBlock) s 2 { blocks, log := [] } := by
    refine filled_two hsize hs fun k hk => ?_
    have hlt : k < blocks.size := by omega
    rw [Array.getElem?_eq_getElem hlt, Array.getD_eq_getD_getElem?, Array.getElem?_eq_getElem hlt]
    rfl
  obtain ⟨memory, hrun, hf⟩ := (yields_fillMemory hs (by omega) hfilled passes).exists_eq (show 7 * s ≤ _ by omega)
  have hlog : memory.log = (List.range' 2 (passes * (4 * s) - 2)).map
      (access (fun k => blocks.getD k newBlock) s) := by
    rw [hf.log]
    congr 2
    omega
  refine ⟨memory, hrun, hf.size, ?_, ?_⟩
  · rw [hlog]
    exact map_access hs passes
  · intro a ha
    rw [hlog, List.mem_map] at ha
    obtain ⟨n, hn, rfl⟩ := ha
    exact accessOk_access hs (List.mem_range'_1.mp hn).1

/-- The smallest memory, and two passes. -/
theorem fillMemory_disciplined_two : ∃ memory,
    fillMemory { blocks := Array.replicate 8 newBlock, log := [] } 2 RANDOMX_ARGON_LANES (4 * 2) 2 = some memory
      ∧ memory.blocks.size = 4 * 2 ∧ Disciplined 2 2 memory.log :=
  fillMemory_disciplined (by decide) (by decide) (Array.replicate 8 newBlock) Array.size_replicate 2

/-! ## The cache -/

section

variable (s passes : Nat) (key : List Byte)

/-- The inputs that the cache is made from. -/
def cacheParams : Argon2.Params where
  tagLength := 0
  s := s
  passes := passes
  password := key
  salt := RANDOMX_ARGON_SALT
  secret := []
  data := []

theorem initialHash_eq : initialHash (4 * s) passes key = some (Argon2.initialHash H (cacheParams s passes key)) := by
  rw [initialHash, blake2b_eq (show 1 ≤ ARGON2_PREHASH_DIGEST_LENGTH ∧ ARGON2_PREHASH_DIGEST_LENGTH ≤ 64 by decide)]
  simp only [Argon2.initialHash, cacheParams, List.append_nil, List.length_nil]
  rfl

end

theorem fillFirstBlock_eq {blocks : Array Block} {offset : Nat} (hoffset : offset < blocks.size) (seed : List Byte) :
    fillFirstBlock blocks offset seed
      = some (blocks.setIfInBounds offset (Argon2.blockOfBytes (Argon2.hashLong H 1024 seed))) := by
  unfold fillFirstBlock
  rw [blake2bLong_eq (show 1 ≤ ARGON2_BLOCK_SIZE by decide)]
  simp only [Option.bind_eq_bind, Option.bind_some]
  rw [loadFromBytes_eq (length_hashLong ARGON2_BLOCK_SIZE seed)]
  exact if_pos hoffset

theorem fillFirstBlock_first {blocks : Array Block} {offset : Nat} (hoffset : offset < blocks.size)
    (p : Argon2.Params) (n : Nat) :
    fillFirstBlock blocks offset (Argon2.initialHash H p ++ toLeBytes n ++ toLeBytes 0)
      = some (blocks.setIfInBounds offset (Argon2.firstBlock H p n)) := fillFirstBlock_eq hoffset _

/-- The first two blocks of the lane. -/
theorem fillFirstBlocks_eq {blocks : Array Block} (h : 2 ≤ blocks.size) (p : Argon2.Params) (laneLength : Nat) :
    fillFirstBlocks blocks (Argon2.initialHash H p) 1 laneLength
      = some ((blocks.setIfInBounds 0 (Argon2.firstBlock H p 0)).setIfInBounds 1 (Argon2.firstBlock H p 1)) := by
  have h1 : 1 < (blocks.setIfInBounds 0 (Argon2.firstBlock H p 0)).size := by
    rw [Array.size_setIfInBounds]
    omega
  simp only [fillFirstBlocks, List.range_one, List.foldlM_cons, List.foldlM_nil, Nat.zero_mul]
  rw [u32_eq (show 0 < 2 ^ 32 by decide), Option.bind_eq_bind, Option.bind_eq_bind, Option.bind_some,
    fillFirstBlock_first (show 0 < blocks.size by omega), Option.bind_some, u32_eq (show 0 + 1 < 2 ^ 32 by decide),
    Option.bind_some, fillFirstBlock_first h1, Option.bind_some, Option.pure_def]

/-- They start the sequence. -/
theorem exists_fillFirstBlocks {s : Nat} (hs : 2 ≤ s) (p : Argon2.Params) : ∃ blocks,
    fillFirstBlocks (Array.replicate (4 * s) newBlock) (Argon2.initialHash H p) 1 (4 * s) = some blocks
      ∧ Filled (Argon2.firstBlock H p) s 2 { blocks, log := [] } := by
  have hsize : (Array.replicate (4 * s) newBlock).size = 4 * s := Array.size_replicate
  refine ⟨_, fillFirstBlocks_eq (by omega) p (4 * s), ?_⟩
  refine filled_two ?_ hs fun k hk => ?_
  · rw [Array.size_setIfInBounds, Array.size_setIfInBounds, hsize]
  · obtain rfl | rfl : k = 0 ∨ k = 1 := by omega
    · rw [Array.getElem?_setIfInBounds_ne (by decide), Array.getElem?_setIfInBounds_self_of_lt (by omega)]
    · rw [Array.getElem?_setIfInBounds_self_of_lt (by rw [Array.size_setIfInBounds]; omega)]

/-- The blocks after the last pass. -/
theorem toList_eq_matrix {s passes : Nat} {p : Argon2.Params} (hs : 2 ≤ s) (hpasses : 1 ≤ passes) (hps : p.s = s)
    (hpp : p.passes = passes) {memory : Memory}
    (hf : Filled (Argon2.firstBlock H p) s (max 2 (passes * (4 * s))) memory) :
    memory.blocks.toList = Argon2.matrix H p := by
  obtain ⟨t, rfl⟩ := Nat.exists_eq_succ_of_ne_zero (show passes ≠ 0 by omega)
  apply List.ext_getElem?
  intro c
  rw [Array.getElem?_toList, Argon2.matrix, hps, hpp, List.getElem?_map]
  by_cases hc : c < 4 * s
  · have hblock := hf.block (t * (4 * s) + c)
    rw [Nat.succ_mul t, Nat.mul_comm t, Nat.mul_add_mod, Nat.mod_eq_of_lt hc] at hblock
    rw [hblock (by omega) (by omega), List.getElem?_range hc, Option.map_some, Nat.succ_sub_one, Nat.mul_comm t]
  · rw [Array.getElem?_eq_none (by rw [hf.size]; omega), List.getElem?_eq_none (by rw [List.length_range]; omega)]
    rfl

theorem yields_argon2dCacheWith {s passes : Nat} (hs : 2 ≤ s) (hpasses : 1 ≤ passes) (key : List Byte) :
    Yields (Fits s) (· = (Argon2.matrix H (cacheParams s passes key)).flatMap Argon2.bytesOfBlock)
      (argon2dCacheWith (4 * s) passes key) := by
  have hsegment : 4 * s / (1 * ARGON2_SYNC_POINTS) = s := by
    show 4 * s / (1 * 4) = s
    omega
  unfold argon2dCacheWith
  dsimp only
  rw [show RANDOMX_ARGON_LANES = 1 from rfl, hsegment, show s * ARGON2_SYNC_POINTS = 4 * s from Nat.mul_comm s 4]
  by_cases hlane : 4 * s < 2 ^ 32
  · refine Yields.bind_some (u32_eq hlane) ?_
    rw [Nat.one_mul]
    refine Yields.bind_some (u32_eq hlane) ?_
    rw [initialHash_eq s passes key]
    obtain ⟨blocks, hblocks, hfilled⟩ := exists_fillFirstBlocks hs (cacheParams s passes key)
    rw [Option.bind_eq_bind, Option.bind_some, hblocks, Option.bind_eq_bind, Option.bind_some]
    refine (yields_fillMemory hs hlane hfilled passes).bind fun memory hf => ?_
    show memory.blocks.toList.flatMap storeToBytes = _
    rw [toList_eq_matrix hs hpasses rfl rfl hf]
    rfl
  · have hnone : u32 (4 * s) = none := if_neg hlane
    rw [hnone]
    intro hfits
    unfold Fits at hfits
    omega

/-- **The cache is the matrix of Argon2d**: whenever the fill of a memory of `4 * s` blocks ends without an
    overflow, and it does where `7 * s` fits, it leaves the little-endian bytes of the matrix after the last pass.
    So does `argon2d_cache`. -/
theorem argon2d_cache_is_argon2d {s passes : Nat} (hs : 2 ≤ s) (hpasses : 1 ≤ passes) (key : List Byte) :
    (∀ cache, argon2dCacheWith (4 * s) passes key = some cache →
      cache = (Argon2.matrix H (cacheParams s passes key)).flatMap Argon2.bytesOfBlock) ∧
    (7 * s ≤ 2 ^ 32 + 2 → ∃ cache, argon2dCacheWith (4 * s) passes key = some cache) ∧
    argon2dCache key = some ((Argon2.matrix H (cacheParams 65536 3 key)).flatMap Argon2.bytesOfBlock) := by
  have hrun := Yields.iff.mp (yields_argon2dCacheWith hs hpasses key)
  refine ⟨hrun.1, hrun.2, ?_⟩
  have hcache := yields_argon2dCacheWith (show 2 ≤ 65536 by decide) (show 1 ≤ 3 by decide) key
  obtain ⟨cache, heq, hpost⟩ := hcache.exists_eq (by unfold Fits; omega)
  rw [argon2dCache, show RANDOMX_ARGON_MEMORY = 4 * 65536 from rfl, show RANDOMX_ARGON_ITERATIONS = 3 from rfl,
    heq, hpost]

/-- The smallest memory, and two passes over it. -/
theorem argon2d_cache_is_argon2d_two :
    (∃ cache, argon2dCacheWith (4 * 2) 2 [1, 2, 3] = some cache ∧
      cache = (Argon2.matrix H (cacheParams 2 2 [1, 2, 3])).flatMap Argon2.bytesOfBlock) ∧
    argon2dCache [1, 2, 3] = some ((Argon2.matrix H (cacheParams 65536 3 [1, 2, 3])).flatMap Argon2.bytesOfBlock) := by
  obtain ⟨hmatrix, hends, hfull⟩ := @argon2d_cache_is_argon2d 2 2 (by decide) (by decide) [1, 2, 3]
  obtain ⟨cache, hcache⟩ := hends (by decide)
  exact ⟨⟨cache, hcache, hmatrix cache hcache⟩, hfull⟩

end Argon2d
end RandomX
end MinerTim
