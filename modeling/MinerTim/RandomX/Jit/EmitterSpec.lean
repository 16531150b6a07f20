import MinerTim.RandomX.Jit.Emitter

/-!
# `RandomX.Jit.EmitterSpec` — what the emitted instructions do

One lemma for each method: the fragment is straight-line code, stores nothing (or only inside `W`), and takes
a state to the state named. `straight_movImm64` is the one with a loop behind it: after the first wide move
the register holds every 16-bit chunk that needs no further move, and each `MOVK` puts one more in place.
-/

namespace MinerTim
namespace RandomX
namespace Emitter

open Arm64

/-! ## Chunks -/

/-- `v` with chunk `i` replaced. -/
def insertChunk (v : Word) (i : Nat) (c : BitVec 16) : Word :=
  v &&& ~~~(0xFFFF#64 <<< (16 * i)) ||| c.setWidth 64 <<< (16 * i)

theorem getLsbD_chunk (v : Word) (i k : Nat) :
    (chunk v i).getLsbD k = (decide (k < 16) && v.getLsbD (16 * i + k)) := by
  simp [chunk]

/-- Words with the same four chunks are equal. -/
theorem eq_of_chunk {v w : Word} (h : ∀ i < 4, chunk v i = chunk w i) : v = w := by
  apply BitVec.eq_of_getLsbD_eq
  intro k hk
  have hbit := congrArg (BitVec.getLsbD · (k % 16)) (h (k / 16) (by omega))
  simp only [getLsbD_chunk, show k % 16 < 16 by omega, decide_true, Bool.true_and,
    Nat.div_add_mod] at hbit
  exact hbit

theorem getLsbD_ffff (k : Nat) : (0xFFFF#64).getLsbD k = decide (k < 16) := by
  have h : 0xFFFF#64 = (BitVec.allOnes 16).setWidth 64 := by decide
  rw [h, BitVec.getLsbD_setWidth, BitVec.getLsbD_allOnes]
  by_cases hk : k < 16
  · simp [hk, show k < 64 by omega]
  · simp [hk]

theorem chunk_insertChunk (v : Word) (c : BitVec 16) {i j : Nat} (hi : i < 4) (hj : j < 4) :
    chunk (insertChunk v i c) j = if j = i then c else chunk v j := by
  apply BitVec.eq_of_getLsbD_eq
  intro k hk
  have hbit : (if j = i then c else chunk v j).getLsbD k
      = if j = i then c.getLsbD k else v.getLsbD (16 * j + k) := by
    split
    · rfl
    · rw [getLsbD_chunk]; simp [hk]
  rw [hbit, getLsbD_chunk]
  simp only [insertChunk, BitVec.getLsbD_or, BitVec.getLsbD_and, BitVec.getLsbD_not,
    BitVec.getLsbD_shiftLeft, BitVec.getLsbD_setWidth, getLsbD_ffff, hk, decide_true, Bool.true_and,
    show 16 * j + k < 64 by omega]
  rcases Nat.lt_trichotomy j i with h | rfl | h
  · simp [show ¬ j = i by omega, show 16 * j + k < 16 * i by omega]
  · simp [show ¬ 16 * j + k < 16 * j by omega, show 16 * j + k - 16 * j = k by omega, hk,
      show k < 64 by omega]
  · simp [show ¬ j = i by omega, show ¬ 16 * j + k < 16 * i by omega,
      show ¬ 16 * j + k - 16 * i < 16 by omega, BitVec.getLsbD_of_ge c _
        (show 16 ≤ 16 * j + k - 16 * i by omega)]

theorem chunk_zero (j : Nat) : chunk 0 j = 0 := by
  apply BitVec.eq_of_getLsbD_eq
  intro k _
  simp [getLsbD_chunk]

theorem chunk_not (v : Word) {j : Nat} (hj : j < 4) : chunk (~~~v) j = ~~~chunk v j := by
  apply BitVec.eq_of_getLsbD_eq
  intro k hk
  simp only [getLsbD_chunk, BitVec.getLsbD_not, hk, decide_true, Bool.true_and,
    show 16 * j + k < 64 by omega]

/-- What `MOVZ` writes is chunk `i` alone. -/
theorem movz_eq_insertChunk (c : BitVec 16) (i : Nat) :
    c.setWidth 64 <<< (16 * i) = insertChunk 0 i c := by
  simp [insertChunk]

/-- The `hw` field of a shift by `i` chunks. -/
theorem toNat_hw {i : Nat} (hi : i < 4) : (BitVec.ofNat 2 (i * 16 / 16)).toNat = i := by
  rw [Nat.mul_div_cancel _ (by decide), BitVec.toNat_ofNat, Nat.mod_eq_of_lt hi]

/-- The insertions of the chunks that are marked. -/
def insertions (rd : Nat) (imm : Word) (p : Nat → Prop) [DecidablePred p] (is : List Nat) : Code :=
  is.flatMap fun i => if p i then movk rd (chunk imm i) (i * 16) else []

theorem insertions_cons (rd : Nat) (imm : Word) (p : Nat → Prop) [DecidablePred p] (i : Nat) (is : List Nat) :
    insertions rd imm p (i :: is)
      = (if p i then movk rd (chunk imm i) (i * 16) else []) ++ insertions rd imm p is :=
  List.flatMap_cons

/-- The rest of the MOVZ loop inserts the chunks that are not zero. -/
theorem movzLoop_eq (rd : Nat) (imm : Word) (is : List Nat) :
    movzLoop rd imm is false = insertions rd imm (fun i => chunk imm i ≠ 0) is := by
  induction is with
  | nil => rfl
  | cons i is ih =>
    rw [insertions_cons, movzLoop, ih, if_neg Bool.false_ne_true]
    by_cases hc : chunk imm i ≠ 0
    · rw [if_pos (.inl hc), if_pos hc]
    · rw [if_neg (by simpa using hc), if_neg hc, List.nil_append]

/-- The rest of the MOVN loop inserts the chunks that are not all ones. -/
theorem movnLoop_eq (rd : Nat) (imm : Word) {is : List Nat} (his : ∀ i ∈ is, i < 4) :
    movnLoop rd imm is false = insertions rd imm (fun i => chunk (~~~imm) i ≠ 0) is := by
  induction is with
  | nil => rfl
  | cons i is ih =>
    have hones : chunk (~~~imm) i ≠ 0 → chunk imm i ≠ 0xFFFF := by
      intro h heq
      rw [chunk_not imm (his i List.mem_cons_self), heq] at h
      exact absurd h (by decide)
    rw [insertions_cons, movnLoop, ih fun k hk => his k (List.mem_cons_of_mem i hk), if_neg Bool.false_ne_true]
    by_cases hc : chunk (~~~imm) i ≠ 0
    · rw [if_pos (.inl hc), if_pos (hones hc), if_pos hc]
    · rw [if_neg (by simpa using hc), if_neg hc, List.nil_append]

variable {fp : FpOps} {W : Word → Prop} {t : State}

/-! ## Moves -/

section Moves

variable {rd : Nat}

theorem straight_movz (c : BitVec 16) {i : Nat} (hi : i < 4) :
    Straight fp W (movz rd c (i * 16)) t (t.setX rd (insertChunk 0 i c)) := by
  refine straight_single rfl rfl rfl ?_
  rw [← movz_eq_insertChunk, exec, toNat_hw hi]

theorem straight_movn (c : BitVec 16) {i : Nat} (hi : i < 4) :
    Straight fp W (movn rd c (i * 16)) t (t.setX rd (~~~insertChunk 0 i c)) := by
  refine straight_single rfl rfl rfl ?_
  rw [← movz_eq_insertChunk, exec, toNat_hw hi]

variable (hrd : rd ≠ 31)
include hrd

theorem straight_movk (c : BitVec 16) {i : Nat} (hi : i < 4) :
    Straight fp W (movk rd c (i * 16)) t (t.setX rd (insertChunk (t.x rd) i c)) := by
  refine straight_single rfl rfl rfl ?_
  rw [exec, toNat_hw hi, State.getX_of_ne hrd]
  rfl

/-- A `MOVK` after another write to the register. -/
theorem straight_movk_setX (v : Word) (c : BitVec 16) {i : Nat} (hi : i < 4) :
    Straight fp W (movk rd c (i * 16)) (t.setX rd v) (t.setX rd (insertChunk v i c)) := by
  have h := @straight_movk fp W (t.setX rd v) rd hrd c i hi
  rw [State.x_setX_same hrd, State.setX_setX] at h
  exact h

/-- The chunks that are marked are put in place, one after the other. -/
theorem straight_insertions (imm v : Word) (p : Nat → Prop) [DecidablePred p] {is : List Nat} (his : ∀ i ∈ is, i < 4) :
    ∃ v', Straight fp W (insertions rd imm p is) (t.setX rd v) (t.setX rd v') ∧
      ∀ j < 4, chunk v' j = if j ∈ is ∧ p j then chunk imm j else chunk v j := by
  induction is generalizing v with
  | nil => exact ⟨v, .nil, fun j _ => by simp⟩
  | cons i is ih =>
    have hi : i < 4 := his i (by simp)
    have his' : ∀ i ∈ is, i < 4 := fun k hk => his k (by simp [hk])
    rw [insertions_cons]
    -- chunk `i` is inserted, or left as the move before made it
    by_cases hp : p i
    · obtain ⟨v', hrest, hv'⟩ := ih (insertChunk v i (chunk imm i)) his'
      refine ⟨v', ?_, ?_⟩
      · rw [if_pos hp]
        exact (straight_movk_setX hrd v _ hi).append hrest
      · intro j hj
        rw [hv' j hj, chunk_insertChunk v _ hi hj]
        by_cases hji : j = i
        · subst hji
          rw [if_pos rfl, ite_self, if_pos ⟨List.mem_cons_self, hp⟩]
        · simp [hji]
    · obtain ⟨v', hrest, hv'⟩ := ih v his'
      rw [if_neg hp]
      refine ⟨v', hrest, ?_⟩
      intro j hj
      rw [hv' j hj]
      by_cases hji : j = i
      · simp [hji, hp]
      · simp [hji]

/-- The MOVZ loop up to its first move, which is made at the latest for chunk 3. -/
theorem straight_movzLoop_first (imm : Word) {is : List Nat} (his : ∀ i ∈ is, i < 4) (hlast : 3 ∈ is) :
    ∃ v', Straight fp W (movzLoop rd imm is true) t (t.setX rd v') ∧
      ∀ j < 4, chunk v' j = if j ∈ is then chunk imm j else 0 := by
  induction is with
  | nil => exact absurd hlast List.not_mem_nil
  | cons i is ih =>
    have hi : i < 4 := his i (by simp)
    have his' : ∀ i ∈ is, i < 4 := fun k hk => his k (by simp [hk])
    unfold movzLoop
    -- the first move clears the other chunks, so from here on MOVK is enough
    by_cases hc : chunk imm i ≠ 0 ∨ (true = true ∧ i = 3)
    · obtain ⟨v', hrest, hv'⟩ :=
        @straight_insertions fp W t rd hrd imm (insertChunk 0 i (chunk imm i)) (fun i => chunk imm i ≠ 0) _ is his'
      refine ⟨v', ?_, ?_⟩
      · rw [if_pos hc, if_pos rfl, movzLoop_eq]
        exact (straight_movz _ hi).append hrest
      · intro j hj
        rw [hv' j hj, chunk_insertChunk 0 _ hi hj, chunk_zero]
        by_cases hji : j = i
        · simp [hji]
        · rw [if_neg hji]
          by_cases hz : chunk imm j = 0
          · rw [if_neg (fun h => h.2 hz), hz, ite_self]
          · by_cases hjis : j ∈ is
            · rw [if_pos ⟨hjis, hz⟩, if_pos (List.mem_cons_of_mem i hjis)]
            · rw [if_neg (fun h => hjis h.1), if_neg (by simp [hji, hjis])]
    · rw [if_neg hc]
      simp only [true_and, not_or, not_not] at hc
      obtain ⟨v', hrest, hv'⟩ := ih his' (by simpa [Ne.symm hc.2] using hlast)
      refine ⟨v', hrest, ?_⟩
      intro j hj
      rw [hv' j hj]
      by_cases hji : j = i
      · subst hji
        simp [hc.1]
      · simp [hji]

omit hrd in
theorem firstChunk_lt (v : Word) : firstChunk v < 4 := by
  unfold firstChunk
  cases h : (List.range 4).find? fun j => chunk v j != 0 with
  | none => decide
  | some j => exact List.mem_range.mp (List.mem_of_find?_eq_some h)

omit hrd in
/-- The first non-zero chunk is a later one only when chunk 0 is zero. -/
theorem chunk_zero_of_firstChunk {v : Word} (h : firstChunk v ≠ 0) : chunk v 0 = 0 := by
  by_contra hne
  apply h
  have hrange : List.range 4 = [0, 1, 2, 3] := by decide
  rw [firstChunk, hrange, List.find?_cons_of_pos (by simpa using hne)]
  rfl

omit hrd in
/-- The first pass of the MOVN loop makes the move, and nothing else. -/
theorem movnLoop_first (imm : Word) (is : List Nat) : movnLoop rd imm (0 :: is) true
    = movn rd (chunk (~~~imm) (firstChunk (~~~imm))) (firstChunk (~~~imm) * 16)
      ++ movnLoop rd imm is false := by
  rw [movnLoop]
  simp only [or_true, if_true]
  rcases Nat.eq_zero_or_pos (firstChunk (~~~imm)) with h | h
  · rw [if_neg (by omega), if_pos h.symm]
  · rw [if_pos h]

/-- **`mov_imm64` loads the immediate**, whatever the register held. -/
theorem straight_movImm64 (imm : Word) :
    Straight fp W (movImm64 rd imm) t (t.setX rd imm) := by
  unfold movImm64
  split
  next h0 =>
    subst h0
    have h := @straight_movz fp W t rd 0 0 (by decide)
    rwa [show insertChunk 0 0 0 = 0 by decide] at h
  next h0 =>
    have hrange : List.range 4 = [0, 1, 2, 3] := by decide
    rw [hrange]
    split
    · -- MOVN: the chunks that are all ones come for free with the first move
      have hidx := firstChunk_lt (~~~imm)
      obtain ⟨v', hrest, hv'⟩ := @straight_insertions fp W t rd hrd imm
        (~~~insertChunk 0 (firstChunk (~~~imm)) (chunk (~~~imm) (firstChunk (~~~imm))))
        (fun i => chunk (~~~imm) i ≠ 0) _ [1, 2, 3] (by decide)
      have heq : v' = imm := by
        apply eq_of_chunk
        intro j hj
        rw [hv' j hj, chunk_not (insertChunk _ _ _) hj, chunk_insertChunk 0 _ hidx hj, chunk_zero]
        by_cases hjz : chunk (~~~imm) j = 0
        · have hones : chunk imm j = ~~~0 := by
            rw [← hjz, chunk_not imm hj, BitVec.not_not]
          by_cases hji : j = firstChunk (~~~imm)
          · simp [hjz, ← hji, hones]
          · simp [hjz, hji, hones]
        · by_cases hj0 : j = 0
          · have hji : firstChunk (~~~imm) = 0 := by
              by_contra hne
              exact hjz (hj0 ▸ chunk_zero_of_firstChunk hne)
            simp [hj0, hji, chunk_not imm (show 0 < 4 by decide)]
          · have hmem : j ∈ [1, 2, 3] := by
              have : j = 1 ∨ j = 2 ∨ j = 3 := by omega
              simpa using this
            rw [if_pos ⟨hmem, hjz⟩]
      rw [movnLoop_first, movnLoop_eq rd imm (by decide)]
      rw [heq] at hrest
      exact (straight_movn _ hidx).append hrest
    · -- MOVZ: the chunks that are zero do
      obtain ⟨v', hrest, hv'⟩ := @straight_movzLoop_first fp W t rd hrd imm [0, 1, 2, 3] (by decide)
        (by decide)
      have heq : v' = imm := by
        apply eq_of_chunk
        intro j hj
        have hmem : j ∈ [0, 1, 2, 3] := by
          have : j = 0 ∨ j = 1 ∨ j = 2 ∨ j = 3 := by omega
          simpa using this
        rw [hv' j hj, if_pos hmem]
      exact heq ▸ hrest

end Moves

/-! ## Operand values -/

theorem bitfield_lsr (v : Word) {n : Nat} (hn : n < 64) : bitfield v (BitVec.ofNat 6 n) 63 = v >>> n := by
  have htoNat : (BitVec.ofNat 6 n).toNat = n := by
    rw [BitVec.toNat_ofNat, Nat.mod_eq_of_lt (by omega)]
  have hle : BitVec.ofNat 6 n ≤ 63 := by
    rw [BitVec.le_def, htoNat]
    show n ≤ 63
    omega
  rw [bitfield, if_pos hle, htoNat]
  apply BitVec.eq_of_getLsbD_eq
  intro k hk
  rw [BitVec.getLsbD_and, BitVec.getLsbD_ofNat, Nat.testBit_two_pow_sub_one, BitVec.getLsbD_ushiftRight]
  show (v.getLsbD (n + k) && (decide (k < 64) && decide (k < 63 - n + 1))) = _
  by_cases hnk : k < 63 - n + 1
  · simp [hk, hnk]
  · rw [BitVec.getLsbD_of_ge v (n + k) (by omega)]
    rfl

theorem bitfield_lsl (v : Word) {n : Nat} (hpos : 0 < n) (hn : n < 64) :
    bitfield v (BitVec.ofNat 6 (64 - n)) (BitVec.ofNat 6 (63 - n)) = v <<< n := by
  have hr : (BitVec.ofNat 6 (64 - n)).toNat = 64 - n := by
    rw [BitVec.toNat_ofNat, Nat.mod_eq_of_lt (by omega)]
  have hs : (BitVec.ofNat 6 (63 - n)).toNat = 63 - n := by
    rw [BitVec.toNat_ofNat, Nat.mod_eq_of_lt (by omega)]
  have hnle : ¬ BitVec.ofNat 6 (64 - n) ≤ BitVec.ofNat 6 (63 - n) := by
    rw [BitVec.le_def, hr, hs]
    omega
  rw [bitfield, if_neg hnle, hr, hs, show 64 - (64 - n) = n by omega]
  apply BitVec.eq_of_getLsbD_eq
  intro k hk
  rw [BitVec.getLsbD_shiftLeft, BitVec.getLsbD_and, BitVec.getLsbD_ofNat, Nat.testBit_two_pow_sub_one,
    BitVec.getLsbD_shiftLeft]
  by_cases hkn : k < n
  · simp [hkn]
  · simp [hk, hkn, show k - n < 63 - n + 1 by omega, show k - n < 64 by omega]

theorem extr_ror (v : Word) {n : Nat} (hn : n < 64) :
    ((v ++ v) >>> n).setWidth 64 = v.rotateRight n := by
  apply BitVec.eq_of_getLsbD_eq
  intro k hk
  rw [BitVec.getLsbD_setWidth, BitVec.getLsbD_ushiftRight, BitVec.getLsbD_append,
    BitVec.getLsbD_rotateRight]
  by_cases hnk : n + k < 64
  · simp [hk, hnk, show k < 64 - n by omega, Nat.mod_eq_of_lt hn]
  · simp [hk, hnk, show ¬ k < 64 - n by omega, Nat.mod_eq_of_lt hn,
      show n + k - 64 = k - (64 - n) by omega]

theorem scaledOffset_ofNat {off : Nat} (h8 : off % 8 = 0) (hlt : off < 32768) :
    scaledOffset (BitVec.ofNat 12 (off / 8)) = BitVec.ofNat 64 off := by
  apply BitVec.eq_of_toNat_eq
  rw [scaledOffset, BitVec.toNat_shiftLeft, BitVec.toNat_setWidth, BitVec.toNat_ofNat,
    BitVec.toNat_ofNat, Nat.shiftLeft_eq]
  omega

/-- The value has an encoding as a logical immediate, and `encode_bitmask_imm` finds it. -/
def isEncodable (value : Word) : Bool :=
  match encodeBitmaskImm value with
  | some (n, immr, imms) =>
    decodeBitMasks (BitVec.ofNat 1 n) (BitVec.ofNat 6 immr) (BitVec.ofNat 6 imms) == some value
  | none => false

theorem exists_of_isEncodable {value : Word} (h : isEncodable value = true) : ∃ n immr imms,
    encodeBitmaskImm value = some (n, immr, imms) ∧
      decodeBitMasks (BitVec.ofNat 1 n) (BitVec.ofNat 6 immr) (BitVec.ofNat 6 imms) = some value := by
  unfold isEncodable at h
  split at h
  next n immr imms henc => exact ⟨n, immr, imms, henc, by simpa using h⟩
  · cases h

/-! ## One instruction -/

theorem straight_addReg (rd rn rm : Nat) :
    Straight fp W (addReg rd rn rm) t (t.setX rd (t.getX rn + t.getX rm)) :=
  straight_single rfl rfl rfl (by simp [exec])

theorem straight_addRegShifted (rd rn rm : Nat) {shift : Nat} (h : shift < 64) :
    Straight fp W (addRegShifted rd rn rm shift) t (t.setX rd (t.getX rn + t.getX rm <<< shift)) :=
  straight_single rfl rfl rfl (by
    rw [exec, BitVec.toNat_ofNat, Nat.mod_eq_of_lt (by omega)])

theorem straight_addImm {rd rn : Nat} (hrd : rd ≠ 31) (hrn : rn ≠ 31) {imm12 : Nat} (h : imm12 < 4096) :
    Straight fp W (addImm rd rn imm12) t (t.setX rd (t.x rn + BitVec.ofNat 64 imm12)) :=
  straight_single rfl rfl rfl (by
    rw [exec, State.setXSp_of_ne hrd, State.getXSp_of_ne hrn, BitVec.setWidth_ofNat_of_le_of_lt
      (by decide) (by omega)])

theorem straight_subReg (rd rn rm : Nat) :
    Straight fp W (subReg rd rn rm) t (t.setX rd (t.getX rn - t.getX rm)) :=
  straight_single rfl rfl rfl rfl

theorem straight_mul (rd rn rm : Nat) :
    Straight fp W (mul rd rn rm) t (t.setX rd (t.getX rn * t.getX rm)) :=
  straight_single rfl rfl rfl (by simp [exec])

theorem straight_subImm {rd rn : Nat} (hrd : rd ≠ 31) (hrn : rn ≠ 31) {imm12 : Nat} (h : imm12 < 4096) :
    Straight fp W (subImm rd rn imm12) t (t.setX rd (t.x rn - BitVec.ofNat 64 imm12)) :=
  straight_single rfl rfl rfl (by
    rw [exec, State.setXSp_of_ne hrd, State.getXSp_of_ne hrn, BitVec.setWidth_ofNat_of_le_of_lt
      (by decide) (by omega)])

theorem straight_umulh (rd rn rm : Nat) :
    Straight fp W (umulh rd rn rm) t (t.setX rd (mulHigh (t.getX rn) (t.getX rm))) :=
  straight_single rfl rfl rfl rfl

theorem straight_smulh (rd rn rm : Nat) :
    Straight fp W (smulh rd rn rm) t (t.setX rd (smulHigh (t.getX rn) (t.getX rm))) :=
  straight_single rfl rfl rfl rfl

theorem straight_neg (rd rn : Nat) : Straight fp W (neg rd rn) t (t.setX rd (-t.getX rn)) :=
  straight_single rfl rfl rfl (by simp [exec])

theorem straight_eorReg (rd rn rm : Nat) :
    Straight fp W (eorReg rd rn rm) t (t.setX rd (t.getX rn ^^^ t.getX rm)) :=
  straight_single rfl rfl rfl rfl

theorem straight_eorRegW (rd rn rm : Nat) :
    Straight fp W (eorRegW rd rn rm) t
      (t.setX rd (((t.getX rn ^^^ t.getX rm).setWidth 32).setWidth 64)) :=
  straight_single rfl rfl rfl rfl

theorem straight_orrReg (rd rn rm : Nat) :
    Straight fp W (orrReg rd rn rm) t (t.setX rd (t.getX rn ||| t.getX rm)) :=
  straight_single rfl rfl rfl rfl

theorem straight_movReg (rd rn : Nat) : Straight fp W (movReg rd rn) t (t.setX rd (t.getX rn)) :=
  straight_single rfl rfl rfl (by simp [exec])

theorem straight_rorv (rd rn rm : Nat) :
    Straight fp W (rorv rd rn rm) t
      (t.setX rd ((t.getX rn).rotateRight ((t.getX rm).toNat % 64))) :=
  straight_single rfl rfl rfl rfl

theorem straight_rorImm (rd rs : Nat) {imm6 : Nat} (h : imm6 < 64) :
    Straight fp W (rorImm rd rs imm6) t (t.setX rd ((t.getX rs).rotateRight imm6)) :=
  straight_single rfl rfl rfl (by
    rw [exec, BitVec.toNat_ofNat, Nat.mod_eq_of_lt (by omega), extr_ror _ h])

theorem straight_lsrImm (rd rn : Nat) {imm6 : Nat} (h : imm6 < 64) :
    Straight fp W (lsrImm rd rn imm6) t (t.setX rd (t.getX rn >>> imm6)) :=
  straight_single rfl rfl rfl (by rw [exec, bitfield_lsr _ h])

theorem straight_lslImm (rd rn : Nat) {imm6 : Nat} (hpos : 0 < imm6) (h : imm6 < 64) :
    Straight fp W (lslImm rd rn imm6) t (t.setX rd (t.getX rn <<< imm6)) :=
  straight_single rfl rfl rfl (by rw [exec, bitfield_lsl _ hpos h])

/-- **`and_bitmask`**, for a value with an encoding. -/
theorem straight_andBitmask {rd : Nat} (hrd : rd ≠ 31) (rn : Nat) {value : Word}
    (h : isEncodable value = true) (tmp : Nat) :
    Straight fp W (andBitmask rd rn value tmp) t (t.setX rd (t.getX rn &&& value)) := by
  obtain ⟨n, immr, imms, henc, hdec⟩ := exists_of_isEncodable h
  unfold andBitmask
  rw [henc]
  refine straight_single rfl ?_ rfl ?_
  · simp only [Inst.isDefined, hdec, Option.isSome_some]
  · rw [exec, hdec, Option.getD_some, State.setXSp_of_ne hrd]

/-- **`tst_bitmask`**, for a value with an encoding. -/
theorem straight_tstBitmask (rn : Nat) {value : Word} (h : isEncodable value = true) (tmp : Nat) :
    Straight fp W (tstBitmask rn value tmp) t
      (t.setFlags (State.logicFlags (t.getX rn &&& value))) := by
  obtain ⟨n, immr, imms, henc, hdec⟩ := exists_of_isEncodable h
  unfold tstBitmask
  rw [henc]
  refine straight_single rfl ?_ rfl ?_
  · simp only [Inst.isDefined, hdec, Option.isSome_some]
  · rw [exec, hdec, Option.getD_some]
    rfl

theorem straight_ldrReg {rt rn rm : Nat} (hrn : rn ≠ 31) :
    Straight fp W (ldrReg rt rn rm) t (t.setX rt (t.read (t.x rn + t.getX rm))) :=
  straight_single rfl rfl rfl (by rw [exec, State.getXSp_of_ne hrn])

theorem straight_strReg {rt rn rm : Nat} (hrn : rn ≠ 31)
    (hW : ∀ a, InRegion (t.x rn + t.getX rm) 8 a → W a) :
    Straight fp W (strReg rt rn rm) t (t.write (t.x rn + t.getX rm) (t.getX rt)) := by
  refine straight_store rfl rfl ?_ (by rw [exec, State.getXSp_of_ne hrn])
  intro b hb
  rw [Inst.stores, State.getXSp_of_ne hrn, List.mem_singleton] at hb
  exact hb ▸ hW

section Offsets

variable {rn off : Nat} (hrn : rn ≠ 31) (h8 : off % 8 = 0) (hlt : off < 32768)
include hrn h8 hlt

theorem straight_ldrImm (rt : Nat) :
    Straight fp W (ldrImm rt rn off) t (t.setX rt (t.read (t.x rn + BitVec.ofNat 64 off))) :=
  straight_single rfl rfl rfl (by
    rw [exec, State.getXSp_of_ne hrn, scaledOffset_ofNat h8 hlt])

theorem straight_ldrFpImm (dt : Nat) :
    Straight fp W (ldrFpImm dt rn off) t (t.setD dt (t.read (t.x rn + BitVec.ofNat 64 off))) :=
  straight_single rfl rfl rfl (by
    rw [exec, State.getXSp_of_ne hrn, scaledOffset_ofNat h8 hlt])

theorem straight_strImm (rt : Nat) (hW : ∀ a, InRegion (t.x rn + BitVec.ofNat 64 off) 8 a → W a) :
    Straight fp W (strImm rt rn off) t (t.write (t.x rn + BitVec.ofNat 64 off) (t.getX rt)) := by
  refine straight_store rfl rfl ?_ (by
    rw [exec, State.getXSp_of_ne hrn, scaledOffset_ofNat h8 hlt])
  intro b hb
  rw [Inst.stores, State.getXSp_of_ne hrn, scaledOffset_ofNat h8 hlt, List.mem_singleton] at hb
  exact hb ▸ hW

theorem straight_strFpImm (dt : Nat) (hW : ∀ a, InRegion (t.x rn + BitVec.ofNat 64 off) 8 a → W a) :
    Straight fp W (strFpImm dt rn off) t (t.write (t.x rn + BitVec.ofNat 64 off) (t.d dt)) := by
  refine straight_store rfl rfl ?_ (by
    rw [exec, State.getXSp_of_ne hrn, scaledOffset_ofNat h8 hlt])
  intro b hb
  rw [Inst.stores, State.getXSp_of_ne hrn, scaledOffset_ofNat h8 hlt, List.mem_singleton] at hb
  exact hb ▸ hW

end Offsets

theorem straight_fadd (rd rn rm : Nat) :
    Straight fp W (fadd rd rn rm) t (t.setD rd (fp.fadd t.rmode (t.d rn) (t.d rm))) :=
  straight_single rfl rfl rfl rfl

theorem straight_fsub (rd rn rm : Nat) :
    Straight fp W (fsub rd rn rm) t (t.setD rd (fp.fsub t.rmode (t.d rn) (t.d rm))) :=
  straight_single rfl rfl rfl rfl

theorem straight_fmul (rd rn rm : Nat) :
    Straight fp W (fmul rd rn rm) t (t.setD rd (fp.fmul t.rmode (t.d rn) (t.d rm))) :=
  straight_single rfl rfl rfl rfl

theorem straight_fdiv (rd rn rm : Nat) :
    Straight fp W (fdiv rd rn rm) t (t.setD rd (fp.fdiv t.rmode (t.d rn) (t.d rm))) :=
  straight_single rfl rfl rfl rfl

theorem straight_fsqrt (rd rn : Nat) :
    Straight fp W (fsqrt rd rn) t (t.setD rd (fp.fsqrt t.rmode (t.d rn))) :=
  straight_single rfl rfl rfl rfl

theorem straight_fmovDd (rd rn : Nat) : Straight fp W (fmovDd rd rn) t (t.setD rd (t.d rn)) :=
  straight_single rfl rfl rfl rfl

theorem straight_fmovXd (rd dn : Nat) : Straight fp W (fmovXd rd dn) t (t.setX rd (t.d dn)) :=
  straight_single rfl rfl rfl rfl

theorem straight_fmovDx (dd rn : Nat) : Straight fp W (fmovDx dd rn) t (t.setD dd (t.getX rn)) :=
  straight_single rfl rfl rfl rfl

theorem straight_scvtfDx (dd xn : Nat) :
    Straight fp W (scvtfDx dd xn) t (t.setD dd (fp.scvtf t.rmode (t.getX xn))) :=
  straight_single rfl rfl rfl rfl

theorem straight_eorV8b (vd vn vm : Nat) :
    Straight fp W (eorV8b vd vn vm) t (t.setD vd (t.d vn ^^^ t.d vm)) :=
  straight_single rfl rfl rfl rfl

theorem straight_msrFpcr (rn : Nat) :
    Straight fp W (msrFpcr rn) t (t.setFpcr ((t.getX rn).setWidth 32)) :=
  straight_single rfl rfl rfl rfl

theorem straight_prfmReg (rn rm : Nat) : Straight fp W (prfmReg rn rm) t t :=
  straight_single rfl rfl rfl rfl

end Emitter
end RandomX
end MinerTim
