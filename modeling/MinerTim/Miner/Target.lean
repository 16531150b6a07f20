import MinerTim.Miner.Share

/-!
# `Miner.Target` — targets and difficulties

`target_to_difficulty` of `pool_connection.rs` against `meets_target` of `miner.rs`. Both read a full target as the
top 64 bits of a threshold and a compact one as its top 32 bits. A hash that meets a full target has its difficulty.
A compact target is compared with the top 32 bits of the hash, whose lower bits are then free: with equal top bits
the whole of the hash may be above the threshold.
-/

namespace MinerTim
namespace Miner

/-- `target_to_difficulty`. -/
def targetToDifficulty (target : List Byte) : Word :=
  let targetByte (k : Nat) : Byte := target.getD k 0
  if 8 ≤ target.length then
    let t := leWord targetByte
    if t = 0 then 0 else BitVec.allOnes 64 / t
  else if 4 ≤ target.length then
    let t := leWord32 targetByte
    if t = 0 then BitVec.allOnes 64 else 0xFFFFFFFF / t.setWidth 64
  else 0

/-- The top 64 bits of a hash. -/
def topBits (hash : Vector Byte 32) : Nat := (leWord fun k => byteAt hash (24 + k)).toNat

/-- The value of a target of either width. -/
def targetValue (target : List Byte) : Nat :=
  if 8 ≤ target.length then (leWord fun k => target.getD k 0).toNat
  else (leWord32 fun k => target.getD k 0).toNat

variable {hash hash' : Vector Byte 32} {target target' : List Byte}

/-- The upper half of a word. -/
theorem toNat_leWord_div (b : Nat → Byte) : (leWord b).toNat / 2 ^ 32 = (leWord32 fun k => b (4 + k)).toNat := by
  have hhalf : (leWord b >>> 32).setWidth 32 = leWord32 fun k => b (4 + k) := by
    apply BitVec.eq_of_getLsbD_eq
    intro i hi
    rw [BitVec.getLsbD_setWidth, BitVec.getLsbD_ushiftRight, leWord, leWord32, getLsbD_leBits, getLsbD_leBits,
      show (32 + i) / 8 = 4 + i / 8 by omega, show (32 + i) % 8 = i % 8 by omega]
    simp [hi, show 32 + i < 64 by omega]
  have hlt := (leWord b).isLt
  rw [← hhalf, BitVec.toNat_setWidth, BitVec.toNat_ushiftRight, Nat.shiftRight_eq_div_pow, Nat.mod_eq_of_lt (by omega)]

/-- A full target is compared with the top 64 bits. -/
theorem meetsTarget_full (h : target.length = 8) :
    meetsTarget hash target = true ↔ targetValue target ≠ 0 ∧ topBits hash ≤ targetValue target := by
  unfold meetsTarget targetValue topBits
  dsimp only
  rw [if_pos (by omega), if_pos (by omega), Bool.and_eq_true, bne_iff_ne, decide_eq_true_eq, BitVec.le_def,
    ne_eq, ne_eq, BitVec.toNat_eq]
  rfl

/-- A compact target is compared with the top 32 bits. -/
theorem meetsTarget_compact (h : target.length = 4) :
    meetsTarget hash target = true ↔ targetValue target ≠ 0 ∧ topBits hash / 2 ^ 32 ≤ targetValue target := by
  unfold meetsTarget targetValue topBits
  dsimp only
  rw [toNat_leWord_div, if_neg (by omega), if_pos (by omega), if_neg (by omega), Bool.and_eq_true, bne_iff_ne,
    decide_eq_true_eq, BitVec.le_def, ne_eq, ne_eq, BitVec.toNat_eq]
  simp only [← Nat.add_assoc]
  rfl

theorem toNat_targetToDifficulty_full (h : target.length = 8) :
    (targetToDifficulty target).toNat = (2 ^ 64 - 1) / targetValue target := by
  have hfull : 8 ≤ target.length := by omega
  unfold targetToDifficulty targetValue
  simp only [if_pos hfull]
  split
  next h0 =>
    rw [h0]
    rfl
  next h0 => rw [BitVec.toNat_udiv, BitVec.toNat_allOnes]

theorem toNat_targetToDifficulty_compact (h : target.length = 4) : (targetToDifficulty target).toNat
    = if targetValue target = 0 then 2 ^ 64 - 1 else (2 ^ 32 - 1) / targetValue target := by
  have hfull : ¬ 8 ≤ target.length := by omega
  have hcompact : 4 ≤ target.length := by omega
  unfold targetToDifficulty targetValue
  simp only [if_neg hfull, if_pos hcompact]
  by_cases h0 : leWord32 (fun k => target.getD k 0) = 0
  · rw [if_pos h0, h0, BitVec.toNat_allOnes]
    rfl
  · have hpos : (leWord32 fun k => target.getD k 0).toNat ≠ 0 := fun hnat => h0 (BitVec.eq_of_toNat_eq hnat)
    rw [if_neg h0, if_neg hpos, BitVec.toNat_udiv, BitVec.toNat_setWidth_of_le (by decide)]
    rfl

/-- A hash that meets a target has its difficulty, in the width that is compared. -/
theorem topBits_mul_lt_full (h : target.length = 8) (hmeets : meetsTarget hash target = true) :
    topBits hash * (targetToDifficulty target).toNat < 2 ^ 64 := by
  obtain ⟨_, hle⟩ := (meetsTarget_full h).mp hmeets
  rw [toNat_targetToDifficulty_full h]
  calc topBits hash * ((2 ^ 64 - 1) / targetValue target)
      ≤ targetValue target * ((2 ^ 64 - 1) / targetValue target) := Nat.mul_le_mul_right _ hle
    _ ≤ 2 ^ 64 - 1 := Nat.mul_div_le _ _
    _ < 2 ^ 64 := by decide

theorem topBits_mul_lt_compact (h : target.length = 4) (hmeets : meetsTarget hash target = true) :
    topBits hash / 2 ^ 32 * (targetToDifficulty target).toNat < 2 ^ 32 := by
  obtain ⟨h0, hle⟩ := (meetsTarget_compact h).mp hmeets
  rw [toNat_targetToDifficulty_compact h, if_neg h0]
  calc topBits hash / 2 ^ 32 * ((2 ^ 32 - 1) / targetValue target)
      ≤ targetValue target * ((2 ^ 32 - 1) / targetValue target) := Nat.mul_le_mul_right _ hle
    _ ≤ 2 ^ 32 - 1 := Nat.mul_div_le _ _
    _ < 2 ^ 32 := by decide

/-- Below a compact target, the lower bits of the hash do not matter. -/
theorem topBits_mul_lt_of_lt (h : target.length = 4) (hlt : topBits hash / 2 ^ 32 < targetValue target) :
    topBits hash * (targetToDifficulty target).toNat < 2 ^ 64 := by
  have hup : topBits hash < (topBits hash / 2 ^ 32 + 1) * 2 ^ 32 := by omega
  rw [toNat_targetToDifficulty_compact h, if_neg (by omega)]
  calc topBits hash * ((2 ^ 32 - 1) / targetValue target)
      ≤ (targetValue target * 2 ^ 32) * ((2 ^ 32 - 1) / targetValue target) :=
        Nat.mul_le_mul_right _ (Nat.le_trans (Nat.le_of_lt hup) (Nat.mul_le_mul_right _ hlt))
    _ = targetValue target * ((2 ^ 32 - 1) / targetValue target) * 2 ^ 32 := Nat.mul_right_comm _ _ _
    _ ≤ (2 ^ 32 - 1) * 2 ^ 32 := Nat.mul_le_mul_right _ (Nat.mul_div_le _ _)
    _ < 2 ^ 64 := by decide

theorem meetsTarget_mono (hwidth : target.length = 4 ∨ target.length = 8) (hsame : target'.length = target.length)
    (hhash : topBits hash' ≤ topBits hash) (htarget : targetValue target ≤ targetValue target')
    (hmeets : meetsTarget hash target = true) : meetsTarget hash' target' = true := by
  rcases hwidth with h | h
  · obtain ⟨h0, hle⟩ := (meetsTarget_compact h).mp hmeets
    have hdiv : topBits hash' / 2 ^ 32 ≤ topBits hash / 2 ^ 32 := Nat.div_le_div_right hhash
    exact (meetsTarget_compact (hsame.trans h)).mpr ⟨by omega, by omega⟩
  · obtain ⟨h0, hle⟩ := (meetsTarget_full h).mp hmeets
    exact (meetsTarget_full (hsame.trans h)).mpr ⟨by omega, by omega⟩

theorem targetToDifficulty_antitone (hwidth : target.length = 4 ∨ target.length = 8 ∧ targetValue target ≠ 0)
    (hsame : target'.length = target.length) (htarget : targetValue target ≤ targetValue target') :
    (targetToDifficulty target').toNat ≤ (targetToDifficulty target).toNat := by
  rcases hwidth with h | ⟨h, h0⟩
  · rw [toNat_targetToDifficulty_compact h, toNat_targetToDifficulty_compact (hsame.trans h)]
    by_cases h0 : targetValue target = 0
    · rw [if_pos h0]
      split
      · exact Nat.le_refl _
      · exact Nat.le_trans (Nat.div_le_self _ _) (by decide)
    · rw [if_neg h0, if_neg (by omega)]
      exact Nat.div_le_div_left htarget (Nat.pos_of_ne_zero h0)
  · rw [toNat_targetToDifficulty_full h, toNat_targetToDifficulty_full (hsame.trans h)]
    exact Nat.div_le_div_left htarget (Nat.pos_of_ne_zero h0)

/-- **Targets and difficulties agree.** A hash that meets a target has its difficulty: all of its top 64 bits for a
    full target, and for a compact one unless the top 32 bits are equal to it, where only these are known to. A
    smaller hash or a larger target of the same width is met as well. The difficulty falls with the target; a full
    target of zero is left out. -/
theorem target_difficulty_agree (hwidth : target.length = 4 ∨ target.length = 8)
    (hsame : target'.length = target.length) :
    (meetsTarget hash target = true →
      (target.length = 8 ∨ topBits hash / 2 ^ 32 ≠ targetValue target →
        topBits hash * (targetToDifficulty target).toNat < 2 ^ 64) ∧
      (target.length = 4 → topBits hash / 2 ^ 32 * (targetToDifficulty target).toNat < 2 ^ 32)) ∧
    (topBits hash' ≤ topBits hash → targetValue target ≤ targetValue target' →
      meetsTarget hash target = true → meetsTarget hash' target' = true) ∧
    (target.length = 4 ∨ targetValue target ≠ 0 → targetValue target ≤ targetValue target' →
      (targetToDifficulty target').toNat ≤ (targetToDifficulty target).toNat) := by
  refine ⟨?_, meetsTarget_mono hwidth hsame, ?_⟩
  · intro hmeets
    refine ⟨?_, fun h => topBits_mul_lt_compact h hmeets⟩
    intro hwhole
    rcases hwidth with h | h
    · obtain ⟨_, hle⟩ := (meetsTarget_compact h).mp hmeets
      exact topBits_mul_lt_of_lt h (by omega)
    · exact topBits_mul_lt_full h hmeets
  · intro hnonzero
    refine targetToDifficulty_antitone ?_ hsame
    omega

/-- A hash with this word at the top, and ones below. -/
def hashWithTop (top : Word) : Vector Byte 32 :=
  Vector.ofFn fun i : Fin 32 => if 24 ≤ i.val then byteOf top (i - 24) else 1

/-- A hash below a compact target, a smaller hash and a larger target. -/
theorem target_difficulty_agree_sample :
    let hash := hashWithTop 0x500000007
    let hash' := hashWithTop 0x300000009
    let target : List Byte := [16, 0, 0, 0]
    let target' : List Byte := [255, 1, 0, 0]
    meetsTarget hash target = true ∧ topBits hash * (targetToDifficulty target).toNat < 2 ^ 64 ∧
      topBits hash / 2 ^ 32 * (targetToDifficulty target).toNat < 2 ^ 32 ∧ meetsTarget hash' target' = true ∧
      (targetToDifficulty target').toNat ≤ (targetToDifficulty target).toNat := by
  intro hash hash' target target'
  obtain ⟨hdifficulty, hmono, hanti⟩ := @target_difficulty_agree hash hash' target target' (.inl rfl) rfl
  have hmeets : meetsTarget hash target = true := by decide
  obtain ⟨hwhole, htop⟩ := hdifficulty hmeets
  exact ⟨hmeets, hwhole (by decide), htop rfl, hmono (by decide) (by decide) hmeets, hanti (by decide) (by decide)⟩

/-- A hash of top bits `2 ^ 33 - 1` meets the compact target 1, whose difficulty is `2 ^ 32 - 1`. -/
def boundaryHash : Vector Byte 32 :=
  Vector.ofFn fun i : Fin 32 => if 24 ≤ i.val ∧ i.val < 28 then 255 else if i.val = 28 then 1 else 0

/-- With equal top bits the whole hash may be of less difficulty, and a full target of zero has difficulty 0, not
    the largest one. -/
theorem compact_target_boundary :
    (meetsTarget boundaryHash [1, 0, 0, 0] = true ∧
      ¬ topBits boundaryHash * (targetToDifficulty [1, 0, 0, 0]).toNat < 2 ^ 64) ∧
    (targetValue (List.replicate 8 0) ≤ targetValue (1 :: List.replicate 7 0) ∧
      ¬ (targetToDifficulty (1 :: List.replicate 7 0)).toNat ≤ (targetToDifficulty (List.replicate 8 0)).toNat) := by
  decide

end Miner
end MinerTim
