import MinerTim.Lib.Arm64.LogicalImm
import MinerTim.RandomX.Jit.EmitterSpec

/-!
# `RandomX.Jit.BitmaskSpec` — `encode_bitmask_imm` finds every logical immediate

The search has two loops. The first halves the element size while the halves agree: it ends at the smallest
period (`exists_elementSize`), which for a rotated run is the size of its elements. The second tries the
rotations in turn: `rotated` is what it compares, and the pattern turned back by its own rotation is a run of
ones from bit 0 (`rotated_eq_lowMask`). What is found is therefore a rotated run, whose fields decode to the
value, and a rotated run is always found.
-/

namespace MinerTim
namespace RandomX
namespace Emitter

open Arm64

/-! ## Masks and runs of ones -/

theorem getLsbD_lowMask {n i : Nat} (hi : i < 64) : (lowMask n).getLsbD i = decide (i < n) := by
  unfold lowMask
  split
  next h => rw [BitVec.getLsbD_allOnes, decide_eq_true hi, decide_eq_true (show i < n by omega)]
  next h =>
    have hpow : 2 ^ n < 2 ^ 64 := Nat.pow_lt_pow_right (by decide) (by omega)
    have hpos := Nat.two_pow_pos n
    have heq : (1#64 <<< n) - 1 = BitVec.ofNat 64 (2 ^ n - 1) := by
      apply BitVec.eq_of_toNat_eq
      have hone : (1#64 <<< n).toNat = 2 ^ n := by
        rw [BitVec.toNat_shiftLeft, Nat.shiftLeft_eq, BitVec.toNat_ofNat, Nat.one_mod_eq_one.mpr (by decide),
          Nat.one_mul, Nat.mod_eq_of_lt hpow]
      rw [BitVec.toNat_sub_of_le (by rw [BitVec.le_def, hone]; exact hpos), hone, BitVec.toNat_ofNat,
        Nat.mod_eq_of_lt (by omega)]
      rfl
    rw [heq, BitVec.getLsbD_ofNat, Nat.testBit_two_pow_sub_one]
    simp [hi]

/-- A run of ones that ends at bit `c`. -/
theorem trailingOnes_eq {v : Word} {c : Nat} (hc : c ≤ 64) (hones : ∀ i < c, v.getLsbD i = true)
    (hend : v.getLsbD c = false) : trailingOnes v = c := by
  have hsplit : List.range 64 = List.range c ++ List.range' c (64 - c) := by
    have happend := @List.range'_append_1 0 c (64 - c)
    rw [Nat.zero_add, Nat.add_sub_cancel' hc] at happend
    rw [List.range_eq_range', List.range_eq_range', happend]
  have hrest : (List.range' c (64 - c)).takeWhile (fun i => v.getLsbD i) = [] := by
    cases h : 64 - c with
    | zero => rfl
    | succ m => rw [List.range'_succ, List.takeWhile_cons_of_neg (by simp [hend])]
  rw [trailingOnes, hsplit, List.takeWhile_append_of_pos (fun i hi => hones i (List.mem_range.mp hi)),
    hrest, List.append_nil, List.length_range]

/-! ## The element size -/

/-- The comparison of the two halves, for a pattern of period `2 ^ (k + 1)`. -/
theorem halves_agree_iff {k : Nat} (hk : k + 1 ≤ 6) {v tmp : Word} (hper : Periodic (k + 1) v)
    (htmp : ∀ i < 2 ^ (k + 1), tmp.getLsbD i = v.getLsbD i) :
    tmp &&& lowMask (2 ^ k) = (tmp >>> 2 ^ k) &&& lowMask (2 ^ k) ↔ Periodic k v := by
  have hle := two_pow_le_64 hk
  have hdouble : 2 ^ (k + 1) = 2 * 2 ^ k := by rw [Nat.pow_succ, Nat.mul_comm]
  have hpos := Nat.two_pow_pos k
  constructor
  · intro heq
    have hhalf : ∀ i < 2 ^ k, v.getLsbD i = v.getLsbD (i + 2 ^ k) := by
      intro i hi
      have hbit := congrArg (BitVec.getLsbD · i) heq
      simp only [BitVec.getLsbD_and, BitVec.getLsbD_ushiftRight, getLsbD_lowMask (show i < 64 by omega),
        hi, decide_true, Bool.and_true] at hbit
      rw [htmp i (by omega), htmp _ (by omega), Nat.add_comm] at hbit
      exact hbit
    intro i hi
    have hlt := Nat.mod_lt i (Nat.two_pow_pos (k + 1))
    rw [hper i hi, ← Nat.mod_mod_of_dvd i (Nat.pow_dvd_pow 2 (Nat.le_succ k))]
    -- below `2 ^ (k + 1)` the upper half repeats the lower one
    generalize i % 2 ^ (k + 1) = j at hlt
    rw [mod_of_lt_two_mul (by omega)]
    split
    · rfl
    next hge =>
      have := hhalf (j - 2 ^ k) (by omega)
      rw [this, Nat.sub_add_cancel (Nat.le_of_not_lt hge)]
  · intro hv
    apply BitVec.eq_of_getLsbD_eq
    intro i hi
    simp only [BitVec.getLsbD_and, BitVec.getLsbD_ushiftRight, getLsbD_lowMask hi]
    by_cases hlow : i < 2 ^ k
    · rw [htmp i (by omega), htmp _ (by omega), hv (2 ^ k + i) (by omega), Nat.add_mod_left,
        Nat.mod_eq_of_lt hlow]
    · simp [hlow]

/-- **The first loop ends at the smallest period.** -/
theorem exists_elementSize {v : Word} {fuel k : Nat} {tmp : Word} (hfuel : k ≤ fuel + 1) (hpos : 1 ≤ k)
    (hk : k ≤ 6) (hper : Periodic k v) (htmp : ∀ i < 2 ^ k, tmp.getLsbD i = v.getLsbD i) :
    ∃ k', 1 ≤ k' ∧ k' ≤ k ∧ elementSize fuel (2 ^ k) tmp = 2 ^ k' ∧ Periodic k' v ∧
      ∀ j, j + 1 = k' → 1 ≤ j → ¬ Periodic j v := by
  induction fuel generalizing k tmp with
  | zero => exact ⟨k, hpos, Nat.le_refl k, rfl, hper, fun j hj hj1 => absurd hfuel (by omega)⟩
  | succ fuel ih =>
    obtain ⟨j, rfl⟩ : ∃ j, k = j + 1 := ⟨k - 1, by omega⟩
    have hhalf : 2 ^ (j + 1) / 2 = 2 ^ j := by
      rw [Nat.pow_succ, Nat.mul_div_cancel _ (by decide)]
    have hdouble : 2 ^ (j + 1) = 2 * 2 ^ j := by rw [Nat.pow_succ, Nat.mul_comm]
    have hle := two_pow_le_64 hk
    unfold elementSize
    rcases Nat.eq_zero_or_pos j with rfl | hj
    · exact ⟨1, Nat.le_refl 1, Nat.le_refl 1, rfl, hper, fun i hi hi1 => absurd hi (by omega)⟩
    have hbig : 2 < 2 ^ (j + 1) := by
      have : 2 ^ 1 ≤ 2 ^ j := Nat.pow_le_pow_right (by decide) hj
      omega
    rw [if_pos hbig]
    simp only [hhalf]
    by_cases hagree : tmp &&& lowMask (2 ^ j) = (tmp >>> 2 ^ j) &&& lowMask (2 ^ j)
    · -- the halves agree, so the size is halved once more
      have hperj := (halves_agree_iff hk hper htmp).mp hagree
      have htmpj : ∀ i < 2 ^ j, (tmp &&& lowMask (2 ^ j)).getLsbD i = v.getLsbD i := by
        intro i hi
        rw [BitVec.getLsbD_and, getLsbD_lowMask (by omega), htmp i (by omega)]
        simp [hi]
      obtain ⟨k', h1, hk', hsize, hper', hmin⟩ := ih (by omega) hj (by omega) hperj htmpj
      rw [if_pos hagree]
      exact ⟨k', h1, by omega, hsize, hper', hmin⟩
    · rw [if_neg hagree]
      -- they differ, so no smaller period is left
      refine ⟨j + 1, hpos, Nat.le_refl _, rfl, hper, ?_⟩
      intro i hi _ hperi
      obtain rfl : i = j := by omega
      exact hagree ((halves_agree_iff hk hper htmp).mpr hperi)

/-- For a rotated run, that is the size of its elements. -/
theorem elementSize_of_rotatedRun {k c r : Nat} {v : Word} (h : RotatedRun k c r v) :
    elementSize 5 64 v = 2 ^ k := by
  have hsix : Periodic 6 v := fun i hi => by
    rw [Nat.mod_eq_of_lt (show i < 2 ^ 6 from hi)]
  obtain ⟨k', h1, _, hsize, hper, hmin⟩ := @exists_elementSize v 5 6 v (by decide) (by decide)
    (by decide) hsix (fun i _ => rfl)
  have heq : k' = k := by
    rcases Nat.lt_trichotomy k' k with hlt | heq | hgt
    · obtain ⟨j, rfl⟩ : ∃ j, k = j + 1 := ⟨k - 1, by omega⟩
      exact absurd (hper.mono (by omega)) h.not_periodic
    · exact heq
    · have hshape := h.shape.size_pos
      exact absurd (h.periodic.mono (show k ≤ k' - 1 by omega)) (hmin (k' - 1) (by omega) (by omega))
  rw [← heq]
  exact hsize

/-! ## The rotation -/

/-- The pattern as the second loop compares it, turned right by `rot`. -/
def rotated (size : Nat) (mask pattern : Word) (rot : Nat) : Word :=
  if rot = 0 then pattern else ((pattern >>> rot) ||| (pattern <<< (size - rot))) &&& mask

theorem getLsbD_rotated {k rot i : Nat} {v : Word} (hk : k ≤ 6) (hrot : rot < 2 ^ k) (hi : i < 64) :
    (rotated (2 ^ k) (lowMask (2 ^ k)) (v &&& lowMask (2 ^ k)) rot).getLsbD i
      = (decide (i < 2 ^ k) && v.getLsbD ((i + rot) % 2 ^ k)) := by
  have hle := two_pow_le_64 hk
  have hpattern : ∀ j, (v &&& lowMask (2 ^ k)).getLsbD j = (decide (j < 2 ^ k) && v.getLsbD j) := by
    intro j
    by_cases hj : j < 64
    · rw [BitVec.getLsbD_and, getLsbD_lowMask hj, Bool.and_comm]
    · rw [BitVec.getLsbD_of_ge _ _ (by omega), BitVec.getLsbD_of_ge _ _ (by omega), Bool.and_false]
  unfold rotated
  split
  next h0 =>
    rw [hpattern, h0, Nat.add_zero]
    by_cases hlt : i < 2 ^ k
    · rw [Nat.mod_eq_of_lt hlt]
    · simp [hlt]
  next h0 =>
    rw [BitVec.getLsbD_and, getLsbD_lowMask hi, BitVec.getLsbD_or, BitVec.getLsbD_ushiftRight,
      BitVec.getLsbD_shiftLeft, hpattern, hpattern, Bool.and_comm]
    by_cases hlt : i < 2 ^ k
    · rw [mod_of_lt_two_mul (by omega), Nat.add_comm rot i]
      -- bit `i` comes from `i + rot`, around the end of the element
      by_cases hwrap : i + rot < 2 ^ k
      · simp [hlt, hwrap, show i < 2 ^ k - rot by omega]
      · have hback : i - (2 ^ k - rot) = i + rot - 2 ^ k := by omega
        simp [hlt, hwrap, hi, show ¬ i < 2 ^ k - rot by omega, hback,
          show i + rot - 2 ^ k < 2 ^ k by omega]
    · simp [hlt]

/-- The rotation that brings the run to bit 0. -/
theorem rotated_eq_lowMask {k c r rot : Nat} {v : Word} (h : RotatedRun k c r v) (hrot : rot < 2 ^ k)
    (hback : (rot + r) % 2 ^ k = 0) :
    rotated (2 ^ k) (lowMask (2 ^ k)) (v &&& lowMask (2 ^ k)) rot = lowMask c := by
  have hle := two_pow_le_64 h.shape.size_le
  have hc := h.shape.run_lt
  apply BitVec.eq_of_getLsbD_eq
  intro i hi
  have hlt := Nat.mod_lt (i + rot) (Nat.two_pow_pos k)
  rw [getLsbD_rotated h.shape.size_le hrot hi, getLsbD_lowMask hi, h.bits _ (by omega), Nat.mod_add_mod,
    Nat.add_assoc, Nat.add_mod, hback, Nat.add_zero, Nat.mod_mod]
  by_cases hin : i < 2 ^ k
  · simp [hin, Nat.mod_eq_of_lt hin]
  · simp [hin, show ¬ i < c by omega]

/-- The second loop, with the value it compares named. -/
theorem findRotation_eq (size : Nat) (mask pattern : Word) :
    findRotation size mask pattern = (List.range size).findSome? fun rot =>
      let trail := min (trailingOnes (rotated size mask pattern rot)) size
      if rotated size mask pattern rot = lowMask trail &&& mask ∧ 0 < trail then some (trail, rot)
      else none := rfl

/-- **A rotated run is found.** -/
theorem findRotation_of_rotatedRun {k c r : Nat} {v : Word} (h : RotatedRun k c r v) :
    findRotation (2 ^ k) (lowMask (2 ^ k)) (v &&& lowMask (2 ^ k)) ≠ none := by
  have hle := two_pow_le_64 h.shape.size_le
  have hc := h.shape.run_lt
  have hpos := h.shape.run_pos
  have hr := h.shape.rotation_lt
  rw [findRotation_eq]
  intro hnone
  have hrot : (2 ^ k - r) % 2 ^ k < 2 ^ k := Nat.mod_lt _ (Nat.two_pow_pos k)
  have hfail := List.findSome?_eq_none_iff.mp hnone _ (List.mem_range.mpr hrot)
  have hback : ((2 ^ k - r) % 2 ^ k + r) % 2 ^ k = 0 := by
    rw [Nat.mod_add_mod, Nat.sub_add_cancel hr.le, Nat.mod_self]
  have htrail : trailingOnes (lowMask c) = c := by
    refine trailingOnes_eq (by omega) (fun i hi => ?_) ?_
    · rw [getLsbD_lowMask (by omega)]
      exact decide_eq_true hi
    · rw [getLsbD_lowMask (by omega)]
      exact decide_eq_false (Nat.lt_irrefl c)
  have hmasked : lowMask c = lowMask c &&& lowMask (2 ^ k) := by
    apply BitVec.eq_of_getLsbD_eq
    intro i hi
    rw [BitVec.getLsbD_and, getLsbD_lowMask hi, getLsbD_lowMask hi, ← Bool.decide_and, decide_eq_decide]
    omega
  simp only [rotated_eq_lowMask h hrot hback, htrail, Nat.min_eq_left hc.le] at hfail
  rw [if_pos ⟨hmasked, hpos⟩] at hfail
  cases hfail

/-- **What is found is a rotated run**, for a value whose period the element size is. -/
theorem rotatedRun_of_findRotation {k : Nat} {v : Word} (hpos : 1 ≤ k) (hk : k ≤ 6) (hper : Periodic k v)
    (hne : v ≠ BitVec.allOnes 64) {ones rotation : Nat}
    (h : findRotation (2 ^ k) (lowMask (2 ^ k)) (v &&& lowMask (2 ^ k)) = some (ones, rotation)) :
    rotation < 2 ^ k ∧ RotatedRun k ones (if rotation = 0 then 0 else 2 ^ k - rotation) v := by
  have hle := two_pow_le_64 hk
  rw [findRotation_eq] at h
  obtain ⟨rot, hmem, hsome⟩ := List.exists_of_findSome?_eq_some h
  have hrot := List.mem_range.mp hmem
  simp only at hsome
  split_ifs at hsome with hrun
  cases hsome
  generalize htrail : min (trailingOnes (rotated (2 ^ k) (lowMask (2 ^ k)) (v &&& lowMask (2 ^ k)) rotation))
    (2 ^ k) = ones at hrun
  have hones : ones ≤ 2 ^ k := by omega
  have hbits : ∀ i < 2 ^ k, v.getLsbD ((i + rotation) % 2 ^ k) = decide (i < ones) := by
    intro i hi
    have hbit := congrArg (BitVec.getLsbD · i) hrun.1
    simp only [getLsbD_rotated hk hrot (show i < 64 by omega), BitVec.getLsbD_and,
      getLsbD_lowMask (show i < 64 by omega), hi, decide_true, Bool.true_and, Bool.and_true] at hbit
    exact hbit
  -- the bit of the value at `j` is the one the rotation brings to `j - rotation`
  have hback : ∀ j < 64, v.getLsbD j
      = decide ((j + if rotation = 0 then 0 else 2 ^ k - rotation) % 2 ^ k < ones) := by
    intro j hj
    have hturn : ((j + if rotation = 0 then 0 else 2 ^ k - rotation) % 2 ^ k + rotation) % 2 ^ k
        = j % 2 ^ k := by
      rw [Nat.mod_add_mod]
      split
      next h0 => rw [h0]; rfl
      next h0 =>
        rw [show j + (2 ^ k - rotation) + rotation = j + 2 ^ k by omega, Nat.add_mod_right]
    rw [hper j hj, ← hturn, hbits _ (Nat.mod_lt _ (Nat.two_pow_pos k))]
  have hlt : ones < 2 ^ k := by
    refine Nat.lt_of_le_of_ne hones ?_
    rintro rfl
    apply hne
    apply BitVec.eq_of_getLsbD_eq
    intro j hj
    rw [hback j hj, BitVec.getLsbD_allOnes]
    simp [hj, Nat.mod_lt _ (Nat.two_pow_pos k)]
  refine ⟨hrot, ⟨hpos, hk, hrun.2, hlt, ?_⟩, hback⟩
  split <;> omega

/-! ## The fields -/

/-- `imms`, as `encode_bitmask_imm` assembles it: the complemented size bits over the run length less one. -/
def immsOf (k c : Nat) : Nat := ((~~~(BitVec.ofNat 32 (2 ^ k * 2 - 1)) &&& 0x3F).toNat ||| (c - 1)) &&& 0x3F

/-- `imms` holds both the element size and the run length. -/
theorem immsOf_fields {k c r : Nat} (h : RunShape k c r) :
    immsOf k c < 64 ∧ immsOf k c % 2 ^ k = c - 1 ∧
      ((if 2 ^ k = 64 then 1 else 0) * 64 + (63 - immsOf k c)).log2 = k := by
  have htable : ∀ k ∈ [1, 2, 3, 4, 5, 6], ∀ c < 2 ^ k, 0 < c →
      immsOf k c < 64 ∧ immsOf k c % 2 ^ k = c - 1 ∧
        ((if 2 ^ k = 64 then 1 else 0) * 64 + (63 - immsOf k c)).log2 = k := by decide +kernel
  have hk : k = 1 ∨ k = 2 ∨ k = 3 ∨ k = 4 ∨ k = 5 ∨ k = 6 := by
    have hpos := h.size_pos
    have hle := h.size_le
    omega
  exact htable k (by simpa using hk) c h.run_lt h.run_pos

/-- The fields of a rotated run decode to it. -/
theorem decode_fields {k c r : Nat} {v : Word} (h : RotatedRun k c r v) :
    decodeBitMasks (BitVec.ofNat 1 (if 2 ^ k = 64 then 1 else 0)) (BitVec.ofNat 6 r)
      (BitVec.ofNat 6 (immsOf k c)) = some v := by
  obtain ⟨hlt, hs, hlen⟩ := immsOf_fields h.shape
  have hle := two_pow_le_64 h.shape.size_le
  have hr := h.shape.rotation_lt
  have hn : (BitVec.ofNat 1 (if 2 ^ k = 64 then 1 else 0)).toNat = if 2 ^ k = 64 then 1 else 0 := by
    split <;> rfl
  have himms : (BitVec.ofNat 6 (immsOf k c)).toNat = immsOf k c := by
    rw [BitVec.toNat_ofNat, Nat.mod_eq_of_lt hlt]
  have himmr : (BitVec.ofNat 6 r).toNat = r := by
    rw [BitVec.toNat_ofNat, Nat.mod_eq_of_lt (by omega)]
  refine decode_of_rotatedRun h ?_ ?_ ?_
  · rw [hn, himms]
    exact hlen
  · rw [himms]
    exact hs
  · rw [himmr, Nat.mod_eq_of_lt hr]

/-- **What is encoded decodes to the value.** -/
theorem decode_of_encode {value : Word} {n immr imms : Nat}
    (h : encodeBitmaskImm value = some (n, immr, imms)) :
    n < 2 ∧ immr < 64 ∧ imms < 64 ∧
      decodeBitMasks (BitVec.ofNat 1 n) (BitVec.ofNat 6 immr) (BitVec.ofNat 6 imms) = some value := by
  have hsix : Periodic 6 value := fun i hi => by
    rw [Nat.mod_eq_of_lt (show i < 2 ^ 6 from hi)]
  obtain ⟨k, hpos, hk, hsize, hper, _⟩ := @exists_elementSize value 5 6 value (by decide) (by decide)
    (by decide) hsix (fun i _ => rfl)
  rw [show (2 : Nat) ^ 6 = 64 from rfl] at hsize
  have hle := two_pow_le_64 hk
  rw [encodeBitmaskImm] at h
  split_ifs at h with hzero
  rw [not_or] at hzero
  simp only [hsize] at h
  cases hfind : findRotation (2 ^ k) (lowMask (2 ^ k)) (value &&& lowMask (2 ^ k)) with
  | none =>
    rw [hfind] at h
    cases h
  | some found =>
    obtain ⟨ones, rotation⟩ := found
    obtain ⟨hrot, hrun⟩ := rotatedRun_of_findRotation hpos hk hper hzero.2 hfind
    rw [hfind] at h
    -- `immr` turns the run back by what the search turned it
    have himmr : (if rotation = 0 then 0 else (2 ^ k - rotation) &&& (2 ^ k - 1))
        = if rotation = 0 then 0 else 2 ^ k - rotation := by
      split
      · rfl
      · rw [Nat.and_two_pow_sub_one_eq_mod, Nat.mod_eq_of_lt (by omega)]
    simp only [himmr, Option.some.injEq, Prod.mk.injEq] at h
    obtain ⟨rfl, rfl, rfl⟩ := h
    have hr := hrun.shape.rotation_lt
    exact ⟨by split <;> decide, by omega, (immsOf_fields hrun.shape).1, decode_fields hrun⟩

/-- **Every logical immediate is encoded.** -/
theorem encode_of_rotatedRun {k c r : Nat} {v : Word} (h : RotatedRun k c r v) :
    encodeBitmaskImm v ≠ none := by
  rw [encodeBitmaskImm, if_neg (not_or.mpr ⟨h.ne_zero, h.ne_allOnes⟩)]
  simp only [elementSize_of_rotatedRun h]
  cases hfind : findRotation (2 ^ k) (lowMask (2 ^ k)) (v &&& lowMask (2 ^ k)) with
  | none => exact absurd hfind (findRotation_of_rotatedRun h)
  | some found => exact Option.some_ne_none _

/-! ## The two users -/

section Users

variable {fp : FpOps} {W : Word → Prop} {t : State} {rn tmp : Nat}

theorem isEncodable_of_encode {value : Word} (h : encodeBitmaskImm value ≠ none) :
    isEncodable value = true := by
  obtain ⟨fields, henc⟩ := Option.ne_none_iff_exists'.mp h
  rw [isEncodable, henc]
  simpa using (decode_of_encode henc).2.2.2

theorem straight_andReg (rd rn rm : Nat) :
    Straight fp W (andReg rd rn rm) t (t.setX rd (t.getX rn &&& t.getX rm)) :=
  straight_single rfl rfl rfl rfl

theorem straight_tstReg (rn rm : Nat) :
    Straight fp W [.andsReg 31 rn rm] t (t.setFlags (State.logicFlags (t.getX rn &&& t.getX rm))) :=
  straight_single rfl rfl rfl rfl

/-- **`and_bitmask` for any value**: nothing but the destination changes, and the temporary where the value
    has no encoding. -/
theorem exists_andBitmask {rd : Nat} (hrd : rd < 31) (hrn : rn < 31) (htmp : tmp < 31) (hne : tmp ≠ rn)
    (value : Word) : ∃ t', (t' = t ∨ t' = t.setX tmp value) ∧
      Straight fp W (andBitmask rd rn value tmp) t (t'.setX rd (t.x rn &&& value)) := by
  by_cases henc : encodeBitmaskImm value = none
  · refine ⟨t.setX tmp value, .inr rfl, ?_⟩
    unfold andBitmask
    rw [henc]
    have hand := @straight_andReg fp W (t.setX tmp value) rd rn tmp
    rw [State.getX_of_ne (by omega), State.getX_of_ne (by omega), State.x_setX_of_ne (by omega),
      State.x_setX_same (by omega)] at hand
    exact (straight_movImm64 (by omega) value).append hand
  · have hand := @straight_andBitmask fp W t rd (by omega) rn value (isEncodable_of_encode henc) tmp
    rw [State.getX_of_ne (by omega)] at hand
    exact ⟨t, .inl rfl, hand⟩

/-- **`tst_bitmask` for any value.** -/
theorem exists_tstBitmask (hrn : rn < 31) (htmp : tmp < 31) (hne : tmp ≠ rn) (value : Word) :
    ∃ t', (t' = t ∨ t' = t.setX tmp value) ∧
      Straight fp W (tstBitmask rn value tmp) t
        (t'.setFlags (State.logicFlags (t.x rn &&& value))) := by
  by_cases henc : encodeBitmaskImm value = none
  · refine ⟨t.setX tmp value, .inr rfl, ?_⟩
    unfold tstBitmask
    rw [henc]
    have htst := @straight_tstReg fp W (t.setX tmp value) rn tmp
    rw [State.getX_of_ne (by omega), State.getX_of_ne (by omega), State.x_setX_of_ne (by omega),
      State.x_setX_same (by omega)] at htst
    exact (straight_movImm64 (by omega) value).append htst
  · have htst := @straight_tstBitmask fp W t rn value (isEncodable_of_encode henc) tmp
    rw [State.getX_of_ne (by omega)] at htst
    exact ⟨t, .inl rfl, htst⟩

end Users

/-- **`encode_bitmask_imm` is sound and complete.** The fields it returns decode to the value; it returns none
    exactly for the values no fields name; and so the two methods that use it compute the conjunction with
    every value. -/
theorem encode_bitmask_imm_exact (value : Word) :
    (∀ n immr imms, encodeBitmaskImm value = some (n, immr, imms) →
      n < 2 ∧ immr < 64 ∧ imms < 64 ∧
        decodeBitMasks (BitVec.ofNat 1 n) (BitVec.ofNat 6 immr) (BitVec.ofNat 6 imms) = some value) ∧
    (encodeBitmaskImm value = none ↔ ∀ n immr imms, decodeBitMasks n immr imms ≠ some value) ∧
    ∀ (fp : FpOps) (W : Word → Prop) (t : State) (rd rn tmp : Nat),
      rd < 31 → rn < 31 → tmp < 31 → tmp ≠ rn →
      (∃ t', (t' = t ∨ t' = t.setX tmp value) ∧
        Straight fp W (andBitmask rd rn value tmp) t (t'.setX rd (t.x rn &&& value))) ∧
      ∃ t', (t' = t ∨ t' = t.setX tmp value) ∧
        Straight fp W (tstBitmask rn value tmp) t
          (t'.setFlags (State.logicFlags (t.x rn &&& value))) := by
  refine ⟨fun n immr imms => decode_of_encode, ⟨?_, ?_⟩, ?_⟩
  · intro hnone n immr imms hdec
    obtain ⟨k, c, r, hrun⟩ := rotatedRun_of_decode hdec
    exact encode_of_rotatedRun hrun hnone
  · intro hall
    by_contra hsome
    obtain ⟨⟨n, immr, imms⟩, henc⟩ := Option.ne_none_iff_exists'.mp hsome
    exact hall _ _ _ (decode_of_encode henc).2.2.2
  · intro fp W t rd rn tmp hrd hrn htmp hne
    exact ⟨exists_andBitmask hrd hrn htmp hne value, exists_tstBitmask hrn htmp hne value⟩

/-- The mask of the L3 scratchpad has an encoding, and `0b101` has none. -/
theorem encode_bitmask_imm_exact_l3 :
    (encodeBitmaskImm 0x1FFFF8 = some (1, 61, 17) ∧ decodeBitMasks 1 61 17 = some 0x1FFFF8) ∧
      ∀ n immr imms, decodeBitMasks n immr imms ≠ some 5 :=
  ⟨⟨by decide +kernel, ((encode_bitmask_imm_exact 0x1FFFF8).1 1 61 17 (by decide +kernel)).2.2.2⟩,
    (encode_bitmask_imm_exact 5).2.1.mp (by decide +kernel)⟩

end Emitter
end RandomX
end MinerTim
