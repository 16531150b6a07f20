import MinerTim.Lib.Arm64.Machine

/-!
# `Lib.Arm64.LogicalImm` — the values a logical immediate can name

A logical immediate is a **rotated run**: an element of `2 ^ k` bits, `c` ones rotated right by `r`, copied
over the 64 bits. `RotatedRun` states this bit by bit, and the two directions of the connection to
`decodeBitMasks` are `rotatedRun_of_decode` and `exists_decode`. `RotatedRun.periodic` and
`RotatedRun.not_periodic` say that the element size is the smallest period, which is what lets an encoder
look for the period first and for the rotation after it.
-/

namespace MinerTim
namespace Arm64

/-! ## Rotated runs -/

/-- The element size, run length and rotation a logical immediate may have. -/
structure RunShape (k c r : Nat) : Prop where
  size_pos : 1 ≤ k
  size_le : k ≤ 6
  run_pos : 0 < c
  run_lt : c < 2 ^ k
  rotation_lt : r < 2 ^ k

/-- `v` is `c` ones rotated right by `r` in each element of `2 ^ k` bits. -/
structure RotatedRun (k c r : Nat) (v : Word) : Prop where
  shape : RunShape k c r
  bits : ∀ i < 64, v.getLsbD i = decide ((i + r) % 2 ^ k < c)

/-- Two bits a period apart are equal. -/
def Periodic (k : Nat) (v : Word) : Prop := ∀ i < 64, v.getLsbD i = v.getLsbD (i % 2 ^ k)

theorem two_pow_le_64 {k : Nat} (h : k ≤ 6) : 2 ^ k ≤ 64 :=
  Nat.pow_le_pow_right (by decide) h

/-- A sum of two residues wraps around at most once. -/
theorem mod_of_lt_two_mul {n e : Nat} (h : n < 2 * e) : n % e = if n < e then n else n - e := by
  split
  next hlt => exact Nat.mod_eq_of_lt hlt
  next hge => rw [Nat.mod_eq_sub_mod (by omega), Nat.mod_eq_of_lt (by omega)]

/-- A period is also a period when doubled. -/
theorem Periodic.succ {k : Nat} {v : Word} (h : Periodic k v) : Periodic (k + 1) v := by
  intro i hi
  have hle : i % 2 ^ (k + 1) ≤ i := Nat.mod_le _ _
  rw [h i hi, h (i % 2 ^ (k + 1)) (by omega), Nat.mod_mod_of_dvd _ (Nat.pow_dvd_pow 2 (Nat.le_succ k))]

theorem Periodic.mono {k k' : Nat} {v : Word} (h : Periodic k v) (hle : k ≤ k') : Periodic k' v := by
  induction hle with
  | refl => exact h
  | step _ ih => exact ih.succ

namespace RotatedRun

variable {k c r : Nat} {v w : Word}

/-- The three numbers determine the value. -/
theorem unique (hv : RotatedRun k c r v) (hw : RotatedRun k c r w) : v = w := by
  apply BitVec.eq_of_getLsbD_eq
  intro i hi
  rw [hv.bits i hi, hw.bits i hi]

theorem periodic (h : RotatedRun k c r v) : Periodic k v := by
  intro i hi
  have hlt : i % 2 ^ k < 64 := by
    have := Nat.mod_le i (2 ^ k)
    omega
  rw [h.bits i hi, h.bits _ hlt, Nat.mod_add_mod]

/-- The bit at position `j` of the run, counted from the rotation. -/
theorem getLsbD_from_rotation (h : RotatedRun k c r v) {j : Nat} (hj : j < 2 ^ k) :
    v.getLsbD ((j + (2 ^ k - r)) % 2 ^ k) = decide (j < c) := by
  have hr := h.shape.rotation_lt
  have hle := two_pow_le_64 h.shape.size_le
  have hlt : (j + (2 ^ k - r)) % 2 ^ k < 64 :=
    Nat.lt_of_lt_of_le (Nat.mod_lt _ (Nat.two_pow_pos k)) hle
  rw [h.bits _ hlt, Nat.mod_add_mod, show j + (2 ^ k - r) + r = j + 2 ^ k by omega,
    Nat.add_mod_right, Nat.mod_eq_of_lt hj]

/-- **The element size is the smallest period**: half of it is none, since one of the two ends of the run
    would then have to be both set and clear. -/
theorem not_periodic (h : RotatedRun (k + 1) c r v) : ¬ Periodic k v := by
  intro hper
  have hpos := h.shape.run_pos
  have hlt := h.shape.run_lt
  have hle := two_pow_le_64 h.shape.size_le
  have hhalf : 2 ^ (k + 1) = 2 * 2 ^ k := by rw [Nat.pow_succ, Nat.mul_comm]
  have hkpos := Nat.two_pow_pos k
  -- bits `j` and `j + 2 ^ k` of the run agree
  have hagree : ∀ j < 2 ^ k, (j < c ↔ j + 2 ^ k < c) := by
    intro j hj
    have hlow := h.getLsbD_from_rotation (show j < 2 ^ (k + 1) by omega)
    have hhigh := h.getLsbD_from_rotation (show j + 2 ^ k < 2 ^ (k + 1) by omega)
    have hmod : ∀ a, a % 2 ^ (k + 1) < 64 := fun a =>
      Nat.lt_of_lt_of_le (Nat.mod_lt _ (Nat.two_pow_pos _)) hle
    have hdvd : 2 ^ k ∣ 2 ^ (k + 1) := Nat.pow_dvd_pow 2 (Nat.le_succ k)
    rw [hper _ (hmod _), Nat.mod_mod_of_dvd _ hdvd] at hlow hhigh
    rw [show j + 2 ^ k + (2 ^ (k + 1) - r) = j + (2 ^ (k + 1) - r) + 2 ^ k by omega,
      Nat.add_mod_right, hlow] at hhigh
    exact decide_eq_decide.mp hhigh
  have hfirst := hagree 0 hkpos
  have hlast := hagree (2 ^ k - 1) (by omega)
  omega

/-- Neither the zero word nor the word of ones is a rotated run. -/
theorem ne_zero (h : RotatedRun k c r v) : v ≠ 0 := by
  rintro rfl
  have hbit := h.getLsbD_from_rotation (Nat.two_pow_pos k)
  simp [h.shape.run_pos] at hbit

theorem ne_allOnes (h : RotatedRun k c r v) : v ≠ BitVec.allOnes 64 := by
  rintro rfl
  have hle := two_pow_le_64 h.shape.size_le
  have hbit := h.getLsbD_from_rotation h.shape.run_lt
  have hlt : (c + (2 ^ k - r)) % 2 ^ k < 64 :=
    Nat.lt_of_lt_of_le (Nat.mod_lt _ (Nat.two_pow_pos k)) hle
  rw [BitVec.getLsbD_allOnes] at hbit
  simp [hlt] at hbit

end RotatedRun

/-! ## Copies of an element -/

/-- A one at the bottom of each of `n` elements of `e` bits. -/
def copies (e : Nat) : Nat → Nat
  | 0 => 0
  | n + 1 => 1 + 2 ^ e * copies e n

/-- Every element of the product is the element. -/
theorem testBit_mul_copies {e x : Nat} (hx : x < 2 ^ e) (n : Nat) {i : Nat} (hi : i < e * n) :
    (x * copies e n).testBit i = x.testBit (i % e) := by
  induction n generalizing i with
  | zero => simp at hi
  | succ n ih =>
    have hsplit : x * copies e (n + 1) = 2 ^ e * (x * copies e n) + x := by
      rw [copies]
      ring
    rw [hsplit, Nat.testBit_two_pow_mul_add _ hx]
    split
    next hlow => rw [Nat.mod_eq_of_lt hlow]
    next hhigh =>
      rw [ih (by rw [Nat.mul_succ] at hi; omega), Nat.mod_eq_sub_mod (Nat.le_of_not_lt hhigh)]

/-- The quotient `decodeBitMasks` multiplies by. -/
theorem div_eq_copies {k : Nat} (hpos : 1 ≤ k) (hle : k ≤ 6) :
    (2 ^ 64 - 1) / (2 ^ 2 ^ k - 1) = copies (2 ^ k) (2 ^ (6 - k)) := by
  have htable : ∀ k ∈ [1, 2, 3, 4, 5, 6],
      (2 ^ 64 - 1) / (2 ^ 2 ^ k - 1) = copies (2 ^ k) (2 ^ (6 - k)) := by decide +kernel
  refine htable k ?_
  have : k = 1 ∨ k = 2 ∨ k = 3 ∨ k = 4 ∨ k = 5 ∨ k = 6 := by omega
  simpa using this

/-- The element of `decodeBitMasks`: a run of `c` ones rotated right by `r`. -/
theorem testBit_rotated_run {e c r i : Nat} (hc : c ≤ e) (hr : r < e) (hi : i < e) :
    (((2 ^ c - 1) >>> r ||| (2 ^ c - 1) <<< (e - r)) % 2 ^ e).testBit i
      = decide ((i + r) % e < c) := by
  simp only [Nat.testBit_mod_two_pow, Nat.testBit_or, Nat.testBit_shiftRight, Nat.testBit_shiftLeft,
    Nat.testBit_two_pow_sub_one, hi, decide_true, Bool.true_and]
  rw [mod_of_lt_two_mul (by omega), ← Bool.decide_and, ← Bool.decide_or, decide_eq_decide]
  split <;> omega

/-! ## The architecture's decoding -/

/-- **What a triple of fields names**, where the highest set bit of `N:NOT(imms)` is bit `k`. -/
theorem exists_decode_fields {n : BitVec 1} {immr imms : BitVec 6} {k : Nat}
    (hlen : (n.toNat * 64 + (63 - imms.toNat)).log2 = k) (hpos : 1 ≤ k)
    (hs : imms.toNat % 2 ^ k ≠ 2 ^ k - 1) :
    ∃ v, decodeBitMasks n immr imms = some v ∧
      RotatedRun k (imms.toNat % 2 ^ k + 1) (immr.toNat % 2 ^ k) v := by
  have hn := n.isLt
  have hi := imms.isLt
  have hv0 : n.toNat * 64 + (63 - imms.toNat) ≠ 0 := by
    intro h0
    rw [h0, Nat.log2_zero] at hlen
    omega
  have hv2 : 2 ≤ n.toNat * 64 + (63 - imms.toNat) := by
    have hle := (Nat.log2_eq_iff hv0).mp hlen
    have : 2 ^ 1 ≤ 2 ^ k := Nat.pow_le_pow_right (by decide) hpos
    omega
  have hk6 : k ≤ 6 := by
    have hlt := (Nat.log2_lt hv0 (k := 7)).mpr (by omega)
    omega
  have hkpos := Nat.two_pow_pos k
  -- the run is shorter than the element: the all-ones pattern is reserved
  have hrun : imms.toNat % 2 ^ k + 1 < 2 ^ k := by
    have := Nat.mod_lt imms.toNat hkpos
    omega
  have hdec : decodeBitMasks n immr imms = some (BitVec.ofNat 64
      (((2 ^ (imms.toNat % 2 ^ k + 1) - 1) >>> (immr.toNat % 2 ^ k)
        ||| (2 ^ (imms.toNat % 2 ^ k + 1) - 1) <<< (2 ^ k - immr.toNat % 2 ^ k)) % 2 ^ 2 ^ k
        * ((2 ^ 64 - 1) / (2 ^ 2 ^ k - 1)))) := by
    rw [decodeBitMasks]
    simp only [hlen, Nat.and_two_pow_sub_one_eq_mod]
    rw [if_neg (by omega)]
  refine ⟨_, hdec, ⟨hpos, hk6, Nat.succ_pos _, hrun, Nat.mod_lt _ hkpos⟩, ?_⟩
  · intro i hi64
    rw [BitVec.getLsbD_ofNat, div_eq_copies hpos hk6, testBit_mul_copies (Nat.mod_lt _ (Nat.two_pow_pos _)),
      testBit_rotated_run hrun.le (Nat.mod_lt _ hkpos) (Nat.mod_lt _ hkpos), Nat.mod_add_mod]
    · simp [hi64]
    · rw [← Nat.pow_add, show k + (6 - k) = 6 by omega]
      exact hi64

/-- **Every logical immediate is a rotated run.** -/
theorem rotatedRun_of_decode {n : BitVec 1} {immr imms : BitVec 6} {v : Word}
    (h : decodeBitMasks n immr imms = some v) : ∃ k c r, RotatedRun k c r v := by
  have hdef : 2 ≤ n.toNat * 64 + (63 - imms.toNat) ∧
      imms.toNat % 2 ^ (n.toNat * 64 + (63 - imms.toNat)).log2
        ≠ 2 ^ (n.toNat * 64 + (63 - imms.toNat)).log2 - 1 := by
    rw [decodeBitMasks] at h
    simp only [Nat.and_two_pow_sub_one_eq_mod] at h
    split_ifs at h with hres
    rw [not_or] at hres
    exact ⟨by omega, hres.2⟩
  have hpos : 1 ≤ (n.toNat * 64 + (63 - imms.toNat)).log2 :=
    (Nat.le_log2 (by omega)).mpr hdef.1
  obtain ⟨w, hw, hrun⟩ := @exists_decode_fields n immr imms _ rfl hpos hdef.2
  rw [h] at hw
  cases hw
  exact ⟨_, _, _, hrun⟩

/-- **Every rotated run is a logical immediate**: any fields whose low `k` bits are the rotation and the run
    length less one name it. -/
theorem decode_of_rotatedRun {k c r : Nat} {v : Word} (h : RotatedRun k c r v) {n : BitVec 1}
    {immr imms : BitVec 6} (hlen : (n.toNat * 64 + (63 - imms.toNat)).log2 = k)
    (hs : imms.toNat % 2 ^ k = c - 1) (hr : immr.toNat % 2 ^ k = r) :
    decodeBitMasks n immr imms = some v := by
  have hpos := h.shape.run_pos
  have hlt := h.shape.run_lt
  obtain ⟨w, hw, hrun⟩ := @exists_decode_fields n immr imms k hlen h.shape.size_pos (by omega)
  rw [hs, hr, Nat.sub_add_cancel hpos] at hrun
  rw [hw, hrun.unique h]

end Arm64
end MinerTim
