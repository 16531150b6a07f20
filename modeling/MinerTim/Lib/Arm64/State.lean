import MinerTim.Lib.Arm64.Machine

/-!
# `Lib.Arm64.State` — reading a machine state after it was written

The small lemmas of `Lib.Arm64.Machine`:

* a register, a flag or a byte of memory after a write to this or another one: the simp set that evaluates a
  fragment of code on a symbolic state;
* regions of memory (`InRegion`, `Apart`) and what they hold (`State.Holds`), with the loads and the stores
  inside and outside them.
-/

namespace MinerTim
namespace Arm64

namespace State

/-! ## Reads after writes -/

variable {s : State} {n m : Nat} {v w : Word}

theorem getX_of_ne (h : n ≠ 31) : s.getX n = s.x n := if_neg h
@[simp] theorem getX_zr : s.getX 31 = 0 := if_pos rfl
theorem getXSp_of_ne (h : n ≠ 31) : s.getXSp n = s.x n := if_neg h
@[simp] theorem getXSp_sp : s.getXSp 31 = s.sp := if_pos rfl
theorem setXSp_of_ne (h : n ≠ 31) : s.setXSp n v = s.setX n v := by rw [setXSp, setX, if_neg h, if_neg h]

theorem x_setX (h : n ≠ 31) : (s.setX n v).x m = if m = n then v else s.x m := by
  rw [setX, if_neg h]

theorem x_setX_same (h : n ≠ 31) : (s.setX n v).x n = v := by
  rw [x_setX h, if_pos rfl]

theorem x_setX_of_ne (h : m ≠ n) : (s.setX n v).x m = s.x m := by
  unfold setX
  split
  · rfl
  · exact if_neg h

theorem setX_setX (s : State) (n : Nat) (v w : Word) : (s.setX n v).setX n w = s.setX n w := by
  unfold setX
  split
  · rfl
  · simp only [State.mk.injEq, and_true]
    funext m
    split <;> rfl

theorem setX_setD (s : State) (m n : Nat) (v w : Word) : (s.setD m v).setX n w = (s.setX n w).setD m v := by
  unfold setX setD
  split <;> rfl

theorem setX_comm (h : n ≠ m) : (s.setX n v).setX m w = (s.setX m w).setX n v := by
  unfold setX
  split <;> split <;> try rfl
  simp only [State.mk.injEq, and_true]
  funext k
  by_cases hk : k = n
  · simp [hk, h]
  · simp [hk]

@[simp] theorem sp_setX : (s.setX n v).sp = s.sp := by unfold setX; split <;> rfl
@[simp] theorem d_setX : (s.setX n v).d = s.d := by unfold setX; split <;> rfl
@[simp] theorem flags_setX : (s.setX n v).flags = s.flags := by unfold setX; split <;> rfl
@[simp] theorem fpcr_setX : (s.setX n v).fpcr = s.fpcr := by unfold setX; split <;> rfl
@[simp] theorem mem_setX : (s.setX n v).mem = s.mem := by unfold setX; split <;> rfl

@[simp] theorem x_setD : (s.setD n v).x = s.x := rfl
@[simp] theorem sp_setD : (s.setD n v).sp = s.sp := rfl
theorem d_setD : (s.setD n v).d m = if m = n then v else s.d m := rfl
@[simp] theorem d_setD_same : (s.setD n v).d n = v := if_pos rfl
theorem d_setD_of_ne (h : m ≠ n) : (s.setD n v).d m = s.d m := if_neg h
@[simp] theorem flags_setD : (s.setD n v).flags = s.flags := rfl
@[simp] theorem fpcr_setD : (s.setD n v).fpcr = s.fpcr := rfl
@[simp] theorem mem_setD : (s.setD n v).mem = s.mem := rfl

@[simp] theorem x_write : (s.write v w).x = s.x := rfl
@[simp] theorem sp_write : (s.write v w).sp = s.sp := rfl
@[simp] theorem d_write : (s.write v w).d = s.d := rfl
@[simp] theorem flags_write : (s.write v w).flags = s.flags := rfl
@[simp] theorem fpcr_write : (s.write v w).fpcr = s.fpcr := rfl

variable {f : Flags} {c : BitVec 32}

@[simp] theorem x_setFlags : (s.setFlags f).x = s.x := rfl
@[simp] theorem sp_setFlags : (s.setFlags f).sp = s.sp := rfl
@[simp] theorem d_setFlags : (s.setFlags f).d = s.d := rfl
@[simp] theorem flags_setFlags : (s.setFlags f).flags = f := rfl
@[simp] theorem fpcr_setFlags : (s.setFlags f).fpcr = s.fpcr := rfl
@[simp] theorem mem_setFlags : (s.setFlags f).mem = s.mem := rfl

@[simp] theorem x_setFpcr : (s.setFpcr c).x = s.x := rfl
@[simp] theorem sp_setFpcr : (s.setFpcr c).sp = s.sp := rfl
@[simp] theorem d_setFpcr : (s.setFpcr c).d = s.d := rfl
@[simp] theorem flags_setFpcr : (s.setFpcr c).flags = s.flags := rfl
@[simp] theorem fpcr_setFpcr : (s.setFpcr c).fpcr = c := rfl
@[simp] theorem mem_setFpcr : (s.setFpcr c).mem = s.mem := rfl

/-- Move the stack pointer. -/
def setSp (s : State) (v : Word) : State := { s with sp := v }

@[simp] theorem setXSp_sp : s.setXSp 31 v = s.setSp v := if_pos rfl
@[simp] theorem x_setSp : (s.setSp v).x = s.x := rfl
@[simp] theorem sp_setSp : (s.setSp v).sp = v := rfl
@[simp] theorem d_setSp : (s.setSp v).d = s.d := rfl
@[simp] theorem flags_setSp : (s.setSp v).flags = s.flags := rfl
@[simp] theorem fpcr_setSp : (s.setSp v).fpcr = s.fpcr := rfl
@[simp] theorem mem_setSp : (s.setSp v).mem = s.mem := rfl

theorem rmode_congr {s s' : State} (h : s.fpcr = s'.fpcr) : s.rmode = s'.rmode := by
  rw [rmode, rmode, h]

theorem read_congr {s s' : State} (h : s.mem = s'.mem) (a : Word) : s.read a = s'.read a := by
  rw [read, read, h]

end State

/-! ## Memory -/

/-- The `size` bytes from `base`. -/
def InRegion (base : Word) (size : Nat) (a : Word) : Prop := (a - base).toNat < size

/-- Two regions with no byte in common. -/
def Apart (base : Word) (size : Nat) (base' : Word) (size' : Nat) : Prop :=
  ∀ a, InRegion base size a → ¬ InRegion base' size' a

instance (base : Word) (size : Nat) (a : Word) : Decidable (InRegion base size a) :=
  inferInstanceAs (Decidable (_ < _))

section

variable {base base' : Word} {size size' off : Nat} {a : Word}

theorem Apart.symm (h : Apart base size base' size') : Apart base' size' base size :=
  fun a ha ha' => h a ha' ha

theorem toNat_add_sub_add (base : Word) {k off : Nat} (hk : k < 2 ^ 64) (hoff : off < 2 ^ 64) :
    (base + BitVec.ofNat 64 k - (base + BitVec.ofNat 64 off)).toNat
      = (2 ^ 64 - off + k) % 2 ^ 64 := by
  have hbase := base.isLt
  simp only [BitVec.toNat_sub, BitVec.toNat_add, BitVec.toNat_ofNat, Nat.mod_eq_of_lt hk,
    Nat.mod_eq_of_lt hoff]
  omega

theorem inRegion_add {k : Nat} (hk : k < 2 ^ 64) (hoff : off + size ≤ 2 ^ 64) (hsize : 0 < size) :
    InRegion (base + BitVec.ofNat 64 off) size (base + BitVec.ofNat 64 k)
      ↔ off ≤ k ∧ k < off + size := by
  unfold InRegion
  rw [toNat_add_sub_add base hk (by omega)]
  omega

theorem inRegion_iff : InRegion base size a ↔ ∃ k < size, k < 2 ^ 64 ∧ a = base + BitVec.ofNat 64 k := by
  constructor
  · intro h
    refine ⟨(a - base).toNat, h, (a - base).isLt, ?_⟩
    rw [BitVec.ofNat_toNat, BitVec.setWidth_eq, BitVec.add_comm, BitVec.sub_add_cancel]
  · rintro ⟨k, hk, hk', rfl⟩
    unfold InRegion
    rw [BitVec.add_comm, BitVec.add_sub_cancel, BitVec.toNat_ofNat, Nat.mod_eq_of_lt hk']
    exact hk

/-- A part of a region. -/
theorem InRegion.mono {n : Nat} (h : InRegion (base + BitVec.ofNat 64 off) n a)
    (hoff : off + n ≤ size) (hsize : size ≤ 2 ^ 64) : InRegion base size a := by
  obtain ⟨k, hk, _, rfl⟩ := inRegion_iff.mp h
  refine inRegion_iff.mpr ⟨off + k, by omega, by omega, ?_⟩
  rw [BitVec.add_assoc, BitVec.ofNat_add]

/-- Regions at increasing addresses. -/
theorem apart_of_le (h : base.toNat + size ≤ base'.toNat) (h' : base'.toNat + size' ≤ 2 ^ 64) :
    Apart base size base' size' := by
  intro a ha ha'
  unfold InRegion at ha ha'
  have hbase := base.isLt
  have hbase' := base'.isLt
  have hlt := a.isLt
  rw [BitVec.toNat_sub] at ha ha'
  omega

/-- A memory made of regions: an address belongs to the first region that it lies in. -/
def regionsMem : List (Word × Nat × (Nat → Byte)) → Word → Byte
  | [], _ => 0
  | (base, size, b) :: rest, a => if InRegion base size a then b (a - base).toNat else regionsMem rest a

theorem regionsMem_head {b : Nat → Byte} {rest : List (Word × Nat × (Nat → Byte))} {k : Nat} (hk : k < size)
    (hsize : size ≤ 2 ^ 64) : regionsMem ((base, size, b) :: rest) (base + BitVec.ofNat 64 k) = b k := by
  have hin : InRegion base size (base + BitVec.ofNat 64 k) := inRegion_iff.mpr ⟨k, hk, by omega, rfl⟩
  rw [regionsMem, if_pos hin, BitVec.add_comm, BitVec.add_sub_cancel, BitVec.toNat_ofNat,
    Nat.mod_eq_of_lt (by omega)]

theorem regionsMem_tail {b : Nat → Byte} {rest : List (Word × Nat × (Nat → Byte))}
    (h : ¬ InRegion base size a) : regionsMem ((base, size, b) :: rest) a = regionsMem rest a := if_neg h

end

namespace State

/-- The `n` bytes from `base` are `b 0`, `b 1`, … -/
def Holds (s : State) (base : Word) (n : Nat) (b : Nat → Byte) : Prop :=
  ∀ k < n, s.mem (base + BitVec.ofNat 64 k) = b k

variable {s s' : State} {base : Word} {n off : Nat} {b b' : Nat → Byte} {v a : Word}

theorem Holds.congr (h : s.Holds base n b) (hb : ∀ k < n, b k = b' k) : s.Holds base n b' :=
  fun k hk => (h k hk).trans (hb k hk)

/-- Memory that agrees on a region holds the same there. -/
theorem Holds.of_mem (h : s.Holds base n b) (hn : n ≤ 2 ^ 64)
    (hmem : ∀ a, InRegion base n a → s'.mem a = s.mem a) : s'.Holds base n b := by
  intro k hk
  rw [hmem _ (inRegion_iff.mpr ⟨k, hk, by omega, rfl⟩), h k hk]

/-- The first bytes. -/
theorem Holds.mono {m : Nat} (h : s.Holds base n b) (hm : m ≤ n) : s.Holds base m b :=
  fun k hk => h k (by omega)

/-- The first region of a memory. -/
theorem holds_regionsMem {size : Nat} {rest : List (Word × Nat × (Nat → Byte))}
    (hmem : s.mem = regionsMem ((base, size, b) :: rest)) (hsize : size ≤ 2 ^ 64) : s.Holds base size b := by
  intro k hk
  rw [hmem, regionsMem_head hk hsize]

/-- The regions after the first. -/
theorem Holds.regionsMem_cons {base' : Word} {size : Nat} {rest : List (Word × Nat × (Nat → Byte))}
    (hmem : s.mem = regionsMem ((base', size, b') :: rest)) (h : Holds { s with mem := regionsMem rest } base n b)
    (hn : n ≤ 2 ^ 64) (hap : Apart base n base' size) : s.Holds base n b := by
  refine h.of_mem hn fun a ha => ?_
  rw [hmem]
  exact regionsMem_tail (hap a ha)

theorem Holds.read (h : s.Holds base n b) (hoff : off + 8 ≤ n) :
    s.read (base + BitVec.ofNat 64 off) = leWord fun k => b (off + k) := by
  apply leWord_congr
  intro k hk
  rw [BitVec.add_assoc, ← BitVec.ofNat_add]
  exact h (off + k) (by omega)

theorem Holds.read32 (h : s.Holds base n b) (hoff : off + 4 ≤ n) :
    s.read32 (base + BitVec.ofNat 64 off) = leWord32 fun k => b (off + k) := by
  apply leWord32_congr
  intro k hk
  rw [BitVec.add_assoc, ← BitVec.ofNat_add]
  exact h (off + k) (by omega)

/-- A store elsewhere. -/
theorem mem_write_of_not (h : ¬ InRegion a 8 base) : (s.write a v).mem base = s.mem base := if_neg h

theorem mem_write_of_inRegion (h : InRegion a 8 base) :
    (s.write a v).mem base = byteOf v (base - a).toNat := if_pos h

/-- A store inside. -/
theorem Holds.write (h : s.Holds base n b) (hn : n ≤ 2 ^ 64) (hoff : off + 8 ≤ n) :
    (s.write (base + BitVec.ofNat 64 off) v).Holds base n
      fun k => if off ≤ k ∧ k < off + 8 then byteOf v (k - off) else b k := by
  intro k hk
  beta_reduce
  have hiff := @inRegion_add base 8 off k (by omega) (by omega) (by decide)
  by_cases hin : off ≤ k ∧ k < off + 8
  · rw [if_pos hin, mem_write_of_inRegion (hiff.mpr hin), toNat_add_sub_add base (by omega) (by omega)]
    congr 1
    omega
  · rw [if_neg hin, mem_write_of_not (fun h => hin (hiff.mp h))]
    exact h k hk

/-- What is read where it was just written. -/
theorem read_write_same : (s.write a v).read a = v := by
  have h : leWord (fun k => (s.write a v).mem (a + BitVec.ofNat 64 k)) = leWord (byteOf v) := by
    apply leWord_congr
    intro k hk
    have hin : InRegion a 8 (a + BitVec.ofNat 64 k) := inRegion_iff.mpr ⟨k, hk, by omega, rfl⟩
    rw [mem_write_of_inRegion hin, BitVec.add_comm, BitVec.add_sub_cancel, BitVec.toNat_ofNat,
      Nat.mod_eq_of_lt (by omega)]
  exact h.trans (leWord_byteOf v)

/-- What is read apart from a write. -/
theorem read_write_of_apart (h : Apart base 8 a 8) : (s.write a v).read base = s.read base := by
  apply leWord_congr
  intro k hk
  exact mem_write_of_not (h _ (inRegion_iff.mpr ⟨k, hk, by omega, rfl⟩))

end State
end Arm64
end MinerTim
