import MinerTim.Lib.Arm64.Exec

/-!
# `Lib.Arm64.Block` — several registers, doublewords or stack slots at a time

What unrolled loops of loads and stores do, as one update: `State.setXs` and `State.setDs` write consecutive
registers, `State.writeBlock` stores consecutive doublewords.

`Stacked` says what lies on the stack, inside a frame of fixed size; pairs of registers are pushed on it
(`Stacked.push`) and popped from it (`Stacked.pop`), and whole lists of pairs are saved and restored.
-/

namespace MinerTim
namespace Arm64

namespace State

/-- Write `n` consecutive registers from `Xb`. -/
def setXs (s : State) (b n : Nat) (f : Nat → Word) : State :=
  { s with x := fun m => if b ≤ m ∧ m < b + n then f (m - b) else s.x m }

/-- Write `n` consecutive registers from `Db`. -/
def setDs (s : State) (b n : Nat) (f : Nat → Word) : State :=
  { s with d := fun m => if b ≤ m ∧ m < b + n then f (m - b) else s.d m }

/-- Store `n` consecutive doublewords from `base`. -/
def writeBlock (s : State) (base : Word) (n : Nat) (w : Nat → Word) : State :=
  { s with mem := fun a => if InRegion base (8 * n) a then blockByte w (a - base).toNat else s.mem a }

variable {s : State} {b n m : Nat} {f w : Nat → Word} {base : Word}

@[simp] theorem sp_setXs : (s.setXs b n f).sp = s.sp := rfl
@[simp] theorem d_setXs : (s.setXs b n f).d = s.d := rfl
@[simp] theorem flags_setXs : (s.setXs b n f).flags = s.flags := rfl
@[simp] theorem fpcr_setXs : (s.setXs b n f).fpcr = s.fpcr := rfl
@[simp] theorem mem_setXs : (s.setXs b n f).mem = s.mem := rfl
@[simp] theorem x_setDs : (s.setDs b n f).x = s.x := rfl
@[simp] theorem sp_setDs : (s.setDs b n f).sp = s.sp := rfl
@[simp] theorem flags_setDs : (s.setDs b n f).flags = s.flags := rfl
@[simp] theorem fpcr_setDs : (s.setDs b n f).fpcr = s.fpcr := rfl
@[simp] theorem mem_setDs : (s.setDs b n f).mem = s.mem := rfl
@[simp] theorem x_writeBlock : (s.writeBlock base n w).x = s.x := rfl
@[simp] theorem sp_writeBlock : (s.writeBlock base n w).sp = s.sp := rfl
@[simp] theorem d_writeBlock : (s.writeBlock base n w).d = s.d := rfl
@[simp] theorem flags_writeBlock : (s.writeBlock base n w).flags = s.flags := rfl
@[simp] theorem fpcr_writeBlock : (s.writeBlock base n w).fpcr = s.fpcr := rfl

theorem x_setXs_of_lt (h : m < n) : (s.setXs b n f).x (b + m) = f m := by
  simp [setXs, h]

theorem x_setXs_of_not (h : ¬ (b ≤ m ∧ m < b + n)) : (s.setXs b n f).x m = s.x m := if_neg h

theorem d_setDs_of_lt (h : m < n) : (s.setDs b n f).d (b + m) = f m := by
  simp [setDs, h]

theorem d_setDs_of_not (h : ¬ (b ≤ m ∧ m < b + n)) : (s.setDs b n f).d m = s.d m := if_neg h

/-- Nothing written. -/
theorem setXs_zero : s.setXs b 0 f = s := by
  simp only [setXs, show ∀ m, ¬ (b ≤ m ∧ m < b + 0) by omega, if_false]

theorem setDs_zero : s.setDs b 0 f = s := by
  simp only [setDs, show ∀ m, ¬ (b ≤ m ∧ m < b + 0) by omega, if_false]

theorem writeBlock_zero : s.writeBlock base 0 w = s := by
  simp only [writeBlock, InRegion, Nat.mul_zero, Nat.not_lt_zero, if_false]

theorem setXs_congr {g : Nat → Word} (h : ∀ i < n, f i = g i) : s.setXs b n f = s.setXs b n g := by
  simp only [setXs, State.mk.injEq, and_true]
  funext m
  split
  · exact h _ (by omega)
  · rfl

theorem setDs_congr {g : Nat → Word} (h : ∀ i < n, f i = g i) : s.setDs b n f = s.setDs b n g := by
  simp only [setDs, State.mk.injEq, and_true, true_and]
  funext m
  split
  · exact h _ (by omega)
  · rfl

/-- A block with its last element set apart. -/
theorem ite_block_succ {g : Nat → Word} (m : Nat) :
    (if m = b + n then f n else if b ≤ m ∧ m < b + n then f (m - b) else g m)
      = if b ≤ m ∧ m < b + (n + 1) then f (m - b) else g m := by
  by_cases hm : m = b + n
  · rw [if_pos hm, if_pos (by omega), hm, Nat.add_sub_cancel_left]
  · rw [if_neg hm]
    by_cases hin : b ≤ m ∧ m < b + n
    · rw [if_pos hin, if_pos (by omega)]
    · rw [if_neg hin, if_neg (by omega)]

/-- One more register. -/
theorem setX_setXs (h : b + n ≠ 31) : (s.setXs b n f).setX (b + n) (f n) = s.setXs b (n + 1) f := by
  rw [setX, if_neg h]
  simp only [setXs, State.mk.injEq, and_true]
  exact funext fun m => ite_block_succ m

theorem setD_setDs : (s.setDs b n f).setD (b + n) (f n) = s.setDs b (n + 1) f := by
  rw [setD]
  simp only [setDs, State.mk.injEq, and_true, true_and]
  exact funext fun m => ite_block_succ m

/-- One more doubleword. -/
theorem write_writeBlock (h : 8 * (n + 1) ≤ 2 ^ 64) :
    (s.writeBlock base n w).write (base + BitVec.ofNat 64 (8 * n)) (w n) = s.writeBlock base (n + 1) w := by
  simp only [write, writeBlock, State.mk.injEq, true_and]
  funext a
  have ha : a = base + BitVec.ofNat 64 (a - base).toNat := by
    rw [BitVec.ofNat_toNat, BitVec.setWidth_eq, BitVec.add_comm, BitVec.sub_add_cancel]
  have hk := (a - base).isLt
  generalize (a - base).toNat = k at ha hk
  subst ha
  have hdist := toNat_add_sub_add base hk (show 8 * n < 2 ^ 64 by omega)
  have hzero := toNat_add_sub_add base hk (show 0 < 2 ^ 64 by decide)
  rw [show base + BitVec.ofNat 64 0 = base from BitVec.add_zero base, Nat.sub_zero,
    Nat.add_mod_left, Nat.mod_eq_of_lt hk] at hzero
  have hreg : ∀ m, InRegion base m (base + BitVec.ofNat 64 k) ↔ k < m := fun m => by
    unfold InRegion
    rw [hzero]
  rw [hdist]
  by_cases hin : 8 * n ≤ k ∧ k < 8 * n + 8
  · rw [if_pos (by omega), if_pos ((hreg _).mpr (by omega)), blockByte, show k / 8 = n by omega]
    congr 1
    omega
  · rw [if_neg (by omega)]
    by_cases hlt : k < 8 * n
    · rw [if_pos ((hreg _).mpr hlt), if_pos ((hreg _).mpr (by omega))]
    · rw [if_neg (mt (hreg _).mp hlt), if_neg (mt (hreg _).mp (by omega))]

theorem mem_writeBlock_of_not {a : Word} (h : ¬ InRegion base (8 * n) a) :
    (s.writeBlock base n w).mem a = s.mem a := if_neg h

/-- What was stored. -/
theorem holds_writeBlock (h : 8 * n ≤ 2 ^ 64) : (s.writeBlock base n w).Holds base (8 * n) (blockByte w) := by
  intro k hk
  have hin : InRegion base (8 * n) (base + BitVec.ofNat 64 k) := inRegion_iff.mpr ⟨k, hk, by omega, rfl⟩
  have hmem : (s.writeBlock base n w).mem (base + BitVec.ofNat 64 k)
      = blockByte w (base + BitVec.ofNat 64 k - base).toNat := if_pos hin
  rw [hmem, BitVec.add_comm, BitVec.add_sub_cancel, BitVec.toNat_ofNat, Nat.mod_eq_of_lt (by omega)]

/-- A block stored inside a region. -/
theorem Holds.writeBlock {size : Nat} {bytes : Nat → Byte} (h : s.Holds base size bytes) (hsize : size ≤ 2 ^ 64)
    (off n : Nat) (w : Nat → Word) (hoff : off + 8 * n ≤ size) :
    (s.writeBlock (base + BitVec.ofNat 64 off) n w).Holds base size
      fun k => if off ≤ k ∧ k < off + 8 * n then blockByte w (k - off) else bytes k := by
  intro k hk
  beta_reduce
  rcases Nat.eq_zero_or_pos n with rfl | hn
  · rw [writeBlock_zero, if_neg (by omega)]
    exact h k hk
  · have hiff := @inRegion_add base (8 * n) off k (by omega) (by omega) (by omega)
    by_cases hin : off ≤ k ∧ k < off + 8 * n
    · rw [if_pos hin]
      refine (if_pos (hiff.mpr hin)).trans ?_
      rw [toNat_add_sub_add base (by omega) (by omega)]
      congr 1
      omega
    · rw [if_neg hin, mem_writeBlock_of_not (fun h => hin (hiff.mp h))]
      exact h k hk

end State

/-! ## The stack -/

/-- The doublewords at two offsets of a region do not overlap. -/
theorem apart_offsets (base : Word) {i j : Nat} (hi : i + 8 ≤ 2 ^ 64) (hj : j + 8 ≤ 2 ^ 64)
    (h : i + 8 ≤ j ∨ j + 8 ≤ i) : Apart (base + BitVec.ofNat 64 i) 8 (base + BitVec.ofNat 64 j) 8 := by
  intro a ha ha'
  obtain ⟨k, hk, _, rfl⟩ := inRegion_iff.mp ha
  rw [BitVec.add_assoc, ← BitVec.ofNat_add] at ha'
  rw [inRegion_add (by omega) hj (by decide)] at ha'
  omega

/-- The stack pointer stands inside the frame of `size` bytes at `frame`, with these doublewords from it to the
    end of the frame. -/
structure Stacked (frame : Word) (size : Nat) (ws : List Word) (s : State) : Prop where
  room : 8 * ws.length ≤ size
  sp : s.sp = frame + BitVec.ofNat 64 (size - 8 * ws.length)
  read : ∀ j w, ws[j]? = some w → s.read (frame + BitVec.ofNat 64 (size - 8 * ws.length + 8 * j)) = w

variable {frame : Word} {size : Nat} {ws : List Word} {a b : Word} {s s' : State} {fp : FpOps}

/-- An empty stack. -/
theorem stacked_nil (hsp : s.sp = frame + BitVec.ofNat 64 size) : Stacked frame size [] s :=
  ⟨Nat.zero_le _, hsp, fun j w h => by simp at h⟩

/-- The stack is in the frame. -/
theorem Stacked.of_mem (h : Stacked frame size ws s) (hsize : size ≤ 2 ^ 64) (hsp : s'.sp = s.sp)
    (hmem : ∀ a, InRegion frame size a → s'.mem a = s.mem a) : Stacked frame size ws s' := by
  have hroom := h.room
  refine ⟨hroom, by rw [hsp, h.sp], ?_⟩
  intro j w hw
  have hj := (List.getElem?_eq_some_iff.mp hw).1
  rw [← h.read j w hw]
  apply leWord_congr
  intro k hk
  refine hmem _ (inRegion_iff.mpr ⟨size - 8 * ws.length + 8 * j + k, by omega, by omega, ?_⟩)
  rw [BitVec.add_assoc, ← BitVec.ofNat_add]

/-- What a push does to the machine. -/
def State.push (s : State) (a b : Word) : State :=
  ((s.write (s.sp - 16) a).write (s.sp - 16 + 8) b).setSp (s.sp - 16)

/-- The two slots below the stack pointer, as offsets into the frame. -/
theorem Stacked.exists_below (h : Stacked frame size ws s) (hroom : 8 * ws.length + 16 ≤ size) :
    ∃ o, size - 8 * ws.length = o + 16 ∧ s.sp - 16 = frame + BitVec.ofNat 64 o ∧
      s.sp - 16 + 8 = frame + BitVec.ofNat 64 (o + 8) := by
  obtain ⟨o, ho⟩ : ∃ o, size - 8 * ws.length = o + 16 := ⟨size - 8 * ws.length - 16, by omega⟩
  have hsp : s.sp - 16 = frame + BitVec.ofNat 64 o := by
    rw [h.sp, ho, BitVec.ofNat_add, ← BitVec.add_assoc]
    exact BitVec.add_sub_cancel _ _
  refine ⟨o, ho, hsp, ?_⟩
  rw [hsp, BitVec.add_assoc, BitVec.ofNat_add]
  rfl

/-- **A pushed pair lies on top of the stack.** -/
theorem Stacked.push (h : Stacked frame size ws s) (hsize : size ≤ 2 ^ 63) (hroom : 8 * ws.length + 16 ≤ size) :
    Stacked frame size (a :: b :: ws) (s.push a b) := by
  obtain ⟨o, ho, hsp, hsp8⟩ := h.exists_below hroom
  have hlen : size - 8 * (a :: b :: ws).length = o := by
    simp only [List.length_cons]
    omega
  refine ⟨by simp only [List.length_cons]; omega, ?_, ?_⟩
  · rw [hlen, State.push, State.sp_setSp, hsp]
  · intro j w hw
    rw [hlen]
    show ((s.write (s.sp - 16) a).write (s.sp - 16 + 8) b).read _ = w
    rw [hsp8, hsp]
    match j with
    | 0 =>
      obtain rfl := Option.some.inj hw
      rw [State.read_write_of_apart (apart_offsets frame (by omega) (by omega) (by omega))]
      exact State.read_write_same
    | 1 =>
      obtain rfl := Option.some.inj hw
      exact State.read_write_same
    | j + 2 =>
      have hj := (List.getElem?_eq_some_iff.mp hw).1
      simp only [List.length_cons] at hj
      rw [State.read_write_of_apart (apart_offsets frame (by omega) (by omega) (by omega)),
        State.read_write_of_apart (apart_offsets frame (by omega) (by omega) (by omega))]
      have hread := h.read j w hw
      rw [ho] at hread
      rw [show o + 8 * (j + 2) = o + 16 + 8 * j by omega]
      exact hread

/-- The two doublewords that a push stores lie in the frame. -/
theorem Stacked.push_inRegion (h : Stacked frame size ws s) (hsize : size ≤ 2 ^ 63)
    (hroom : 8 * ws.length + 16 ≤ size) :
    (∀ c, InRegion (s.sp - 16) 8 c → InRegion frame size c) ∧
      ∀ c, InRegion (s.sp - 16 + 8) 8 c → InRegion frame size c := by
  obtain ⟨o, ho, hsp, hsp8⟩ := h.exists_below hroom
  rw [hsp8, hsp]
  exact ⟨fun c hc => hc.mono (by omega) (by omega), fun c hc => hc.mono (by omega) (by omega)⟩

/-- An instruction that pushes. -/
theorem straight_push {i : Inst} (h : Stacked frame size ws s) (hsize : size ≤ 2 ^ 63)
    (hroom : 8 * ws.length + 16 ≤ size) (hbranch : i.isBranch = false) (hdefined : i.isDefined = true)
    (hstores : i.stores s = [s.sp - 16, s.sp - 16 + 8]) (hexec : exec fp i s = s.push a b) :
    Straight fp (InRegion frame size) [i] s (s.push a b) := by
  obtain ⟨hlo, hhi⟩ := h.push_inRegion hsize hroom
  refine straight_store hbranch hdefined ?_ hexec
  intro c hc
  rw [hstores, List.mem_cons, List.mem_singleton] at hc
  rcases hc with rfl | rfl
  · exact hlo
  · exact hhi

section

variable {imm : BitVec 7} (himm : pairOffset imm = -16)
include himm

theorem straight_stpPre (h : Stacked frame size ws s) (hsize : size ≤ 2 ^ 63)
    (hroom : 8 * ws.length + 16 ≤ size) (rt1 rt2 : Nat) :
    Straight fp (InRegion frame size) [.stpPre rt1 rt2 31 imm] s (s.push (s.getX rt1) (s.getX rt2)) := by
  refine straight_push h hsize hroom rfl rfl ?_ ?_
  · simp only [Inst.stores, State.getXSp_sp, himm, ← BitVec.sub_eq_add_neg]
  · simp only [exec, State.getXSp_sp, himm, ← BitVec.sub_eq_add_neg, State.setXSp_sp]
    rfl

theorem straight_stpFpPre (h : Stacked frame size ws s) (hsize : size ≤ 2 ^ 63)
    (hroom : 8 * ws.length + 16 ≤ size) (dt1 dt2 : Nat) :
    Straight fp (InRegion frame size) [.stpFpPre dt1 dt2 31 imm] s (s.push (s.d dt1) (s.d dt2)) := by
  refine straight_push h hsize hroom rfl rfl ?_ ?_
  · simp only [Inst.stores, State.getXSp_sp, himm, ← BitVec.sub_eq_add_neg]
  · simp only [exec, State.getXSp_sp, himm, ← BitVec.sub_eq_add_neg, State.setXSp_sp]
    rfl

end

/-- What lies on top. -/
theorem Stacked.top (h : Stacked frame size (a :: b :: ws) s) : s.read s.sp = a ∧ s.read (s.sp + 8) = b := by
  refine ⟨?_, ?_⟩
  · rw [h.sp]
    exact h.read 0 a rfl
  · rw [h.sp, BitVec.add_assoc]
    have hread := h.read 1 b rfl
    rwa [BitVec.ofNat_add] at hread

/-- The stack below the top pair. -/
theorem Stacked.pop (h : Stacked frame size (a :: b :: ws) s) (hsp : s'.sp = s.sp + 16)
    (hmem : s'.mem = s.mem) : Stacked frame size ws s' := by
  have hroom := h.room
  simp only [List.length_cons] at hroom
  have hlen : size - 8 * ws.length = size - 8 * (a :: b :: ws).length + 16 := by
    simp only [List.length_cons]
    omega
  refine ⟨by omega, ?_, ?_⟩
  · rw [hsp, h.sp, hlen, BitVec.ofNat_add, ← BitVec.add_assoc]
    rfl
  · intro j w hw
    rw [State.read_congr hmem, hlen, ← h.read (j + 2) w hw]
    congr 2
    congr 1
    omega

section

variable {imm : BitVec 7} {W : Word → Prop} (himm : pairOffset imm = 16)
  (h : Stacked frame size (a :: b :: ws) s)
include himm h

theorem straight_ldpPost (rt1 rt2 : Nat) :
    Straight fp W [.ldpPost rt1 rt2 31 imm] s (((s.setX rt1 a).setX rt2 b).setSp (s.sp + 16)) := by
  refine straight_single rfl rfl rfl ?_
  simp only [exec, State.getXSp_sp, himm, h.top.1, h.top.2, State.setXSp_sp]

theorem straight_ldpFpPost (dt1 dt2 : Nat) :
    Straight fp W [.ldpFpPost dt1 dt2 31 imm] s (((s.setD dt1 a).setD dt2 b).setSp (s.sp + 16)) := by
  refine straight_single rfl rfl rfl ?_
  simp only [exec, State.getXSp_sp, himm, h.top.1, h.top.2, State.setXSp_sp]

end

/-! ## Saving and restoring registers -/

/-- The registers of a list of pairs. -/
def pairRegs (ps : List (Nat × Nat)) : List Nat := ps.flatMap fun p => [p.1, p.2]

theorem pairRegs_cons (p : Nat × Nat) (ps : List (Nat × Nat)) :
    pairRegs (p :: ps) = p.1 :: p.2 :: pairRegs ps := rfl

theorem map_pairRegs_reverse_cons (f : Nat → Word) (p : Nat × Nat) (ps : List (Nat × Nat)) (ws : List Word) :
    (pairRegs (p :: ps).reverse).map f ++ ws = (pairRegs ps.reverse).map f ++ f p.1 :: f p.2 :: ws := by
  simp [pairRegs]

/-- A register after a pair was restored, and then the others. -/
theorem restored_cons (f : Nat → Word) (p : Nat × Nat) (ps : List (Nat × Nat)) (n : Nat) (v : Word) :
    (if n ∈ pairRegs ps then f n else if n = p.2 then f p.2 else if n = p.1 then f p.1 else v)
      = if n ∈ pairRegs (p :: ps) then f n else v := by
  simp only [pairRegs_cons, List.mem_cons]
  by_cases hn : n ∈ pairRegs ps
  · rw [if_pos hn, if_pos (.inr (.inr hn))]
  · by_cases hn2 : n = p.2
    · rw [if_neg hn, if_pos hn2, if_pos (.inr (.inl hn2)), hn2]
    · by_cases hn1 : n = p.1
      · rw [if_neg hn, if_neg hn2, if_pos hn1, if_pos (.inl hn1), hn1]
      · rw [if_neg hn, if_neg hn2, if_neg hn1, if_neg (by simp [hn, hn1, hn2])]

section

variable (fp : FpOps) {imm : BitVec 7} (himm : pairOffset imm = -16) (hsize : size ≤ 2 ^ 63)
include himm hsize

/-- **Saving pairs of registers** leaves them on the stack, the last pair on top. -/
theorem exists_stpPres (ps : List (Nat × Nat)) (h : Stacked frame size ws s)
    (hroom : 8 * ws.length + 16 * ps.length ≤ size) :
    ∃ s', Straight fp (InRegion frame size) (ps.flatMap fun p => [.stpPre p.1 p.2 31 imm]) s s' ∧
      Stacked frame size ((pairRegs ps.reverse).map s.getX ++ ws) s' ∧
      s'.x = s.x ∧ s'.d = s.d ∧ s'.fpcr = s.fpcr := by
  induction ps generalizing s ws with
  | nil => exact ⟨s, .nil, h, rfl, rfl, rfl⟩
  | cons p ps ih =>
    rw [List.length_cons] at hroom
    have hpush := h.push (a := s.getX p.1) (b := s.getX p.2) hsize (by omega)
    obtain ⟨s', hcode, hstack, hx, hd, hfpcr⟩ := ih hpush (by simp only [List.length_cons]; omega)
    refine ⟨s', (straight_stpPre himm h hsize (by omega) p.1 p.2).append hcode, ?_, hx, hd, hfpcr⟩
    rw [map_pairRegs_reverse_cons]
    exact hstack

theorem exists_stpFpPres (ps : List (Nat × Nat)) (h : Stacked frame size ws s)
    (hroom : 8 * ws.length + 16 * ps.length ≤ size) :
    ∃ s', Straight fp (InRegion frame size) (ps.flatMap fun p => [.stpFpPre p.1 p.2 31 imm]) s s' ∧
      Stacked frame size ((pairRegs ps.reverse).map s.d ++ ws) s' ∧
      s'.x = s.x ∧ s'.d = s.d ∧ s'.fpcr = s.fpcr := by
  induction ps generalizing s ws with
  | nil => exact ⟨s, .nil, h, rfl, rfl, rfl⟩
  | cons p ps ih =>
    rw [List.length_cons] at hroom
    have hpush := h.push (a := s.d p.1) (b := s.d p.2) hsize (by omega)
    obtain ⟨s', hcode, hstack, hx, hd, hfpcr⟩ := ih hpush (by simp only [List.length_cons]; omega)
    refine ⟨s', (straight_stpFpPre himm h hsize (by omega) p.1 p.2).append hcode, ?_, hx, hd, hfpcr⟩
    rw [map_pairRegs_reverse_cons]
    exact hstack

end

section

variable (fp : FpOps) {imm : BitVec 7} (W : Word → Prop) (himm : pairOffset imm = 16) (f : Nat → Word)
include himm

/-- **Restoring pairs of registers** from the stack. -/
theorem exists_ldpPosts {ps : List (Nat × Nat)} (hregs : 31 ∉ pairRegs ps)
    (h : Stacked frame size ((pairRegs ps).map f ++ ws) s) :
    ∃ s', Straight fp W (ps.flatMap fun p => [.ldpPost p.1 p.2 31 imm]) s s' ∧ Stacked frame size ws s' ∧
      (∀ n, s'.x n = if n ∈ pairRegs ps then f n else s.x n) ∧ s'.d = s.d ∧ s'.mem = s.mem ∧
      s'.fpcr = s.fpcr := by
  induction ps generalizing s with
  | nil => exact ⟨s, .nil, h, fun n => rfl, rfl, rfl, rfl⟩
  | cons p ps ih =>
    rw [pairRegs_cons, List.mem_cons, List.mem_cons, not_or, not_or] at hregs
    obtain ⟨h1, h2, hregs⟩ := hregs
    have hpop : Stacked frame size ((pairRegs ps).map f ++ ws)
        (((s.setX p.1 (f p.1)).setX p.2 (f p.2)).setSp (s.sp + 16)) := h.pop rfl (by simp)
    obtain ⟨s', hcode, hstack, hx, hd, hmem, hfpcr⟩ := ih hregs hpop
    refine ⟨s', (straight_ldpPost himm h p.1 p.2).append hcode, hstack, ?_, ?_, ?_, ?_⟩
    · intro n
      rw [hx n, State.x_setSp, State.x_setX (Ne.symm h2), State.x_setX (Ne.symm h1), restored_cons]
    · rw [hd, State.d_setSp, State.d_setX, State.d_setX]
    · rw [hmem, State.mem_setSp, State.mem_setX, State.mem_setX]
    · rw [hfpcr, State.fpcr_setSp, State.fpcr_setX, State.fpcr_setX]

theorem exists_ldpFpPosts {ps : List (Nat × Nat)} (h : Stacked frame size ((pairRegs ps).map f ++ ws) s) :
    ∃ s', Straight fp W (ps.flatMap fun p => [.ldpFpPost p.1 p.2 31 imm]) s s' ∧ Stacked frame size ws s' ∧
      (∀ n, s'.d n = if n ∈ pairRegs ps then f n else s.d n) ∧ s'.x = s.x ∧ s'.mem = s.mem ∧
      s'.fpcr = s.fpcr := by
  induction ps generalizing s with
  | nil => exact ⟨s, .nil, h, fun n => rfl, rfl, rfl, rfl⟩
  | cons p ps ih =>
    have hpop : Stacked frame size ((pairRegs ps).map f ++ ws)
        (((s.setD p.1 (f p.1)).setD p.2 (f p.2)).setSp (s.sp + 16)) := h.pop rfl rfl
    obtain ⟨s', hcode, hstack, hd, hx, hmem, hfpcr⟩ := ih hpop
    refine ⟨s', (straight_ldpFpPost himm h p.1 p.2).append hcode, hstack, ?_, hx, hmem, hfpcr⟩
    intro n
    rw [hd n, State.d_setSp, State.d_setD, State.d_setD, restored_cons]

end

end Arm64
end MinerTim
