import MinerTim.Lib.BackEdges
import MinerTim.RandomX.ExecuteSpec

/-!
# `RandomX.Termination` — every compiled program runs to its end

The interpreter loop on a compiled program is a machine in the sense of `Lib.BackEdges` (`machine`),
whose back edges are the `CBRANCH`es. Two facts make the general bound apply:

* the stretch of a `CBRANCH` is straight-line code that leaves its register alone
  (`bytecodeAt_region`), so at the `q`-th arrival the register is its first value plus `q` times the
  addend (`rAt_again`);
* the addend has bit `shift` set and bit `shift - 1` clear, so the condition bits of `x`, `x + imm` and
  `x + 2 * imm` are not all zero (`condition_exits`): a branch jumps at most twice.
-/

namespace MinerTim
namespace RandomX

open BackEdges

/-! ## The addend -/

/-- The condition bits, as a number. -/
theorem condition_zero_iff {memMask : BitVec 32} {imm : Word} {shift : Nat}
    (h : IsCondition memMask imm shift) (x : Word) :
    x &&& memMask.setWidth 64 = 0 ↔ x.toNat / 2 ^ shift % 256 = 0 := by
  obtain ⟨hlo, hhi, rfl, _, _⟩ := h
  have hmask : ((CONDITION_MASK <<< shift).setWidth 64 : Word).toNat = 255 <<< shift := by
    interval_cases shift <;> rfl
  have hand : x.toNat &&& 255 <<< shift = (x.toNat >>> shift &&& 255) <<< shift := by
    apply Nat.eq_of_testBit_eq
    intro i
    by_cases h : shift ≤ i
    · simp [h, Nat.add_sub_cancel' h]
    · simp [h]
  rw [← BitVec.toNat_inj, BitVec.toNat_and, hmask, hand, Nat.shiftLeft_eq,
    show 255 = 2 ^ 8 - 1 from rfl, Nat.and_two_pow_sub_one_eq_mod, Nat.shiftRight_eq_div_pow]
  simp

/-- **A `CBRANCH` jumps at most twice**: adding the addend once more always sets a condition bit. -/
theorem condition_exits {memMask : BitVec 32} {imm : Word} {shift : Nat}
    (h : IsCondition memMask imm shift) (x : Word) (h0 : x &&& memMask.setWidth 64 = 0)
    (h1 : (x + imm) &&& memMask.setWidth 64 = 0) :
    (x + imm + imm) &&& memMask.setWidth 64 ≠ 0 := by
  rw [condition_zero_iff h] at h0 h1
  rw [Ne, condition_zero_iff h]
  have hset : imm.toNat / 2 ^ shift % 2 = 1 := by
    have := h.set
    rw [BitVec.getLsbD, Nat.testBit_eq_decide_div_mod_eq] at this
    simpa using this
  have hclear : imm.toNat / 2 ^ (shift - 1) % 2 = 0 := by
    have := h.clear
    rw [BitVec.getLsbD, Nat.testBit_eq_decide_div_mod_eq] at this
    simpa using this
  have hlo := h.lo
  have hhi := h.hi
  rw [BitVec.toNat_add] at h1 ⊢
  rw [BitVec.toNat_add]
  have hx := x.isLt
  have hi := imm.isLt
  clear h
  generalize x.toNat = X at *
  generalize imm.toNat = I at *
  interval_cases shift <;> simp only [Nat.reducePow, Nat.reduceSub] at * <;> omega

/-! ## The interpreter as a machine with back edges -/

section

variable {n : Nat} (fp : FpUnit) (config : ProgramConfiguration) (version : RxVersion)
  (programBytes : Vector Byte n)

/-- One iteration of the interpreter loop on a compiled program. -/
def machine : Machine VmState := fun k s =>
  (((branchTarget (bytecodeAt programBytes k) s).getD k + 1).toNat,
    effect fp config version (bytecodeAt programBytes k) s)

/-- Instruction `k` is a `CBRANCH`. -/
def IsBranch (k : Nat) : Prop := (bytecodeAt programBytes k).itype = .Cbranch

/-- The index a `CBRANCH` jumps to. -/
def branchEntry (k : Nat) : Nat := ((bytecodeAt programBytes k).target + 1).toNat

/-- The guarantee on a `CBRANCH`. -/
theorem branch_wellFormed {i : Nat} (hi : i < 32768) (hb : IsBranch programBytes i) :
    (bytecodeAt programBytes i).dst < 8 ∧ -1 ≤ (bytecodeAt programBytes i).target ∧
      (bytecodeAt programBytes i).target < i ∧ ∃ shift,
        IsCondition (bytecodeAt programBytes i).memMask (bytecodeAt programBytes i).imm shift :=
  (bytecodeAt_wellFormed programBytes hi).cbranch hb

theorem machine_fst_of_none {k : Nat} {s : VmState}
    (h : branchTarget (bytecodeAt programBytes k) s = none) :
    (machine fp config version programBytes k s).1 = k + 1 := by
  rw [machine, h, Option.getD_none]
  omega

/-- **The `CBRANCH`es are the back edges of a compiled program.** -/
theorem loops {len : Nat} (hlen : len ≤ 32768) :
    Loops (machine fp config version programBytes) len (IsBranch programBytes)
      (branchEntry programBytes) where
  forward k _ hb s := machine_fst_of_none fp config version programBytes (if_neg fun h => hb h.1)
  back i hi hb s := by
    by_cases h : (bytecodeAt programBytes i).itype = .Cbranch ∧
        (s.rAt (bytecodeAt programBytes i).dst + (bytecodeAt programBytes i).imm)
          &&& (bytecodeAt programBytes i).memMask.setWidth 64 = 0
    · right
      rw [machine, branchTarget, if_pos h, Option.getD_some, branchEntry]
    · exact Or.inl (machine_fst_of_none fp config version programBytes (if_neg h))
  entry_le i hi hb := by
    obtain ⟨_, _, htarget, _⟩ := branch_wellFormed programBytes (by omega) hb
    unfold branchEntry
    omega
  straight i hi hb k hk hki := by
    have hk' : (bytecodeAt programBytes i).target < k := by
      unfold branchEntry at hk
      omega
    exact (bytecodeAt_region programBytes (by omega) hb hk' hki).1

/-- At the next arrival at a `CBRANCH` its register has grown by the addend. -/
theorem rAt_again {i : Nat} (hi : i < 32768) (hb : IsBranch programBytes i) (s : VmState) :
    (again (machine fp config version programBytes) (branchEntry programBytes) i s).rAt
        (bytecodeAt programBytes i).dst
      = s.rAt (bytecodeAt programBytes i).dst + (bytecodeAt programBytes i).imm := by
  have hdst := (branch_wellFormed programBytes hi hb).1
  refine block_keeps (P := fun s' : VmState => s'.rAt (bytecodeAt programBytes i).dst
    = s.rAt (bytecodeAt programBytes i).dst + (bytecodeAt programBytes i).imm) ?_ ?_
  · intro k hk hki s' hs'
    have hk' : (bytecodeAt programBytes i).target < k := by
      unfold branchEntry at hk
      omega
    have hregion := bytecodeAt_region programBytes hi hb hk' (by unfold branchEntry at hki; omega)
    exact (rAt_effect (bytecodeAt_wellFormed programBytes (by omega)) hregion.2).trans hs'
  · show (effect fp config version (bytecodeAt programBytes i) s).rAt _ = _
    rw [effect, show (bytecodeAt programBytes i).itype = .Cbranch from hb]
    simp [VmState.rAt_putR hdst]

/-- **Every `CBRANCH` falls through after at most two jumps.** -/
theorem exits {len : Nat} (hlen : len ≤ 32768) :
    Exits (machine fp config version programBytes) len (IsBranch programBytes)
      (branchEntry programBytes) 2 := by
  intro i hi hb s
  obtain ⟨_, _, _, shift, hcond⟩ := branch_wellFormed programBytes (by omega : i < 32768) hb
  -- a jump on arrival means that adding the addend cleared the condition bits
  have hfall : ∀ s : VmState,
      (s.rAt (bytecodeAt programBytes i).dst + (bytecodeAt programBytes i).imm)
        &&& (bytecodeAt programBytes i).memMask.setWidth 64 ≠ 0 →
      (machine fp config version programBytes i s).1 = i + 1 := fun s h =>
    machine_fst_of_none fp config version programBytes (if_neg fun h' => h h'.2)
  by_cases h0 : (s.rAt (bytecodeAt programBytes i).dst + (bytecodeAt programBytes i).imm)
      &&& (bytecodeAt programBytes i).memMask.setWidth 64 = 0
  · by_cases h1 : (s.rAt (bytecodeAt programBytes i).dst + (bytecodeAt programBytes i).imm
        + (bytecodeAt programBytes i).imm) &&& (bytecodeAt programBytes i).memMask.setWidth 64 = 0
    · refine ⟨2, le_rfl, hfall _ ?_⟩
      rw [Function.iterate_succ_apply', Function.iterate_one,
        rAt_again fp config version programBytes (by omega) hb,
        rAt_again fp config version programBytes (by omega) hb]
      exact condition_exits hcond _ h0 h1
    · refine ⟨1, by decide, hfall _ ?_⟩
      rw [Function.iterate_one, rAt_again fp config version programBytes (by omega) hb]
      exact h1
  · exact ⟨0, by decide, hfall s h0⟩

/-- A run of the machine inside the program is a run of the interpreter. -/
theorem executes_of_run (bytecode : BytecodeBuffer) {len : Nat}
    (hlen : len ≤ RANDOMX_PROGRAM_SIZE_MAX) {tr : List Nat} {pc pc' : Nat} {s s' : VmState}
    (h : Run (machine fp config version programBytes) tr (pc, s) (pc', s'))
    (hlt : ∀ k ∈ tr, k < len) :
    Executes fp config version (compiled programBytes bytecode len) tr (pc, s) (pc', s') := by
  generalize hc : (pc, s) = c at h
  generalize hc' : (pc', s') = c' at h
  induction h generalizing pc s with
  | refl =>
    obtain ⟨rfl, rfl⟩ := Prod.mk.inj (hc.trans hc'.symm)
    exact .done
  | @head k s₀ c tr hrun ih =>
    obtain ⟨rfl, rfl⟩ := Prod.mk.inj hc
    have hmax : RANDOMX_PROGRAM_SIZE_MAX = 384 := rfl
    have hk : pc < len := hlt pc (by simp)
    have hwf := bytecodeAt_wellFormed programBytes (i := pc) (by omega)
    refine .step (getElem?_compiled programBytes bytecode hlen hk) (executeInstruction_eq hwf) ?_
    have hnext : (((branchTarget (bytecodeAt programBytes pc) s).getD pc + 1).toNat : Int)
        = (branchTarget (bytecodeAt programBytes pc) s).getD pc + 1 := by
      refine Int.toNat_of_nonneg ?_
      unfold branchTarget
      split
      next hb =>
        have := (branch_wellFormed programBytes (by omega) hb.1).2.1
        rw [Option.getD_some]
        omega
      next =>
        rw [Option.getD_none]
        omega
    rw [← hnext]
    exact ih (fun k hk => hlt k (by simp [hk])) rfl hc'

end

/-! ## The bound -/

variable {n : Nat} (fp : FpUnit) (config : ProgramConfiguration) (version : RxVersion)
  (programBytes : Vector Byte n) (bytecode : BytecodeBuffer)

/-- The run of a whole program, as a run of the machine. -/
theorem exists_run {len : Nat} (hlen : len ≤ 32768) (s : VmState) :
    ∃ tr s', Run (machine fp config version programBytes) tr (0, s) (len, s') ∧
      (∀ k ∈ tr, k < len) ∧ (∀ k, tr.count k ≤ 3) ∧ tr.length ≤ 3 * len := by
  obtain ⟨tr, s', hrun, hlt, hcount⟩ := run_count_le (loops fp config version programBytes hlen)
    (exits fp config version programBytes hlen) s le_rfl
  exact ⟨tr, s', hrun, hlt, hcount, length_le_of_count_le hlt hcount⟩

/-- The interpreter follows that run to the end of the program. -/
theorem exists_executeBytecode (s : VmState) :
    ∃ tr s', Run (machine fp config version programBytes) tr (0, s) (version.programSize, s') ∧
      (∀ k ∈ tr, k < version.programSize) ∧
      executeBytecode fp config version (compiled programBytes bytecode version.programSize) s
        = some s' := by
  have hmax := version.programSize_le_max
  have hsize : RANDOMX_PROGRAM_SIZE_MAX = 384 := rfl
  have hle : version.programSize ≤ 32768 := by omega
  obtain ⟨tr, s', hrun, hlt, _, hlen⟩ := exists_run fp config version programBytes hle s
  have hlength := length_compiled programBytes bytecode hmax
  refine ⟨tr, s', hrun, hlt, ?_⟩
  exact executeFrom_of_executes (executes_of_run fp config version programBytes bytecode hmax hrun hlt)
    (by rw [hlength]) (by rw [hlength]; exact hlen)

/-- **`execute_bytecode` terminates on every compiled program.** The call executes each instruction at
    most three times; a `CBRANCH` reached in any state is passed after at most two jumps back, during
    which only its own region is executed; and the regions of different `CBRANCH`es are disjoint. -/
theorem executeBytecode_terminates (s : VmState) :
    let prog := compiled programBytes bytecode version.programSize
    (∃ tr s', Executes fp config version prog tr (0, s) (prog.length, s') ∧
      executeBytecode fp config version prog s = some s' ∧ ∀ k, tr.count k ≤ 3) ∧
    (∀ (i : Nat) ibc, prog[i]? = some ibc → ibc.itype = .Cbranch → ∀ s, ∃ tr s',
      Executes fp config version prog tr (i, s) (i + 1, s') ∧ tr.count i ≤ 3 ∧
        ∀ k ∈ tr, ibc.target < (k : Int) ∧ k ≤ i) ∧
    (∀ (i j : Nat) a b, prog[i]? = some a → prog[j]? = some b → a.itype = .Cbranch → b.itype = .Cbranch →
      i ≠ j → ∀ k : Int, ¬ ((a.target < k ∧ k ≤ i) ∧ (b.target < k ∧ k ≤ j))) := by
  intro prog
  have hmax := version.programSize_le_max
  have hsize : RANDOMX_PROGRAM_SIZE_MAX = 384 := rfl
  have hle : version.programSize ≤ 32768 := by omega
  have hl := loops fp config version programBytes hle
  have he := exits fp config version programBytes hle
  have hlength : prog.length = version.programSize := length_compiled programBytes bytecode hmax
  -- an entry of the program is the instruction decoded there
  have hget : ∀ (i : Nat) ibc, prog[i]? = some ibc →
      i < version.programSize ∧ bytecodeAt programBytes i = ibc := fun i ibc h => by
    have hi : i < version.programSize := hlength ▸ (List.getElem?_eq_some_iff.mp h).1
    exact ⟨hi, Option.some.inj ((getElem?_compiled programBytes bytecode hmax hi).symm.trans h)⟩
  have hentry : ∀ i, i < version.programSize → IsBranch programBytes i → ∀ k : Nat,
      branchEntry programBytes i ≤ k ↔ (bytecodeAt programBytes i).target < (k : Int) :=
    fun i hi hb k => by
      have := (branch_wellFormed programBytes (by omega) hb).2.1
      unfold branchEntry
      omega
  refine ⟨?_, fun i ibc hibc hb s => ?_, fun i j a b ha hb hba hbb hij k hk => ?_⟩
  · obtain ⟨tr, s', hrun, hlt, hcount, hlen⟩ := exists_run fp config version programBytes hle s
    have hexec := executes_of_run fp config version programBytes bytecode hmax hrun hlt
    refine ⟨tr, s', ?_, executeFrom_of_executes hexec ?_ ?_, hcount⟩
    · rw [hlength]
      exact hexec
    · rw [hlength]
    · rw [hlength]
      exact hlen
  · obtain ⟨hi, rfl⟩ := hget i ibc hibc
    obtain ⟨q, hq, hfall⟩ := he i hi hb s
    obtain ⟨tr, s', hrun, hcount, _, hmem⟩ := run_loop hl hi hb hfall
    refine ⟨tr, s', ?_, by omega, fun k hk => ?_⟩
    · exact executes_of_run fp config version programBytes bytecode hmax hrun fun k hk =>
        lt_of_le_of_lt (hmem k hk).2 hi
    · exact ⟨(hentry i hi hb k).mp (hmem k hk).1, (hmem k hk).2⟩
  · obtain ⟨hi, rfl⟩ := hget i a ha
    obtain ⟨hj, rfl⟩ := hget j b hb
    have hnonneg := (branch_wellFormed programBytes (i := i) (by omega) hba).2.1
    obtain ⟨k, rfl⟩ := Int.eq_ofNat_of_zero_le (show 0 ≤ k by omega)
    refine hl.disjoint hi hj hba hbb hij k ⟨⟨?_, by omega⟩, ⟨?_, by omega⟩⟩
    · exact (hentry i hi hba k).mpr hk.1.1
    · exact (hentry j hj hbb k).mpr hk.2.1

end RandomX
end MinerTim
