import Mathlib.Data.Nat.Size
import Mathlib.Logic.Function.Basic
import Mathlib.Logic.Relation
import MinerTim.RandomX.Types

/-!
# `RandomX.Isa` — what a RandomX program means

An abstract machine for the eight-byte instructions of a program, stated without reference to how `vm.rs`
decodes and runs them:

* memory is an array of doublewords, and an operand is a register, a constant or a doubleword of one of
  three nested levels of that memory;
* the operation is read off a table of frequencies;
* a `CBRANCH` goes back to the instruction after the last one that changed its register, read off the
  text of the program (`LoopEntry`).

A run is a sequence of steps from instruction 0 to the end of the program (`Halts`).
-/

namespace MinerTim
namespace RandomX
namespace Isa

/-! ## Memory and machine state -/

/-- The number of doublewords of the memory. -/
abbrev MEMORY_WORDS : Nat := SCRATCHPAD_L3_SIZE / 8

/-- The nested levels of the memory. -/
inductive Level where
  | L1
  | L2
  | L3
deriving DecidableEq, Repr

/-- The number of doublewords of a level. -/
def Level.words : Level → Nat
  | .L1 => SCRATCHPAD_L1_SIZE / 8
  | .L2 => SCRATCHPAD_L2_SIZE / 8
  | .L3 => SCRATCHPAD_L3_SIZE / 8

theorem Level.words_le (l : Level) : l.words ≤ MEMORY_WORDS := by
  cases l <;> decide

theorem Level.words_pos (l : Level) : 0 < l.words := by
  cases l <;> decide

/-- The doubleword of a level at a byte address: addresses wrap around and are rounded down. -/
def Level.index (l : Level) (addr : Word) : Fin MEMORY_WORDS :=
  ⟨addr.toNat / 8 % l.words, (Nat.mod_lt _ l.words_pos).trans_le l.words_le⟩

/-- The machine: registers, the scratchpad as doublewords, and the floating-point control word. -/
structure State where
  r : Fin 8 → Word
  f : Fin 4 → F128
  e : Fin 4 → F128
  a : Fin 4 → F128
  mem : Fin MEMORY_WORDS → Word
  ctl : BitVec 32

namespace State

/-- `r[i] = v`. -/
def setR (s : State) (i : Fin 8) (v : Word) : State := { s with r := Function.update s.r i v }

/-- `f[i] = v`. -/
def setF (s : State) (i : Fin 4) (v : F128) : State := { s with f := Function.update s.f i v }

/-- `e[i] = v`. -/
def setE (s : State) (i : Fin 4) (v : F128) : State := { s with e := Function.update s.e i v }

/-- Doubleword `w` of the scratchpad is `v`. -/
def setMem (s : State) (w : Fin MEMORY_WORDS) (v : Word) : State :=
  { s with mem := Function.update s.mem w v }

end State

/-! ## Instructions -/

/-- The integer operations with two operands. -/
inductive IntOp where
  | add
  | sub
  | mul
  | mulh
  | smulh
  | xor
  | ror
  | rol
deriving DecidableEq, Repr

/-- The value of an operation. -/
def IntOp.denote : IntOp → Word → Word → Word
  | .add, x, y => x + y
  | .sub, x, y => x - y
  | .mul, x, y => x * y
  | .mulh, x, y => BitVec.ofNat 64 (x.toNat * y.toNat / 2 ^ 64)
  | .smulh, x, y => BitVec.ofInt 64 (x.toInt * y.toInt / 2 ^ 64)
  | .xor, x, y => x ^^^ y
  | .ror, x, y => x.rotateRight (y.toNat % 64)
  | .rol, x, y => x.rotateLeft (y.toNat % 64)

/-- Where an integer operand comes from. A memory operand without a base is at a fixed address. -/
inductive Operand where
  | reg (i : Fin 8)
  | imm (v : Word)
  | mem (level : Level) (base : Option (Fin 8)) (disp : Word)
deriving DecidableEq, Repr

/-- The value of an operand. -/
def Operand.value (s : State) : Operand → Word
  | .reg i => s.r i
  | .imm v => v
  | .mem level base disp => s.mem (level.index (base.elim 0 s.r + disp))

/-- A memory operand of the floating-point instructions. -/
structure FltMem where
  level : Level
  base : Fin 8
  disp : Word
deriving DecidableEq, Repr

/-- The two halves of the doubleword, converted. -/
def FltMem.value (fp : FpUnit) (s : State) (m : FltMem) : F128 :=
  let w := s.mem (m.level.index (s.r m.base + m.disp))
  (fp.ofI32 s.ctl (w.setWidth 32), fp.ofI32 s.ctl ((w >>> 32).setWidth 32))

/-- The instructions. -/
inductive Instr where
  | int (op : IntOp) (dst : Fin 8) (src : Operand)
  /-- Add a shifted register and a displacement. -/
  | lea (dst src : Fin 8) (shift : Nat) (disp : Word)
  | neg (dst : Fin 8)
  | swap (dst src : Fin 8)
  /-- Swap the lanes of a register of `f`, or of `e`. -/
  | swapF (dst : Fin 4)
  | swapE (dst : Fin 4)
  | addF (dst src : Fin 4)
  | addFMem (dst : Fin 4) (src : FltMem)
  | subF (dst src : Fin 4)
  | subFMem (dst : Fin 4) (src : FltMem)
  | scaleF (dst : Fin 4)
  | mulE (dst src : Fin 4)
  | divEMem (dst : Fin 4) (src : FltMem)
  | sqrtE (dst : Fin 4)
  /-- Add to a register, and branch when the eight bits from `shift` are then all zero. -/
  | branch (dst : Fin 8) (addend : Word) (shift : Nat)
  | round (src : Fin 8) (rotate : Nat)
  | store (level : Level) (base : Fin 8) (disp : Word) (src : Fin 8)
  | nop
deriving DecidableEq, Repr

/-- An operation on both lanes. -/
def lanes (op : Word → Word → Word) (x y : F128) : F128 := (op x.1 y.1, op x.2 y.2)

/-- What an instruction does to the machine. -/
def Instr.exec (fp : FpUnit) (config : ProgramConfiguration) (version : RxVersion) (s : State) :
    Instr → State
  | .int op dst src => s.setR dst (op.denote (s.r dst) (src.value s))
  | .lea dst src shift disp => s.setR dst (s.r dst + (s.r src <<< shift) + disp)
  | .neg dst => s.setR dst (-s.r dst)
  | .swap dst src => (s.setR dst (s.r src)).setR src (s.r dst)
  | .swapF dst => s.setF dst (s.f dst).swap
  | .swapE dst => s.setE dst (s.e dst).swap
  | .addF dst src => s.setF dst (lanes (fp.fadd s.ctl) (s.f dst) (s.a src))
  | .addFMem dst src => s.setF dst (lanes (fp.fadd s.ctl) (s.f dst) (src.value fp s))
  | .subF dst src => s.setF dst (lanes (fp.fsub s.ctl) (s.f dst) (s.a src))
  | .subFMem dst src => s.setF dst (lanes (fp.fsub s.ctl) (s.f dst) (src.value fp s))
  | .scaleF dst => s.setF dst (lanes (· ^^^ ·) (s.f dst) (0x80F0000000000000, 0x80F0000000000000))
  | .mulE dst src => s.setE dst (lanes (fp.fmul s.ctl) (s.e dst) (s.a src))
  | .divEMem dst src =>
    s.setE dst (lanes (fp.fdiv s.ctl) (s.e dst) (maskRegisterExponentMantissa config (src.value fp s)))
  | .sqrtE dst => s.setE dst (fp.fsqrt s.ctl (s.e dst).1, fp.fsqrt s.ctl (s.e dst).2)
  | .branch dst addend _ => s.setR dst (s.r dst + addend)
  | .round src rotate =>
    let v := (s.r src).rotateRight rotate
    -- the second version changes the mode only when bits 2 to 5 are zero
    if version = .V1 ∨ v.toNat / 4 % 16 = 0 then
      { s with ctl := fp.setRoundingMode s.ctl (BitVec.ofNat 32 (v.toNat % 4)) }
    else s
  | .store level base disp src => s.setMem (level.index (s.r base + disp)) (s.r src)
  | .nop => s

/-- Whether a branch is taken. -/
def Instr.taken (s : State) : Instr → Prop
  | .branch dst addend shift => (s.r dst + addend).toNat / 2 ^ shift % 256 = 0
  | _ => False

/-- The register a branch tests. -/
def Instr.tested : Instr → Option (Fin 8)
  | .branch dst _ _ => some dst
  | _ => none

/-- Whether an instruction counts as a change of register `j`: it writes it, or it is a branch. Swapping a
    register with itself is no change. -/
def Instr.touches (j : Fin 8) : Instr → Prop
  | .int _ dst _ | .lea dst _ _ _ | .neg dst => j = dst
  | .swap dst src => dst ≠ src ∧ (j = dst ∨ j = src)
  | .branch _ _ _ => True
  | _ => False

/-! ## Decoding -/

/-- The operations, in the order of their opcodes. -/
inductive Opcode where
  | IADD_RS | IADD_M | ISUB_R | ISUB_M | IMUL_R | IMUL_M | IMULH_R | IMULH_M | ISMULH_R | ISMULH_M
  | IMUL_RCP | INEG_R | IXOR_R | IXOR_M | IROR_R | IROL_R | ISWAP_R
  | FSWAP_R | FADD_R | FADD_M | FSUB_R | FSUB_M | FSCAL_R | FMUL_R | FDIV_M | FSQRT_R
  | CBRANCH | CFROUND | ISTORE
deriving DecidableEq, Repr

/-- How many of the 256 opcodes each operation has. -/
def frequencies : List (Opcode × Nat) :=
  [(.IADD_RS, 16), (.IADD_M, 7), (.ISUB_R, 16), (.ISUB_M, 7), (.IMUL_R, 16), (.IMUL_M, 4),
   (.IMULH_R, 4), (.IMULH_M, 1), (.ISMULH_R, 4), (.ISMULH_M, 1), (.IMUL_RCP, 8), (.INEG_R, 2),
   (.IXOR_R, 15), (.IXOR_M, 5), (.IROR_R, 8), (.IROL_R, 2), (.ISWAP_R, 4),
   (.FSWAP_R, 4), (.FADD_R, 16), (.FADD_M, 5), (.FSUB_R, 16), (.FSUB_M, 5), (.FSCAL_R, 6),
   (.FMUL_R, 32), (.FDIV_M, 4), (.FSQRT_R, 6), (.CBRANCH, 25), (.CFROUND, 1), (.ISTORE, 16)]

-- every opcode byte names an operation
example : (frequencies.map Prod.snd).sum = 256 := rfl

/-- The operation whose opcodes, counted from `first` on, include `b`. -/
def lookup (b : Nat) : List (Opcode × Nat) → (first : Nat) → Opcode
  | [], _ => .ISTORE
  | (op, n) :: rest, first => if b < first + n then op else lookup b rest (first + n)

/-- The operation of an instruction word. -/
def operation (raw : RawInstruction) : Opcode := lookup raw.opcode.toNat frequencies 0

section

variable (raw : RawInstruction)

/-- The integer destination. -/
def dst : Fin 8 := ⟨raw.dst.toNat % 8, Nat.mod_lt _ (by decide)⟩

/-- The integer source. -/
def src : Fin 8 := ⟨raw.src.toNat % 8, Nat.mod_lt _ (by decide)⟩

/-- The floating-point destination. -/
def fdst : Fin 4 := ⟨raw.dst.toNat % 4, Nat.mod_lt _ (by decide)⟩

/-- The floating-point source. -/
def fsrc : Fin 4 := ⟨raw.src.toNat % 4, Nat.mod_lt _ (by decide)⟩

/-- The immediate, sign-extended. -/
def imm : Word := raw.imm32.signExtend 64

/-- `mod.mem` chooses between the two smaller levels. -/
def level : Level := if raw.mod_.toNat % 4 = 0 then .L2 else .L1

/-- A source register, which is the immediate when it would be the destination. -/
def regOperand : Operand := if src raw = dst raw then .imm (imm raw) else .reg (src raw)

/-- A source in memory, which is at a fixed address of the whole memory when the base would be the
    destination. -/
def memOperand : Operand :=
  if src raw = dst raw then .mem .L3 none (imm raw) else .mem (level raw) (some (src raw)) (imm raw)

/-- The memory operand of a floating-point instruction. -/
def fltOperand : FltMem := ⟨level raw, src raw, imm raw⟩

/-- `2^(63+b) / divisor`, where `b` is the bit length of the divisor. -/
def reciprocal (divisor : Nat) : Word := BitVec.ofNat 64 (2 ^ (63 + Nat.size divisor) / divisor)

/-- The addend of a branch: the immediate with bit `shift` set and the bit below it cleared. -/
def branchAddend (shift : Nat) : Word := (imm raw ||| 1#64 <<< shift) &&& ~~~(1#64 <<< (shift - 1))

/-- The instruction of an operation. -/
def decodeAs : Opcode → Instr
  | .IADD_RS =>
    .lea (dst raw) (src raw) (raw.mod_.toNat / 4 % 4) (if (dst raw).val = 5 then imm raw else 0)
  | .IADD_M => .int .add (dst raw) (memOperand raw)
  | .ISUB_R => .int .sub (dst raw) (regOperand raw)
  | .ISUB_M => .int .sub (dst raw) (memOperand raw)
  | .IMUL_R => .int .mul (dst raw) (regOperand raw)
  | .IMUL_M => .int .mul (dst raw) (memOperand raw)
  | .IMULH_R => .int .mulh (dst raw) (.reg (src raw))
  | .IMULH_M => .int .mulh (dst raw) (memOperand raw)
  | .ISMULH_R => .int .smulh (dst raw) (.reg (src raw))
  | .ISMULH_M => .int .smulh (dst raw) (memOperand raw)
  | .IMUL_RCP =>
    if raw.imm32.toNat = 0 ∨ raw.imm32.toNat.isPowerOfTwo then .nop
    else .int .mul (dst raw) (.imm (reciprocal raw.imm32.toNat))
  | .INEG_R => .neg (dst raw)
  | .IXOR_R => .int .xor (dst raw) (regOperand raw)
  | .IXOR_M => .int .xor (dst raw) (memOperand raw)
  | .IROR_R => .int .ror (dst raw) (regOperand raw)
  | .IROL_R => .int .rol (dst raw) (regOperand raw)
  | .ISWAP_R => .swap (dst raw) (src raw)
  | .FSWAP_R => if (dst raw).val < 4 then .swapF (fdst raw) else .swapE (fdst raw)
  | .FADD_R => .addF (fdst raw) (fsrc raw)
  | .FADD_M => .addFMem (fdst raw) (fltOperand raw)
  | .FSUB_R => .subF (fdst raw) (fsrc raw)
  | .FSUB_M => .subFMem (fdst raw) (fltOperand raw)
  | .FSCAL_R => .scaleF (fdst raw)
  | .FMUL_R => .mulE (fdst raw) (fsrc raw)
  | .FDIV_M => .divEMem (fdst raw) (fltOperand raw)
  | .FSQRT_R => .sqrtE (fdst raw)
  | .CBRANCH =>
    let shift := raw.mod_.toNat / 16 + 8
    .branch (dst raw) (branchAddend raw shift) shift
  | .CFROUND => .round (src raw) (raw.imm32.toNat % 64)
  | .ISTORE =>
    .store (if raw.mod_.toNat / 16 < 14 then level raw else .L3) (dst raw) (imm raw) (src raw)

/-- The instruction of an instruction word. -/
def decode : Instr := decodeAs raw (operation raw)

end

/-! ## Programs -/

/-- The text of a program. -/
abbrev Program := List RawInstruction

/-- Where the loop that a branch of register `j` at `i` closes begins: nothing between `entry` and `i`
    changes the register, and `entry` is the start of the program or follows a change. -/
structure LoopEntry (prog : Program) (i : Nat) (j : Fin 8) (entry : Nat) : Prop where
  le : entry ≤ i
  untouched : ∀ k raw, entry ≤ k → k < i → prog[k]? = some raw → ¬ (decode raw).touches j
  start : entry = 0 ∨ ∃ raw, prog[entry - 1]? = some raw ∧ (decode raw).touches j

section

variable (fp : FpUnit) (config : ProgramConfiguration) (version : RxVersion) (prog : Program)

/-- One step: on to the next instruction, or back to the entry of the loop. -/
inductive Step : Nat × State → Nat × State → Prop where
  | next {k : Nat} {raw : RawInstruction} {s : State} : prog[k]? = some raw → ¬ (decode raw).taken s →
      Step (k, s) (k + 1, (decode raw).exec fp config version s)
  | back {k : Nat} {raw : RawInstruction} {s : State} {j : Fin 8} {entry : Nat} :
      prog[k]? = some raw → (decode raw).taken s → (decode raw).tested = some j →
      LoopEntry prog k j entry → Step (k, s) (entry, (decode raw).exec fp config version s)

/-- **The program takes state `s` to state `t`**: it runs from its first instruction to its end. -/
def Halts (s t : State) : Prop :=
  Relation.ReflTransGen (Step fp config version prog) (0, s) (prog.length, t)

end

/-! ## A program has at most one result -/

section

variable {fp : FpUnit} {config : ProgramConfiguration} {version : RxVersion} {prog : Program}

theorem LoopEntry.unique {i : Nat} {j : Fin 8} {entry entry' : Nat} (h : LoopEntry prog i j entry)
    (h' : LoopEntry prog i j entry') : entry = entry' := by
  -- the later of the two follows a change, which the earlier rules out
  have hle : ∀ {a b : Nat}, LoopEntry prog i j a → LoopEntry prog i j b → b ≤ a := by
    intro a b ha hb
    by_contra hlt
    rcases hb.start with hzero | ⟨raw, hraw, htouch⟩
    · omega
    · exact ha.untouched (b - 1) raw (by omega) (by have := hb.le; omega) hraw htouch
  exact Nat.le_antisymm (hle h' h) (hle h h')

theorem Step.unique {c c₁ c₂ : Nat × State} (h₁ : Step fp config version prog c c₁)
    (h₂ : Step fp config version prog c c₂) : c₁ = c₂ := by
  cases h₁ with
  | next hraw hnot =>
    cases h₂ with
    | next hraw' _ =>
      cases hraw.symm.trans hraw'
      rfl
    | back hraw' htaken =>
      cases hraw.symm.trans hraw'
      exact absurd htaken hnot
  | back hraw htaken htested hentry =>
    cases h₂ with
    | next hraw' hnot =>
      cases hraw.symm.trans hraw'
      exact absurd htaken hnot
    | back hraw' _ htested' hentry' =>
      cases hraw.symm.trans hraw'
      cases htested.symm.trans htested'
      rw [hentry.unique hentry']

/-- No step leaves the end of the program. -/
theorem not_step_end {s : State} {c : Nat × State} :
    ¬ Step fp config version prog (prog.length, s) c := by
  intro h
  cases h with
  | next hraw => simp at hraw
  | back hraw => simp at hraw

theorem Halts.unique {s t t' : State} (h : Halts fp config version prog s t)
    (h' : Halts fp config version prog s t') : t = t' := by
  have hunique : Relator.RightUnique (Step fp config version prog) :=
    fun c c₁ c₂ h₁ h₂ => Step.unique h₁ h₂
  have hpaths := Relation.ReflTransGen.total_of_right_unique hunique h h'
  rcases hpaths with hpath | hpath
  · rcases hpath.cases_head with heq | ⟨c, hstep, _⟩
    · exact congrArg Prod.snd heq
    · exact absurd hstep not_step_end
  · rcases hpath.cases_head with heq | ⟨c, hstep, _⟩
    · exact (congrArg Prod.snd heq).symm
    · exact absurd hstep not_step_end

end

end Isa
end RandomX
end MinerTim
