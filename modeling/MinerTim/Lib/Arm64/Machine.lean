import MinerTim.Lib.LittleEndian

/-!
# `Lib.Arm64.Machine` — an A64 machine with double-precision arithmetic left uninterpreted

The part of the A64 instruction set that a small code generator needs: 64-bit integer and logical
instructions, wide moves, loads and stores, scalar double-precision arithmetic, the compare-and-branch
forms, and the FPCR write. An `Inst` is a *decoded* instruction: its fields are those of the encoding
(immediates at their encoded width), its register numbers are plain naturals.

* Memory is flat and byte-addressed; loads and stores are little-endian.
* Floating-point arithmetic is a parameter (`FpOps`): a function of the operand bits and of the
  rounding mode held in FPCR[23:22], and of nothing else.
* Register number 31 is the stack pointer or the zero register as each instruction says.
* A run is a function of its fuel (`run`). It ends by `ret`, and gets `stuck` outside the code, on an
  undefined logical immediate or on a branch to a negative word offset.
-/

namespace MinerTim
namespace Arm64

/-- FPCR.RMode: 0 nearest, 1 towards `+∞`, 2 towards `-∞`, 3 towards zero. -/
abbrev RMode := BitVec 2

/-- Double-precision arithmetic on bit patterns, under a rounding mode. -/
structure FpOps where
  fadd : RMode → Word → Word → Word
  fsub : RMode → Word → Word → Word
  fmul : RMode → Word → Word → Word
  fdiv : RMode → Word → Word → Word
  fsqrt : RMode → Word → Word
  /-- Conversion of a signed 64-bit integer. -/
  scvtf : RMode → Word → Word

/-- The condition flags. -/
structure Flags where
  n : Bool
  z : Bool
  c : Bool
  v : Bool
deriving DecidableEq, Repr

/-- Architectural state, apart from the program counter. Only the low 64 bits of the vector registers
    are kept: no modelled instruction reads the rest. Bits 63:32 of FPCR are reserved and not kept. -/
structure State where
  x : Nat → Word
  sp : Word
  d : Nat → Word
  flags : Flags
  fpcr : BitVec 32
  mem : Word → Byte

/-- Decoded instructions. -/
inductive Inst where
  | addReg (rd rn rm : Nat) (shift : BitVec 6)
  | subReg (rd rn rm : Nat)
  | addImm (rd rn : Nat) (imm12 : BitVec 12)
  | subImm (rd rn : Nat) (imm12 : BitVec 12)
  | subsImm (rd rn : Nat) (imm12 : BitVec 12)
  | madd (rd rn rm ra : Nat)
  | umulh (rd rn rm : Nat)
  | smulh (rd rn rm : Nat)
  | andReg (rd rn rm : Nat)
  | andsReg (rd rn rm : Nat)
  | orrReg (rd rn rm : Nat)
  | eorReg (rd rn rm : Nat)
  | eorRegW (rd rn rm : Nat)
  | andImm (rd rn : Nat) (n : BitVec 1) (immr imms : BitVec 6)
  | andsImm (rd rn : Nat) (n : BitVec 1) (immr imms : BitVec 6)
  | rorv (rd rn rm : Nat)
  | extr (rd rn rm : Nat) (lsb : BitVec 6)
  | ubfm (rd rn : Nat) (immr imms : BitVec 6)
  | movz (rd : Nat) (imm16 : BitVec 16) (hw : BitVec 2)
  | movk (rd : Nat) (imm16 : BitVec 16) (hw : BitVec 2)
  | movn (rd : Nat) (imm16 : BitVec 16) (hw : BitVec 2)
  | ldrReg (rt rn rm : Nat)
  | strReg (rt rn rm : Nat)
  | ldrImm (rt rn : Nat) (imm12 : BitVec 12)
  | strImm (rt rn : Nat) (imm12 : BitVec 12)
  | ldrswImm (rt rn : Nat) (imm12 : BitVec 12)
  | ldrFpImm (dt rn : Nat) (imm12 : BitVec 12)
  | strFpImm (dt rn : Nat) (imm12 : BitVec 12)
  | stpPre (rt1 rt2 rn : Nat) (imm7 : BitVec 7)
  | ldpPost (rt1 rt2 rn : Nat) (imm7 : BitVec 7)
  | stpFpPre (dt1 dt2 rn : Nat) (imm7 : BitVec 7)
  | ldpFpPost (dt1 dt2 rn : Nat) (imm7 : BitVec 7)
  | stpFpImm (dt1 dt2 rn : Nat) (imm7 : BitVec 7)
  | prfmReg (rn rm : Nat)
  | fadd (dd dn dm : Nat)
  | fsub (dd dn dm : Nat)
  | fmul (dd dn dm : Nat)
  | fdiv (dd dn dm : Nat)
  | fsqrt (dd dn : Nat)
  | fmovDD (dd dn : Nat)
  | fmovXD (rd dn : Nat)
  | fmovDX (dd rn : Nat)
  | scvtfDX (dd rn : Nat)
  | eorV8b (dd dn dm : Nat)
  | msrFpcr (rt : Nat)
  | bCond (cond : BitVec 4) (imm19 : BitVec 19)
  | cbz (rt : Nat) (imm19 : BitVec 19)
  | ret
deriving DecidableEq, Repr

/-- A program: the instruction at word offset `k` is element `k`. -/
abbrev Code := List Inst

/-! ## Operand values -/

/-- The logical immediate named by `(N, immr, imms)` (64-bit form), or `none` where it is reserved. -/
def decodeBitMasks (n : BitVec 1) (immr imms : BitVec 6) : Option Word :=
  let v := n.toNat * 64 + (63 - imms.toNat)
  let len := v.log2
  let levels := 2 ^ len - 1
  let s := imms.toNat &&& levels
  let r := immr.toNat &&& levels
  let esize := 2 ^ len
  let ones := 2 ^ (s + 1) - 1
  let elem := (ones >>> r ||| ones <<< (esize - r)) % 2 ^ esize
  if v < 2 ∨ s = levels then none
  else some (BitVec.ofNat 64 (elem * ((2 ^ 64 - 1) / (2 ^ esize - 1))))

/-- High half of the unsigned 128-bit product. -/
def mulHigh (a b : Word) : Word := ((a.setWidth 128 * b.setWidth 128) >>> 64).setWidth 64

/-- High half of the signed 128-bit product. -/
def smulHigh (a b : Word) : Word := ((a.signExtend 128 * b.signExtend 128) >>> 64).setWidth 64

/-- The unsigned bitfield move, which `lsl #n` and `lsr #n` are aliases of. -/
def bitfield (v : Word) (immr imms : BitVec 6) : Word :=
  if immr ≤ imms then (v >>> immr.toNat) &&& BitVec.ofNat 64 (2 ^ (imms.toNat - immr.toNat + 1) - 1)
  else (v &&& BitVec.ofNat 64 (2 ^ (imms.toNat + 1) - 1)) <<< (64 - immr.toNat)

/-- Whether a branch condition holds. Conditions come in pairs that differ in bit 0. -/
def condHolds (cond : BitVec 4) (f : Flags) : Bool :=
  let base := match cond.toNat / 2 with
    | 0 => f.z
    | 1 => f.c
    | 2 => f.n
    | 3 => f.v
    | 4 => f.c && !f.z
    | 5 => f.n == f.v
    | 6 => (f.n == f.v) && !f.z
    | _ => true
  if cond.toNat % 2 = 1 ∧ cond ≠ 15 then !base else base

namespace State

/-- Read `Xn`, where register 31 is the zero register. -/
def getX (s : State) (n : Nat) : Word := if n = 31 then 0 else s.x n

/-- Read `Xn`, where register 31 is the stack pointer. -/
def getXSp (s : State) (n : Nat) : Word := if n = 31 then s.sp else s.x n

/-- Write `Xn`; a write to the zero register is dropped. -/
def setX (s : State) (n : Nat) (v : Word) : State :=
  if n = 31 then s else { s with x := fun m => if m = n then v else s.x m }

/-- Write `Xn`, where register 31 is the stack pointer. -/
def setXSp (s : State) (n : Nat) (v : Word) : State :=
  if n = 31 then { s with sp := v } else { s with x := fun m => if m = n then v else s.x m }

/-- Write `Dn`. -/
def setD (s : State) (n : Nat) (v : Word) : State :=
  { s with d := fun m => if m = n then v else s.d m }

/-- Write the condition flags. -/
def setFlags (s : State) (f : Flags) : State := { s with flags := f }

/-- Write FPCR. -/
def setFpcr (s : State) (v : BitVec 32) : State := { s with fpcr := v }

/-- The rounding mode, FPCR[23:22]. -/
def rmode (s : State) : RMode := s.fpcr.extractLsb' 22 2

/-- The doubleword at address `a`. -/
def read (s : State) (a : Word) : Word := leWord fun k => s.mem (a + BitVec.ofNat 64 k)

/-- The word at address `a`. -/
def read32 (s : State) (a : Word) : BitVec 32 := leWord32 fun k => s.mem (a + BitVec.ofNat 64 k)

/-- Store a doubleword at address `a`. -/
def write (s : State) (a v : Word) : State :=
  { s with mem := fun b => if (b - a).toNat < 8 then byteOf v (b - a).toNat else s.mem b }

/-- The flags of a logical result. -/
def logicFlags (r : Word) : Flags := { n := r.msb, z := r == 0, c := false, v := false }

/-- The flags of the subtraction `a - b`. -/
def subFlags (a b : Word) : Flags :=
  let r := a - b
  { n := r.msb, z := r == 0, c := b ≤ a, v := (a.msb != b.msb) && (r.msb != a.msb) }

end State

/-! ## Instruction semantics -/

/-- A pair offset: signed, in doublewords. -/
def pairOffset (imm7 : BitVec 7) : Word := imm7.signExtend 64 <<< 3

/-- A load or store offset: unsigned, in doublewords. -/
def scaledOffset (imm12 : BitVec 12) : Word := imm12.setWidth 64 <<< 3

/-- The effect of an instruction that does not branch. -/
def exec (fp : FpOps) (i : Inst) (s : State) : State :=
  match i with
  | .addReg rd rn rm sh => s.setX rd (s.getX rn + s.getX rm <<< sh.toNat)
  | .subReg rd rn rm => s.setX rd (s.getX rn - s.getX rm)
  | .addImm rd rn imm => s.setXSp rd (s.getXSp rn + imm.setWidth 64)
  | .subImm rd rn imm => s.setXSp rd (s.getXSp rn - imm.setWidth 64)
  | .subsImm rd rn imm =>
    (s.setX rd (s.getXSp rn - imm.setWidth 64)).setFlags
      (State.subFlags (s.getXSp rn) (imm.setWidth 64))
  | .madd rd rn rm ra => s.setX rd (s.getX ra + s.getX rn * s.getX rm)
  | .umulh rd rn rm => s.setX rd (mulHigh (s.getX rn) (s.getX rm))
  | .smulh rd rn rm => s.setX rd (smulHigh (s.getX rn) (s.getX rm))
  | .andReg rd rn rm => s.setX rd (s.getX rn &&& s.getX rm)
  | .andsReg rd rn rm =>
    (s.setX rd (s.getX rn &&& s.getX rm)).setFlags (State.logicFlags (s.getX rn &&& s.getX rm))
  | .orrReg rd rn rm => s.setX rd (s.getX rn ||| s.getX rm)
  | .eorReg rd rn rm => s.setX rd (s.getX rn ^^^ s.getX rm)
  | .eorRegW rd rn rm => s.setX rd (((s.getX rn ^^^ s.getX rm).setWidth 32).setWidth 64)
  | .andImm rd rn n immr imms =>
    s.setXSp rd (s.getX rn &&& (decodeBitMasks n immr imms).getD 0)
  | .andsImm rd rn n immr imms =>
    let r := s.getX rn &&& (decodeBitMasks n immr imms).getD 0
    (s.setX rd r).setFlags (State.logicFlags r)
  | .rorv rd rn rm => s.setX rd ((s.getX rn).rotateRight ((s.getX rm).toNat % 64))
  | .extr rd rn rm lsb => s.setX rd (((s.getX rn ++ s.getX rm) >>> lsb.toNat).setWidth 64)
  | .ubfm rd rn immr imms => s.setX rd (bitfield (s.getX rn) immr imms)
  | .movz rd imm hw => s.setX rd (imm.setWidth 64 <<< (16 * hw.toNat))
  | .movk rd imm hw =>
    s.setX rd (s.getX rd &&& ~~~(0xFFFF#64 <<< (16 * hw.toNat))
      ||| imm.setWidth 64 <<< (16 * hw.toNat))
  | .movn rd imm hw => s.setX rd (~~~(imm.setWidth 64 <<< (16 * hw.toNat)))
  | .ldrReg rt rn rm => s.setX rt (s.read (s.getXSp rn + s.getX rm))
  | .strReg rt rn rm => s.write (s.getXSp rn + s.getX rm) (s.getX rt)
  | .ldrImm rt rn imm => s.setX rt (s.read (s.getXSp rn + scaledOffset imm))
  | .strImm rt rn imm => s.write (s.getXSp rn + scaledOffset imm) (s.getX rt)
  | .ldrswImm rt rn imm =>
    s.setX rt ((s.read32 (s.getXSp rn + imm.setWidth 64 <<< 2)).signExtend 64)
  | .ldrFpImm dt rn imm => s.setD dt (s.read (s.getXSp rn + scaledOffset imm))
  | .strFpImm dt rn imm => s.write (s.getXSp rn + scaledOffset imm) (s.d dt)
  | .stpPre rt1 rt2 rn imm =>
    let a := s.getXSp rn + pairOffset imm
    ((s.write a (s.getX rt1)).write (a + 8) (s.getX rt2)).setXSp rn a
  | .ldpPost rt1 rt2 rn imm =>
    let a := s.getXSp rn
    ((s.setX rt1 (s.read a)).setX rt2 (s.read (a + 8))).setXSp rn (a + pairOffset imm)
  | .stpFpPre dt1 dt2 rn imm =>
    let a := s.getXSp rn + pairOffset imm
    ((s.write a (s.d dt1)).write (a + 8) (s.d dt2)).setXSp rn a
  | .ldpFpPost dt1 dt2 rn imm =>
    let a := s.getXSp rn
    ((s.setD dt1 (s.read a)).setD dt2 (s.read (a + 8))).setXSp rn (a + pairOffset imm)
  | .stpFpImm dt1 dt2 rn imm =>
    let a := s.getXSp rn + pairOffset imm
    (s.write a (s.d dt1)).write (a + 8) (s.d dt2)
  | .fadd dd dn dm => s.setD dd (fp.fadd s.rmode (s.d dn) (s.d dm))
  | .fsub dd dn dm => s.setD dd (fp.fsub s.rmode (s.d dn) (s.d dm))
  | .fmul dd dn dm => s.setD dd (fp.fmul s.rmode (s.d dn) (s.d dm))
  | .fdiv dd dn dm => s.setD dd (fp.fdiv s.rmode (s.d dn) (s.d dm))
  | .fsqrt dd dn => s.setD dd (fp.fsqrt s.rmode (s.d dn))
  | .fmovDD dd dn => s.setD dd (s.d dn)
  | .fmovXD rd dn => s.setX rd (s.d dn)
  | .fmovDX dd rn => s.setD dd (s.getX rn)
  | .scvtfDX dd rn => s.setD dd (fp.scvtf s.rmode (s.getX rn))
  | .eorV8b dd dn dm => s.setD dd (s.d dn ^^^ s.d dm)
  | .msrFpcr rt => s.setFpcr ((s.getX rt).setWidth 32)
  -- a prefetch has no architectural effect; the branches act on the program counter only
  | .prfmReg _ _ | .bCond _ _ | .cbz _ _ | .ret => s

/-- Instructions that may set the program counter to something else than the next word. -/
def Inst.isBranch : Inst → Bool
  | .bCond _ _ | .cbz _ _ | .ret => true
  | _ => false

/-- Whether the instruction is defined: only a logical immediate can fail to be. -/
def Inst.isDefined : Inst → Bool
  | .andImm _ _ n immr imms | .andsImm _ _ n immr imms => (decodeBitMasks n immr imms).isSome
  | _ => true

/-- What a machine does: goes on at a word offset, returns to its caller, or is stuck. -/
inductive Outcome where
  | running (pc : Nat) (s : State)
  | returned (s : State)
  | stuck

/-- A taken branch over a signed distance in words. -/
def jump (pc : Nat) (imm19 : BitVec 19) (s : State) : Outcome :=
  let t := (pc : Int) + imm19.toInt
  if 0 ≤ t then .running t.toNat s else .stuck

/-- One machine step. -/
def step (fp : FpOps) (code : Code) (pc : Nat) (s : State) : Outcome :=
  match code[pc]? with
  | none => .stuck
  | some i =>
    if i.isDefined then
      match i with
      | .bCond cond imm19 => if condHolds cond s.flags then jump pc imm19 s else .running (pc + 1) s
      | .cbz rt imm19 => if s.getX rt = 0 then jump pc imm19 s else .running (pc + 1) s
      | .ret => .returned s
      | i => .running (pc + 1) (exec fp i s)
    else .stuck

/-- At most `n` machine steps. -/
def run (fp : FpOps) (code : Code) : Nat → Nat → State → Outcome
  | 0, pc, s => .running pc s
  | n + 1, pc, s =>
    match step fp code pc s with
    | .running pc' s' => run fp code n pc' s'
    | o => o

end Arm64
end MinerTim
