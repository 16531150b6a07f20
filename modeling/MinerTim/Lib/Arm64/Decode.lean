import MinerTim.Lib.Arm64.Machine

/-!
# `Lib.Arm64.Decode` — the A64 encoding tables

A row of the tables (`Encoding`) is the diagram of an instruction word, from bit 31 down to bit 0, and the
instruction that it stands for. A diagram is made of fixed bits and of fields, and the fields stand where they
are read (`Encoding.tiles`): a row whose fields overlap, or leave a bit out, cannot be written. The rows are
grouped as in the architecture's index of encodings, each class one diagram with the bits that tell its members
apart as parameters.

* No word matches two rows (`encodings_exclusive`), so a word that matches a row decodes to it (`decode_eq`).
* A word is usually made by OR-ing operands into fixed bits. `place_and` and `extract_place` say what a mask and
  a field see of an operand that was put at bit `k`; their side conditions are closed and go to `decide`.
-/

namespace MinerTim
namespace Arm64

/-! ## Diagrams -/

/-- Consecutive bits of a word. -/
structure BitField where
  lo : Nat
  width : Nat
deriving DecidableEq, Repr

/-- A piece of a diagram. -/
inductive Piece where
  | fixed (width value : Nat)
  | operand (f : BitField)
deriving DecidableEq, Repr

/-- Read a field. -/
def BitField.get (f : BitField) (w : BitVec 32) : BitVec f.width := w.extractLsb' f.lo f.width

namespace Piece

/-- The bits that a piece takes. -/
def width : Piece → Nat
  | fixed width _ => width
  | operand f => f.width

/-- Ones where the bits are fixed. -/
def mask : Piece → Nat
  | fixed width _ => 2 ^ width - 1
  | operand _ => 0

/-- The fixed bits themselves. -/
def value : Piece → Nat
  | fixed _ value => value
  | operand _ => 0

end Piece

/-- The pieces fill the bits below `hi`, and every field stands where it is read. -/
def Tiles : Nat → List Piece → Bool
  | hi, [] => hi == 0
  | hi, .fixed width value :: ps => decide (width ≤ hi ∧ value < 2 ^ width) && Tiles (hi - width) ps
  | hi, .operand f :: ps => f.lo + f.width == hi && Tiles f.lo ps

/-- A row of the tables. -/
structure Encoding where
  diagram : List Piece
  inst : BitVec 32 → Inst
  tiles : Tiles 32 diagram = true

namespace Encoding

/-- Ones where the word is fixed. -/
def mask (e : Encoding) : BitVec 32 :=
  BitVec.ofNat 32 (e.diagram.foldl (fun acc p => acc * 2 ^ p.width + p.mask) 0)

/-- The fixed bits of the word. -/
def value (e : Encoding) : BitVec 32 :=
  BitVec.ofNat 32 (e.diagram.foldl (fun acc p => acc * 2 ^ p.width + p.value) 0)

/-- The word has the fixed bits of the row. -/
def Matches (e : Encoding) (w : BitVec 32) : Prop := w &&& e.mask = e.value

instance (e : Encoding) (w : BitVec 32) : Decidable (e.Matches w) :=
  inferInstanceAs (Decidable (w &&& e.mask = e.value))

/-- Some bit is fixed in both rows, to different values. -/
def exclusive (e e' : Encoding) : Bool := e.mask &&& e'.mask &&& (e.value ^^^ e'.value) != 0

theorem not_matches_of_exclusive {e e' : Encoding} {w : BitVec 32} (h : exclusive e e' = true)
    (he : e.Matches w) : ¬ e'.Matches w := by
  intro he'
  have hzero : e.mask &&& e'.mask &&& (e.value ^^^ e'.value) = 0 := by
    rw [← show w &&& e.mask = e.value from he, ← show w &&& e'.mask = e'.value from he']
    apply BitVec.eq_of_getLsbD_eq
    intro k _
    simp only [BitVec.getLsbD_and, BitVec.getLsbD_xor]
    cases w.getLsbD k <;> cases e.mask.getLsbD k <;> cases e'.mask.getLsbD k <;> simp
  simp [exclusive, hzero] at h

end Encoding

/-! ## Fields -/

namespace BitField

/-- The destination. -/
abbrev rd : BitField := ⟨0, 5⟩

/-- The register that is loaded or stored. -/
abbrev rt : BitField := ⟨0, 5⟩

/-- The first source, or a base. -/
abbrev rn : BitField := ⟨5, 5⟩

/-- The second source, or an index. -/
abbrev rm : BitField := ⟨16, 5⟩

/-- The addend of a multiplication. -/
abbrev ra : BitField := ⟨10, 5⟩

/-- The second register of a pair. -/
abbrev rt2 : BitField := ⟨10, 5⟩

/-- A shift amount. -/
abbrev imm6 : BitField := ⟨10, 6⟩

/-- The offset of a pair. -/
abbrev imm7 : BitField := ⟨15, 7⟩

/-- An arithmetic immediate, or an offset. -/
abbrev imm12 : BitField := ⟨10, 12⟩

/-- A wide immediate. -/
abbrev imm16 : BitField := ⟨5, 16⟩

/-- A branch offset. -/
abbrev imm19 : BitField := ⟨5, 19⟩

/-- The rotation of a bitmask. -/
abbrev immr : BitField := ⟨16, 6⟩

/-- The size and length of a bitmask. -/
abbrev imms : BitField := ⟨10, 6⟩

/-- The shift of a wide immediate. -/
abbrev hw : BitField := ⟨21, 2⟩

/-- The top bit of the size of a bitmask. -/
abbrev n : BitField := ⟨22, 1⟩

/-- A condition. -/
abbrev cond : BitField := ⟨0, 4⟩

/-- A register number. -/
def reg (f : BitField) (w : BitVec 32) : Nat := (f.get w).toNat

end BitField

/-! ## Classes

The parameters are the bits that the members of a class differ in, under the architecture's names. -/

namespace Diagram

open Piece

/-- Add/subtract (immediate), 64-bit, not shifted. -/
def addSubImmediate (op s : Nat) : List Piece :=
  [fixed 1 1, fixed 1 op, fixed 1 s, fixed 6 0b100010, fixed 1 0, operand .imm12, operand .rn, operand .rd]

/-- Logical (immediate), 64-bit. -/
def logicalImmediate (opc : Nat) : List Piece :=
  [fixed 1 1, fixed 2 opc, fixed 6 0b100100, operand .n, operand .immr, operand .imms, operand .rn, operand .rd]

/-- Move wide (immediate), 64-bit. -/
def moveWide (opc : Nat) : List Piece :=
  [fixed 1 1, fixed 2 opc, fixed 6 0b100101, operand .hw, operand .imm16, operand .rd]

/-- Bitfield, 64-bit. -/
def bitfieldMove (opc : Nat) : List Piece :=
  [fixed 1 1, fixed 2 opc, fixed 6 0b100110, fixed 1 1, operand .immr, operand .imms, operand .rn, operand .rd]

/-- Extract, 64-bit. -/
def extract : List Piece :=
  [fixed 1 1, fixed 2 0b00, fixed 6 0b100111, fixed 1 1, fixed 1 0, operand .rm, operand .imm6, operand .rn,
    operand .rd]

/-- Conditional branch (immediate). -/
def conditionalBranch : List Piece :=
  [fixed 7 0b0101010, fixed 1 0, operand .imm19, fixed 1 0, operand .cond]

/-- Compare and branch (immediate), 64-bit. -/
def compareBranch (op : Nat) : List Piece :=
  [fixed 1 1, fixed 6 0b011010, fixed 1 op, operand .imm19, operand .rt]

/-- Unconditional branch (register), to the link register. -/
def returnBranch : List Piece :=
  [fixed 7 0b1101011, fixed 4 0b0010, fixed 5 0b11111, fixed 6 0b000000, fixed 5 30, fixed 5 0b00000]

/-- System register move, to the register `op0 op1 CRn CRm op2`. -/
def systemMove (op0 op1 crn crm op2 : Nat) : List Piece :=
  [fixed 10 0b1101010100, fixed 1 0, fixed 2 op0, fixed 3 op1, fixed 4 crn, fixed 4 crm, fixed 3 op2,
    operand .rt]

/-- Load/store register (register offset), not extended and not shifted. -/
def loadStoreRegister (size v opc : Nat) (rt : Piece) : List Piece :=
  [fixed 2 size, fixed 3 0b111, fixed 1 v, fixed 2 0b00, fixed 2 opc, fixed 1 1, operand .rm, fixed 3 0b011,
    fixed 1 0, fixed 2 0b10, operand .rn, rt]

/-- Load/store register (unsigned immediate). -/
def loadStoreUnsigned (size v opc : Nat) : List Piece :=
  [fixed 2 size, fixed 3 0b111, fixed 1 v, fixed 2 0b01, fixed 2 opc, operand .imm12, operand .rn, operand .rt]

/-- Load/store register pair: `mode` is 001 post-indexed, 010 offset, 011 pre-indexed. -/
def loadStorePair (opc v mode l : Nat) : List Piece :=
  [fixed 2 opc, fixed 3 0b101, fixed 1 v, fixed 3 mode, fixed 1 l, operand .imm7, operand .rt2, operand .rn,
    operand .rt]

/-- Add/subtract (shifted register), 64-bit, by a left shift. -/
def addSubShifted (op s : Nat) (imm6 : Piece) : List Piece :=
  [fixed 1 1, fixed 1 op, fixed 1 s, fixed 5 0b01011, fixed 2 0b00, fixed 1 0, operand .rm, imm6, operand .rn,
    operand .rd]

/-- Logical (shifted register), by nothing. -/
def logicalShifted (sf opc : Nat) : List Piece :=
  [fixed 1 sf, fixed 2 opc, fixed 5 0b01010, fixed 2 0b00, fixed 1 0, operand .rm, fixed 6 0, operand .rn,
    operand .rd]

/-- Data-processing (2 source), 64-bit. -/
def twoSource (opcode : Nat) : List Piece :=
  [fixed 1 1, fixed 1 0, fixed 1 0, fixed 8 0b11010110, operand .rm, fixed 6 opcode, operand .rn, operand .rd]

/-- Data-processing (3 source), 64-bit. -/
def threeSource (op31 o0 : Nat) (ra : Piece) : List Piece :=
  [fixed 1 1, fixed 2 0b00, fixed 5 0b11011, fixed 3 op31, operand .rm, fixed 1 o0, ra, operand .rn, operand .rd]

/-- Floating-point data-processing (2 source), double precision. -/
def fpTwoSource (opcode : Nat) : List Piece :=
  [fixed 3 0b000, fixed 5 0b11110, fixed 2 0b01, fixed 1 1, operand .rm, fixed 4 opcode, fixed 2 0b10,
    operand .rn, operand .rd]

/-- Floating-point data-processing (1 source), double precision. -/
def fpOneSource (opcode : Nat) : List Piece :=
  [fixed 3 0b000, fixed 5 0b11110, fixed 2 0b01, fixed 1 1, fixed 6 opcode, fixed 5 0b10000, operand .rn,
    operand .rd]

/-- Conversion between floating-point and integer, double precision and 64-bit. -/
def fpInteger (rmode opcode : Nat) : List Piece :=
  [fixed 1 1, fixed 2 0b00, fixed 5 0b11110, fixed 2 0b01, fixed 1 1, fixed 2 rmode, fixed 3 opcode,
    fixed 6 0b000000, operand .rn, operand .rd]

/-- Advanced SIMD three same, on 8 bytes. -/
def threeSame (u size opcode : Nat) : List Piece :=
  [fixed 1 0, fixed 1 0, fixed 1 u, fixed 5 0b01110, fixed 2 size, fixed 1 1, operand .rm, fixed 5 opcode,
    fixed 1 1, operand .rn, operand .rd]

end Diagram

/-! ## The tables -/

namespace Encodings

open Diagram BitField

/-- `ADD` (immediate). -/
def addImm : Encoding := ⟨addSubImmediate 0 0, fun w => .addImm (rd.reg w) (rn.reg w) (imm12.get w), rfl⟩

/-- `SUB` (immediate). -/
def subImm : Encoding := ⟨addSubImmediate 1 0, fun w => .subImm (rd.reg w) (rn.reg w) (imm12.get w), rfl⟩

/-- `SUBS` (immediate). -/
def subsImm : Encoding := ⟨addSubImmediate 1 1, fun w => .subsImm (rd.reg w) (rn.reg w) (imm12.get w), rfl⟩

/-- `AND` (immediate). -/
def andImm : Encoding :=
  ⟨logicalImmediate 0b00, fun w => .andImm (rd.reg w) (rn.reg w) (n.get w) (immr.get w) (imms.get w), rfl⟩

/-- `ANDS` (immediate). -/
def andsImm : Encoding :=
  ⟨logicalImmediate 0b11, fun w => .andsImm (rd.reg w) (rn.reg w) (n.get w) (immr.get w) (imms.get w), rfl⟩

/-- `MOVN`. -/
def movn : Encoding := ⟨moveWide 0b00, fun w => .movn (rd.reg w) (imm16.get w) (hw.get w), rfl⟩

/-- `MOVZ`. -/
def movz : Encoding := ⟨moveWide 0b10, fun w => .movz (rd.reg w) (imm16.get w) (hw.get w), rfl⟩

/-- `MOVK`. -/
def movk : Encoding := ⟨moveWide 0b11, fun w => .movk (rd.reg w) (imm16.get w) (hw.get w), rfl⟩

/-- `UBFM`. -/
def ubfm : Encoding :=
  ⟨bitfieldMove 0b10, fun w => .ubfm (rd.reg w) (rn.reg w) (immr.get w) (imms.get w), rfl⟩

/-- `EXTR`. -/
def extr : Encoding := ⟨extract, fun w => .extr (rd.reg w) (rn.reg w) (rm.reg w) (imm6.get w), rfl⟩

/-- `B.cond`. -/
def bCond : Encoding := ⟨conditionalBranch, fun w => .bCond (cond.get w) (imm19.get w), rfl⟩

/-- `CBZ`. -/
def cbz : Encoding := ⟨compareBranch 0, fun w => .cbz (rt.reg w) (imm19.get w), rfl⟩

/-- `RET X30`. -/
def ret : Encoding := ⟨returnBranch, fun _ => .ret, rfl⟩

/-- `MSR FPCR, Xt`. -/
def msrFpcr : Encoding := ⟨systemMove 0b11 0b011 0b0100 0b0100 0b000, fun w => .msrFpcr (rt.reg w), rfl⟩

/-- `STR` (register). -/
def strReg : Encoding :=
  ⟨loadStoreRegister 0b11 0 0b00 (.operand rt), fun w => .strReg (rt.reg w) (rn.reg w) (rm.reg w), rfl⟩

/-- `LDR` (register). -/
def ldrReg : Encoding :=
  ⟨loadStoreRegister 0b11 0 0b01 (.operand rt), fun w => .ldrReg (rt.reg w) (rn.reg w) (rm.reg w), rfl⟩

/-- `PRFM` (register): the operation 00000 is `PLDL1KEEP`. -/
def prfmReg : Encoding :=
  ⟨loadStoreRegister 0b11 0 0b10 (.fixed 5 0b00000), fun w => .prfmReg (rn.reg w) (rm.reg w), rfl⟩

/-- `STR` (immediate). -/
def strImm : Encoding :=
  ⟨loadStoreUnsigned 0b11 0 0b00, fun w => .strImm (rt.reg w) (rn.reg w) (imm12.get w), rfl⟩

/-- `LDR` (immediate). -/
def ldrImm : Encoding :=
  ⟨loadStoreUnsigned 0b11 0 0b01, fun w => .ldrImm (rt.reg w) (rn.reg w) (imm12.get w), rfl⟩

/-- `LDRSW` (immediate). -/
def ldrswImm : Encoding :=
  ⟨loadStoreUnsigned 0b10 0 0b10, fun w => .ldrswImm (rt.reg w) (rn.reg w) (imm12.get w), rfl⟩

/-- `STR` (immediate), of a double. -/
def strFpImm : Encoding :=
  ⟨loadStoreUnsigned 0b11 1 0b00, fun w => .strFpImm (rt.reg w) (rn.reg w) (imm12.get w), rfl⟩

/-- `LDR` (immediate), of a double. -/
def ldrFpImm : Encoding :=
  ⟨loadStoreUnsigned 0b11 1 0b01, fun w => .ldrFpImm (rt.reg w) (rn.reg w) (imm12.get w), rfl⟩

/-- `STP`, pre-indexed. -/
def stpPre : Encoding :=
  ⟨loadStorePair 0b10 0 0b011 0, fun w => .stpPre (rt.reg w) (rt2.reg w) (rn.reg w) (imm7.get w), rfl⟩

/-- `LDP`, post-indexed. -/
def ldpPost : Encoding :=
  ⟨loadStorePair 0b10 0 0b001 1, fun w => .ldpPost (rt.reg w) (rt2.reg w) (rn.reg w) (imm7.get w), rfl⟩

/-- `STP` of doubles, pre-indexed. -/
def stpFpPre : Encoding :=
  ⟨loadStorePair 0b01 1 0b011 0, fun w => .stpFpPre (rt.reg w) (rt2.reg w) (rn.reg w) (imm7.get w), rfl⟩

/-- `LDP` of doubles, post-indexed. -/
def ldpFpPost : Encoding :=
  ⟨loadStorePair 0b01 1 0b001 1, fun w => .ldpFpPost (rt.reg w) (rt2.reg w) (rn.reg w) (imm7.get w), rfl⟩

/-- `STP` of doubles, at an offset. -/
def stpFpImm : Encoding :=
  ⟨loadStorePair 0b01 1 0b010 0, fun w => .stpFpImm (rt.reg w) (rt2.reg w) (rn.reg w) (imm7.get w), rfl⟩

/-- `ADD` (shifted register), shifted to the left. -/
def addReg : Encoding :=
  ⟨addSubShifted 0 0 (.operand imm6), fun w => .addReg (rd.reg w) (rn.reg w) (rm.reg w) (imm6.get w), rfl⟩

/-- `SUB` (shifted register), without a shift. -/
def subReg : Encoding :=
  ⟨addSubShifted 1 0 (.fixed 6 0), fun w => .subReg (rd.reg w) (rn.reg w) (rm.reg w), rfl⟩

/-- `AND` (shifted register), without a shift. -/
def andReg : Encoding := ⟨logicalShifted 1 0b00, fun w => .andReg (rd.reg w) (rn.reg w) (rm.reg w), rfl⟩

/-- `ORR` (shifted register), without a shift. -/
def orrReg : Encoding := ⟨logicalShifted 1 0b01, fun w => .orrReg (rd.reg w) (rn.reg w) (rm.reg w), rfl⟩

/-- `EOR` (shifted register), without a shift. -/
def eorReg : Encoding := ⟨logicalShifted 1 0b10, fun w => .eorReg (rd.reg w) (rn.reg w) (rm.reg w), rfl⟩

/-- `ANDS` (shifted register), without a shift. -/
def andsReg : Encoding := ⟨logicalShifted 1 0b11, fun w => .andsReg (rd.reg w) (rn.reg w) (rm.reg w), rfl⟩

/-- `EOR` (shifted register) of words. -/
def eorRegW : Encoding := ⟨logicalShifted 0 0b10, fun w => .eorRegW (rd.reg w) (rn.reg w) (rm.reg w), rfl⟩

/-- `RORV`. -/
def rorv : Encoding := ⟨twoSource 0b001011, fun w => .rorv (rd.reg w) (rn.reg w) (rm.reg w), rfl⟩

/-- `MADD`. -/
def madd : Encoding :=
  ⟨threeSource 0b000 0 (.operand ra), fun w => .madd (rd.reg w) (rn.reg w) (rm.reg w) (ra.reg w), rfl⟩

/-- `SMULH`. -/
def smulh : Encoding :=
  ⟨threeSource 0b010 0 (.fixed 5 0b11111), fun w => .smulh (rd.reg w) (rn.reg w) (rm.reg w), rfl⟩

/-- `UMULH`. -/
def umulh : Encoding :=
  ⟨threeSource 0b110 0 (.fixed 5 0b11111), fun w => .umulh (rd.reg w) (rn.reg w) (rm.reg w), rfl⟩

/-- `FMUL`, double. -/
def fmul : Encoding := ⟨fpTwoSource 0b0000, fun w => .fmul (rd.reg w) (rn.reg w) (rm.reg w), rfl⟩

/-- `FDIV`, double. -/
def fdiv : Encoding := ⟨fpTwoSource 0b0001, fun w => .fdiv (rd.reg w) (rn.reg w) (rm.reg w), rfl⟩

/-- `FADD`, double. -/
def fadd : Encoding := ⟨fpTwoSource 0b0010, fun w => .fadd (rd.reg w) (rn.reg w) (rm.reg w), rfl⟩

/-- `FSUB`, double. -/
def fsub : Encoding := ⟨fpTwoSource 0b0011, fun w => .fsub (rd.reg w) (rn.reg w) (rm.reg w), rfl⟩

/-- `FMOV` (register), double. -/
def fmovDD : Encoding := ⟨fpOneSource 0b000000, fun w => .fmovDD (rd.reg w) (rn.reg w), rfl⟩

/-- `FSQRT`, double. -/
def fsqrt : Encoding := ⟨fpOneSource 0b000011, fun w => .fsqrt (rd.reg w) (rn.reg w), rfl⟩

/-- `SCVTF`, of a doubleword. -/
def scvtfDX : Encoding := ⟨fpInteger 0b00 0b010, fun w => .scvtfDX (rd.reg w) (rn.reg w), rfl⟩

/-- `FMOV` to a general register. -/
def fmovXD : Encoding := ⟨fpInteger 0b00 0b110, fun w => .fmovXD (rd.reg w) (rn.reg w), rfl⟩

/-- `FMOV` from a general register. -/
def fmovDX : Encoding := ⟨fpInteger 0b00 0b111, fun w => .fmovDX (rd.reg w) (rn.reg w), rfl⟩

/-- `EOR` (vector) of 8 bytes. -/
def eorV8b : Encoding := ⟨threeSame 1 0b00 0b00011, fun w => .eorV8b (rd.reg w) (rn.reg w) (rm.reg w), rfl⟩

/-- Data processing with an immediate. -/
def dataProcessingImmediate : List Encoding :=
  [addImm, subImm, subsImm, andImm, andsImm, movn, movz, movk, ubfm, extr]

/-- Branches and system instructions. -/
def branchesSystem : List Encoding := [bCond, cbz, ret, msrFpcr]

/-- Loads and stores. -/
def loadsStores : List Encoding :=
  [strReg, ldrReg, prfmReg, strImm, ldrImm, ldrswImm, strFpImm, ldrFpImm, stpPre, ldpPost, stpFpPre, ldpFpPost,
    stpFpImm]

/-- Data processing with registers. -/
def dataProcessingRegister : List Encoding :=
  [addReg, subReg, andReg, orrReg, eorReg, andsReg, eorRegW, rorv, madd, smulh, umulh]

/-- Scalar floating point and vectors. -/
def floatingPoint : List Encoding :=
  [fmul, fdiv, fadd, fsub, fmovDD, fsqrt, scvtfDX, fmovXD, fmovDX, eorV8b]

end Encodings

open Encodings

/-- The rows for the instructions of the machine. -/
def encodings : List Encoding :=
  dataProcessingImmediate ++ branchesSystem ++ loadsStores ++ dataProcessingRegister ++ floatingPoint

/-- **No word matches two rows.** -/
theorem encodings_exclusive : encodings.Pairwise fun e e' => e.exclusive e' = true := by
  decide +kernel

/-! ## Decoding -/

/-- The instruction of a word, where the tables have one. -/
def decode (w : BitVec 32) : Option Inst :=
  (encodings.find? fun e => decide (e.Matches w)).map fun e => e.inst w

/-- The first row of a list that a word matches is the only one. -/
theorem find_of_exclusive {l : List Encoding} (hl : l.Pairwise fun e e' => e.exclusive e' = true) {e : Encoding}
    (he : e ∈ l) {w : BitVec 32} (hw : e.Matches w) : l.find? (fun e => decide (e.Matches w)) = some e := by
  induction l with
  | nil => exact absurd he List.not_mem_nil
  | cons e₀ l ih =>
    obtain ⟨hfirst, hrest⟩ := List.pairwise_cons.mp hl
    rcases List.mem_cons.mp he with rfl | hmem
    · exact List.find?_cons_of_pos (by simpa using hw)
    · have hnot : ¬ e₀.Matches w := fun h₀ => Encoding.not_matches_of_exclusive (hfirst e hmem) h₀ hw
      rw [List.find?_cons_of_neg (by simpa using hnot), ih hrest hmem]

/-- **A word that matches a row decodes to it.** -/
theorem decode_eq {e : Encoding} (he : e ∈ encodings) {w : BitVec 32} (hw : e.Matches w) :
    decode w = some (e.inst w) := by
  rw [decode, find_of_exclusive encodings_exclusive he hw]
  rfl

/-- The instructions of a list of words. -/
def decodeAll (ws : List (BitVec 32)) : Option Code := ws.mapM decode

theorem decodeAll_nil : decodeAll [] = some [] := rfl

theorem decodeAll_append {ws ws' : List (BitVec 32)} {is is' : Code} (h : decodeAll ws = some is)
    (h' : decodeAll ws' = some is') : decodeAll (ws ++ ws') = some (is ++ is') := by
  unfold decodeAll at h h' ⊢
  rw [List.mapM_append, h, h']
  rfl

theorem decodeAll_singleton {w : BitVec 32} {i : Inst} (h : decode w = some i) : decodeAll [w] = some [i] := by
  simp [decodeAll, h]

theorem length_decodeAll {ws : List (BitVec 32)} {is : Code} (h : decodeAll ws = some is) :
    is.length = ws.length := by
  induction ws generalizing is with
  | nil =>
    obtain rfl := Option.some.inj h
    rfl
  | cons w ws ih =>
    rw [decodeAll, List.mapM_cons] at h
    simp only [Option.bind_eq_bind, Option.bind_eq_some_iff, Option.pure_def, Option.some.injEq] at h
    obtain ⟨i, _, is', his, rfl⟩ := h
    rw [List.length_cons, ih his, List.length_cons]

/-! ## Words made by OR-ing operands into place -/

section

variable {m k : Nat} (f : BitVec m)

theorem getLsbD_place (k i : Nat) :
    (f.setWidth 32 <<< k).getLsbD i = (decide (i < 32) && decide (k ≤ i) && f.getLsbD (i - k)) := by
  rw [BitVec.getLsbD_shiftLeft, BitVec.getLsbD_setWidth]
  by_cases hi : i < 32 <;> by_cases hk : i < k
  · simp [hi, hk]
  · simp [hi, hk, show i - k < 32 by omega, Nat.not_lt.mp hk]
  · simp [hi]
  · simp [hi]

/-- A mask with no bit of the operand. -/
theorem place_and {mask : BitVec 32} (h : mask.extractLsb' k m = 0#m) : f.setWidth 32 <<< k &&& mask = 0#32 := by
  apply BitVec.eq_of_getLsbD_eq
  intro i hi
  rw [BitVec.getLsbD_and, getLsbD_place, BitVec.getLsbD_zero]
  by_cases hk : k ≤ i ∧ i - k < m
  · have hbit : mask.getLsbD i = false := by
      have := congrArg (BitVec.getLsbD · (i - k)) h
      simpa [hk.2, Nat.add_sub_cancel' hk.1] using this
    rw [hbit, Bool.and_false]
  · rcases not_and_or.mp hk with hk | hk
    · simp [hk]
    · simp [BitVec.getLsbD_of_ge f (i - k) (Nat.not_lt.mp hk)]

/-- The field that the operand was put in. -/
theorem extract_place (h : k + m ≤ 32) : (f.setWidth 32 <<< k).extractLsb' k m = f := by
  apply BitVec.eq_of_getLsbD_eq
  intro i hi
  rw [BitVec.getLsbD_extractLsb', getLsbD_place]
  simp [hi, show k + i < 32 by omega]

/-- A field that the operand does not reach. -/
theorem extract_place_of_disjoint {lo n : Nat} (h : lo + n ≤ k ∨ k + m ≤ lo) :
    (f.setWidth 32 <<< k).extractLsb' lo n = 0#n := by
  apply BitVec.eq_of_getLsbD_eq
  intro i hi
  rw [BitVec.getLsbD_extractLsb', getLsbD_place, BitVec.getLsbD_zero]
  rcases h with h | h
  · simp [show ¬ k ≤ lo + i by omega]
  · simp [BitVec.getLsbD_of_ge f (lo + i - k) (by omega)]

/-- An operand that was put at bit 0. -/
theorem low_and {mask : BitVec 32} (h : mask.extractLsb' 0 m = 0#m) : f.setWidth 32 &&& mask = 0#32 := by
  have hplace := place_and f h
  rwa [BitVec.shiftLeft_zero] at hplace

theorem extract_low (h : m ≤ 32) : (f.setWidth 32).extractLsb' 0 m = f := by
  have hplace := @extract_place m 0 f (by omega)
  rwa [BitVec.shiftLeft_zero] at hplace

theorem extract_low_of_disjoint {lo n : Nat} (h : m ≤ lo) :
    (f.setWidth 32).extractLsb' lo n = 0#n := by
  have hplace := @extract_place_of_disjoint m 0 f lo n (.inr (by omega))
  rwa [BitVec.shiftLeft_zero] at hplace

/-- A field of the other bits that is clear leaves the operand as it is. -/
theorem clear_or {v : BitVec 32} {lo n : Nat} (h : v.extractLsb' lo n = 0#n) (x : BitVec n) :
    v.extractLsb' lo n ||| x = x := by
  rw [h, BitVec.zero_or]

theorem or_clear {v : BitVec 32} {lo n : Nat} (h : v.extractLsb' lo n = 0#n) (x : BitVec n) :
    x ||| v.extractLsb' lo n = x := by
  rw [h, BitVec.or_zero]

/-- An operand cut to its own width. -/
theorem setWidth_and {mask : BitVec 32} (h : mask.extractLsb' 0 m = BitVec.allOnes m) :
    f.setWidth 32 &&& mask = f.setWidth 32 := by
  apply BitVec.eq_of_getLsbD_eq
  intro i hi
  rw [BitVec.getLsbD_and, BitVec.getLsbD_setWidth]
  by_cases him : i < m
  · have hbit : mask.getLsbD i = true := by
      have := congrArg (BitVec.getLsbD · i) h
      simpa [him] using this
    rw [hbit, Bool.and_true]
  · simp [BitVec.getLsbD_of_ge f i (Nat.not_lt.mp him)]

end

end Arm64
end MinerTim
