import MinerTim.Lib.Arm64.Exec

/-!
# `RandomX.Jit.Emitter` — the instruction encoder (`jit/aarch64.rs`)

A method of `Emitter` is the list of instructions it appends, decoded: the fields of an instruction are
those of the word the method pushes, cut to their width as its masks and shifts do. Registers are numbers:
`0` is `X0` or `D0`; `31` is `SP` or `XZR`.
-/

namespace MinerTim
namespace RandomX
namespace Emitter

open Arm64

/-! ## Integer arithmetic -/

/-- `ADD Xd, Xn, Xm`. -/
def addReg (rd rn rm : Nat) : Code := [.addReg rd rn rm 0]

/-- `ADD Xd, Xn, Xm, LSL #shift`. -/
def addRegShifted (rd rn rm shift : Nat) : Code := [.addReg rd rn rm (BitVec.ofNat 6 shift)]

/-- `ADD Xd, Xn, #imm12`. -/
def addImm (rd rn imm12 : Nat) : Code := [.addImm rd rn (BitVec.ofNat 12 imm12)]

/-- `SUB Xd, Xn, Xm`. -/
def subReg (rd rn rm : Nat) : Code := [.subReg rd rn rm]

/-- `SUB Xd, Xn, #imm12`. -/
def subImm (rd rn imm12 : Nat) : Code := [.subImm rd rn (BitVec.ofNat 12 imm12)]

/-- `SUBS Xd, Xn, #imm12`: `sub_imm` with the flags set. -/
def subsImm (rd rn imm12 : Nat) : Code := [.subsImm rd rn (BitVec.ofNat 12 imm12)]

/-- `EOR Wd, Wn, Wm`: the upper half of `Xd` is zero. -/
def eorRegW (rd rn rm : Nat) : Code := [.eorRegW rd rn rm]

/-- `PRFM PLDL1KEEP, [Xn, Xm]`. -/
def prfmReg (rn rm : Nat) : Code := [.prfmReg rn rm]

/-- `STP Dt1, Dt2, [Xn, #imm]`. -/
def stpFpImm (dt1 dt2 rn : Nat) (byteOffset : Int) : Code :=
  [.stpFpImm dt1 dt2 rn (BitVec.ofInt 7 (byteOffset.tdiv 8))]

/-- `NEG Xd, Xn`, which is `SUB Xd, XZR, Xn`. -/
def neg (rd rn : Nat) : Code := subReg rd 31 rn

/-- `MUL Xd, Xn, Xm`, which is `MADD Xd, Xn, Xm, XZR`. -/
def mul (rd rn rm : Nat) : Code := [.madd rd rn rm 31]

/-- `UMULH Xd, Xn, Xm`. -/
def umulh (rd rn rm : Nat) : Code := [.umulh rd rn rm]

/-- `SMULH Xd, Xn, Xm`. -/
def smulh (rd rn rm : Nat) : Code := [.smulh rd rn rm]

/-! ## Bitwise operations -/

/-- `EOR Xd, Xn, Xm`. -/
def eorReg (rd rn rm : Nat) : Code := [.eorReg rd rn rm]

/-- `AND Xd, Xn, Xm`. -/
def andReg (rd rn rm : Nat) : Code := [.andReg rd rn rm]

/-- `AND Xd, Xn, #bitmask`. -/
def andImm (rd rn n immr imms : Nat) : Code :=
  [.andImm rd rn (BitVec.ofNat 1 n) (BitVec.ofNat 6 immr) (BitVec.ofNat 6 imms)]

/-- `TST Xn, #bitmask`, which is `ANDS XZR, Xn, #bitmask`. -/
def tstImm (rn n immr imms : Nat) : Code :=
  [.andsImm 31 rn (BitVec.ofNat 1 n) (BitVec.ofNat 6 immr) (BitVec.ofNat 6 imms)]

/-- `ORR Xd, Xn, Xm`. -/
def orrReg (rd rn rm : Nat) : Code := [.orrReg rd rn rm]

/-! ## Shifts and rotates -/

/-- `RORV Xd, Xn, Xm`. -/
def rorv (rd rn rm : Nat) : Code := [.rorv rd rn rm]

/-- `ROR Xd, Xs, #imm6`, which is `EXTR Xd, Xs, Xs, #imm6`. -/
def rorImm (rd rs imm6 : Nat) : Code := [.extr rd rs rs (BitVec.ofNat 6 imm6)]

/-- `LSR Xd, Xn, #imm6`, which is `UBFM Xd, Xn, #imm6, #63`. -/
def lsrImm (rd rn imm6 : Nat) : Code := [.ubfm rd rn (BitVec.ofNat 6 imm6) 63]

/-- `LSL Xd, Xn, #imm6`, which is `UBFM Xd, Xn, #(64-imm6), #(63-imm6)`. -/
def lslImm (rd rn imm6 : Nat) : Code :=
  [.ubfm rd rn (BitVec.ofNat 6 (64 - imm6)) (BitVec.ofNat 6 (63 - imm6))]

/-! ## Move -/

/-- `MOV Xd, Xn`, which is `ORR Xd, XZR, Xn`. -/
def movReg (rd rn : Nat) : Code := orrReg rd 31 rn

/-- `MOVZ Xd, #imm16, LSL #shift`. -/
def movz (rd : Nat) (imm16 : BitVec 16) (shift : Nat) : Code :=
  [.movz rd imm16 (BitVec.ofNat 2 (shift / 16))]

/-- `MOVK Xd, #imm16, LSL #shift`: the other bits stay. -/
def movk (rd : Nat) (imm16 : BitVec 16) (shift : Nat) : Code :=
  [.movk rd imm16 (BitVec.ofNat 2 (shift / 16))]

/-- `MOVN Xd, #imm16, LSL #shift`. -/
def movn (rd : Nat) (imm16 : BitVec 16) (shift : Nat) : Code :=
  [.movn rd imm16 (BitVec.ofNat 2 (shift / 16))]

/-- `chunks[i]`: the 16 bits of a word from bit `16 * i`. -/
def chunk (v : Word) (i : Nat) : BitVec 16 := v.extractLsb' (16 * i) 16

/-- `chunks.iter().filter(|&&c| c != 0).count()`. -/
def nzCount (v : Word) : Nat := (List.range 4).countP fun i => chunk v i != 0

/-- `(0..4).find(|&j| chunks[j] != 0).unwrap_or(0)`. -/
def firstChunk (v : Word) : Nat := ((List.range 4).find? fun j => chunk v j != 0).getD 0

/-- The MOVN loop of `mov_imm64`, over the remaining chunk indices. -/
def movnLoop (rd : Nat) (imm : Word) : List Nat → (first : Bool) → Code
  | [], _ => []
  | i :: is, first =>
    let inv := ~~~imm
    if chunk inv i ≠ 0 ∨ first = true then
      if first then
        let idx := firstChunk inv
        movn rd (chunk inv idx) (idx * 16) ++
          if i < idx then movnLoop rd imm is false
          else if i = idx then movnLoop rd imm is false
          else (if chunk imm i ≠ 0xFFFF then movk rd (chunk imm i) (i * 16) else []) ++
            movnLoop rd imm is false
      else (if chunk imm i ≠ 0xFFFF then movk rd (chunk imm i) (i * 16) else []) ++
        movnLoop rd imm is false
    else movnLoop rd imm is first

/-- The MOVZ loop of `mov_imm64`. -/
def movzLoop (rd : Nat) (imm : Word) : List Nat → (first : Bool) → Code
  | [], _ => []
  | i :: is, first =>
    if chunk imm i ≠ 0 ∨ (first = true ∧ i = 3) then
      if first then movz rd (chunk imm i) (i * 16) ++ movzLoop rd imm is false
      else movk rd (chunk imm i) (i * 16) ++ movzLoop rd imm is false
    else movzLoop rd imm is first

/-- `mov_imm64`: from zeros by `MOVZ` or from ones by `MOVN`, whichever needs fewer `MOVK`s after it. -/
def movImm64 (rd : Nat) (imm : Word) : Code :=
  if imm = 0 then movz rd 0 0
  else if nzCount (~~~imm) < nzCount imm then movnLoop rd imm (List.range 4) true
  else movzLoop rd imm (List.range 4) true

/-! ## Memory load/store -/

/-- `LDR Xt, [Xn, Xm]`. -/
def ldrReg (rt rn rm : Nat) : Code := [.ldrReg rt rn rm]

/-- `LDR Xt, [Xn, #imm]`. -/
def ldrImm (rt rn immByteOffset : Nat) : Code := [.ldrImm rt rn (BitVec.ofNat 12 (immByteOffset / 8))]

/-- `STR Xt, [Xn, Xm]`. -/
def strReg (rt rn rm : Nat) : Code := [.strReg rt rn rm]

/-- `STR Xt, [Xn, #imm]`. -/
def strImm (rt rn immByteOffset : Nat) : Code := [.strImm rt rn (BitVec.ofNat 12 (immByteOffset / 8))]

/-- `LDR Dt, [Xn, #imm]`. -/
def ldrFpImm (dt rn immByteOffset : Nat) : Code :=
  [.ldrFpImm dt rn (BitVec.ofNat 12 (immByteOffset / 8))]

/-- `STR Dt, [Xn, #imm]`. -/
def strFpImm (dt rn immByteOffset : Nat) : Code :=
  [.strFpImm dt rn (BitVec.ofNat 12 (immByteOffset / 8))]

/-- `STP Xt1, Xt2, [Xn, #imm]!`. -/
def stpPre (rt1 rt2 rn : Nat) (immByteOffset : Int) : Code :=
  [.stpPre rt1 rt2 rn (BitVec.ofInt 7 (immByteOffset.tdiv 8))]

/-- `LDP Xt1, Xt2, [Xn], #imm`. -/
def ldpPost (rt1 rt2 rn : Nat) (immByteOffset : Int) : Code :=
  [.ldpPost rt1 rt2 rn (BitVec.ofInt 7 (immByteOffset.tdiv 8))]

/-- `STP Dt1, Dt2, [Xn, #imm]!`. -/
def stpFpPre (dt1 dt2 rn : Nat) (immByteOffset : Int) : Code :=
  [.stpFpPre dt1 dt2 rn (BitVec.ofInt 7 (immByteOffset.tdiv 8))]

/-- `LDP Dt1, Dt2, [Xn], #imm`. -/
def ldpFpPost (dt1 dt2 rn : Nat) (immByteOffset : Int) : Code :=
  [.ldpFpPost dt1 dt2 rn (BitVec.ofInt 7 (immByteOffset.tdiv 8))]

/-! ## Floating point operations -/

/-- `FADD Dd, Dn, Dm`. -/
def fadd (rd rn rm : Nat) : Code := [.fadd rd rn rm]

/-- `FSUB Dd, Dn, Dm`. -/
def fsub (rd rn rm : Nat) : Code := [.fsub rd rn rm]

/-- `FMUL Dd, Dn, Dm`. -/
def fmul (rd rn rm : Nat) : Code := [.fmul rd rn rm]

/-- `FDIV Dd, Dn, Dm`. -/
def fdiv (rd rn rm : Nat) : Code := [.fdiv rd rn rm]

/-- `FSQRT Dd, Dn`. -/
def fsqrt (rd rn : Nat) : Code := [.fsqrt rd rn]

/-- `FMOV Dd, Dn`. -/
def fmovDd (rd rn : Nat) : Code := [.fmovDD rd rn]

/-- `FMOV Xd, Dn`. -/
def fmovXd (rd dn : Nat) : Code := [.fmovXD rd dn]

/-- `FMOV Dd, Xn`. -/
def fmovDx (dd rn : Nat) : Code := [.fmovDX dd rn]

/-- `SCVTF Dd, Xn`. -/
def scvtfDx (dd xn : Nat) : Code := [.scvtfDX dd xn]

/-- `EOR Vd.8B, Vn.8B, Vm.8B`. -/
def eorV8b (vd vn vm : Nat) : Code := [.eorV8b vd vn vm]

/-! ## Branching and system registers -/

/-- `B.cond`, by `offset_words` from here. -/
def bCond (cond : BitVec 4) (offsetWords : Int) : Code := [.bCond cond (BitVec.ofInt 19 offsetWords)]

/-- `RET`. -/
def ret : Code := [.ret]

/-- `MSR FPCR, Xn`. -/
def msrFpcr (rn : Nat) : Code := [.msrFpcr rn]

/-- The word of a branch with an immediate, as `b_cond` and `compile_native_loop` build it. -/
def branchWord : Inst → Option (BitVec 32)
  | .bCond cond imm19 => some (0x54000000 ||| imm19.setWidth 32 <<< 5 ||| cond.setWidth 32)
  | .cbz rt imm19 => some (0xB4000000 ||| imm19.setWidth 32 <<< 5 ||| BitVec.ofNat 32 rt)
  | _ => none

/-- The signed 19-bit field of such a word. -/
def imm19Field (word : BitVec 32) : BitVec 19 := word.extractLsb' 5 19

/-! ## Bitmask immediate encoding -/

/-- `(1 << n) - 1`, and all ones from 64 bits on. -/
def lowMask (n : Nat) : Word := if 64 ≤ n then BitVec.allOnes 64 else (1#64 <<< n) - 1

/-- The `while size > 2` loop: the smallest element size of a repeating pattern. Five halvings are enough
    to get from 64 to 2. -/
def elementSize : (fuel size : Nat) → (tmp : Word) → Nat
  | 0, size, _ => size
  | fuel + 1, size, tmp =>
    if 2 < size then
      let half := size / 2
      let mask := lowMask half
      if tmp &&& mask = (tmp >>> half) &&& mask then elementSize fuel half (tmp &&& mask) else size
    else size

/-- `u64::trailing_ones`. -/
def trailingOnes (v : Word) : Nat := ((List.range 64).takeWhile fun i => v.getLsbD i).length

/-- The `for rot in 0..size` loop: the first rotation that makes the pattern a run of ones, and its
    length. -/
def findRotation (size : Nat) (mask pattern : Word) : Option (Nat × Nat) :=
  (List.range size).findSome? fun rot =>
    let rotated := if rot = 0 then pattern else ((pattern >>> rot) ||| (pattern <<< (size - rot))) &&& mask
    let trail := min (trailingOnes rotated) size
    if rotated = lowMask trail &&& mask ∧ 0 < trail then some (trail, rot) else none

/-- `encode_bitmask_imm`: `(N, immr, imms)`. -/
def encodeBitmaskImm (value : Word) : Option (Nat × Nat × Nat) :=
  if value = 0 ∨ value = BitVec.allOnes 64 then none
  else
    let size := elementSize 5 64 value
    let mask := lowMask size
    let pattern := value &&& mask
    match findRotation size mask pattern with
    | none => none
    | some (ones, rotation) =>
      let n := if size = 64 then 1 else 0
      let immr := if rotation = 0 then 0 else (size - rotation) &&& (size - 1)
      let sizeEncoding := (~~~(BitVec.ofNat 32 (size * 2 - 1)) &&& 0x3F).toNat
      let imms := sizeEncoding ||| (ones - 1)
      some (n, immr, imms &&& 0x3F)

/-- `AND Xd, Xn, #value`, through `tmp` where `value` is no bitmask immediate. -/
def andBitmask (rd rn : Nat) (value : Word) (tmp : Nat) : Code :=
  match encodeBitmaskImm value with
  | some (n, immr, imms) => andImm rd rn n immr imms
  | none => movImm64 tmp value ++ andReg rd rn tmp

/-- `TST Xn, #value`, through `tmp` where `value` is no bitmask immediate. -/
def tstBitmask (rn : Nat) (value : Word) (tmp : Nat) : Code :=
  match encodeBitmaskImm value with
  | some (n, immr, imms) => tstImm rn n immr imms
  | none => movImm64 tmp value ++ [.andsReg 31 rn tmp]

end Emitter
end RandomX
end MinerTim
