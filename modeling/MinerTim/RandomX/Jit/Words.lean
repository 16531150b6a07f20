import MinerTim.RandomX.Jit.EmitterSpec

/-!
# `RandomX.Jit.Words` — the words that the encoder pushes (`jit/aarch64.rs`)

`RandomX.Jit.Emitter` has the methods of the encoder already decoded. Here they are as the source has them: a
method is the list of `u32` words it pushes, made of its `u32` and `i32` arguments by the shifts, masks and ORs
of the source.

A `Call` is one word that the code generator pushes, with operands of the types that hold what it may pass:
register numbers below 32, immediates at their width, byte offsets of whole doublewords. `Call.outcome` is what
the name of the method says about one machine step.
-/

namespace MinerTim
namespace RandomX
namespace Words

open Arm64

/-- A `u32` argument, or a word. -/
abbrev U32 := BitVec 32

/-- An `i32` argument. -/
abbrev I32 := BitVec 32

/-! ## Integer arithmetic -/

/-- `ADD Xd, Xn, Xm`. -/
def addReg (rd rn rm : U32) : List U32 := [0x8B000000#32 ||| rm <<< 16 ||| rn <<< 5 ||| rd]

/-- `ADD Xd, Xn, Xm, LSL #shift`. -/
def addRegShifted (rd rn rm shift : U32) : List U32 :=
  [0x8B000000#32 ||| rm <<< 16 ||| (shift &&& 0x3F) <<< 10 ||| rn <<< 5 ||| rd]

/-- `ADD Xd, Xn, #imm12`. -/
def addImm (rd rn imm12 : U32) : List U32 := [0x91000000#32 ||| (imm12 &&& 0xFFF) <<< 10 ||| rn <<< 5 ||| rd]

/-- `SUB Xd, Xn, Xm`. -/
def subReg (rd rn rm : U32) : List U32 := [0xCB000000#32 ||| rm <<< 16 ||| rn <<< 5 ||| rd]

/-- `SUB Xd, Xn, #imm12`. -/
def subImm (rd rn imm12 : U32) : List U32 := [0xD1000000#32 ||| (imm12 &&& 0xFFF) <<< 10 ||| rn <<< 5 ||| rd]

/-- `SUBS Xd, Xn, #imm12`: `sub_imm` with the flags set. -/
def subsImm (rd rn imm12 : U32) : List U32 := [0xF1000000#32 ||| (imm12 &&& 0xFFF) <<< 10 ||| rn <<< 5 ||| rd]

/-- `EOR Wd, Wn, Wm`: the upper half of `Xd` is zero. -/
def eorRegW (rd rn rm : U32) : List U32 := [0x4A000000#32 ||| rm <<< 16 ||| rn <<< 5 ||| rd]

/-- `PRFM PLDL1KEEP, [Xn, Xm]`. -/
def prfmReg (rn rm : U32) : List U32 := [0xF8A06800#32 ||| rm <<< 16 ||| rn <<< 5]

/-- `STP Dt1, Dt2, [Xn, #imm]`. -/
def stpFpImm (dt1 dt2 rn : U32) (byteOffset : I32) : List U32 :=
  let imm7 := byteOffset.sdiv 8 &&& 0x7F
  [0x6D000000#32 ||| imm7 <<< 15 ||| dt2 <<< 10 ||| rn <<< 5 ||| dt1]

/-- `NEG Xd, Xn`, which is `SUB Xd, XZR, Xn`. -/
def neg (rd rn : U32) : List U32 := subReg rd 31 rn

/-- `MUL Xd, Xn, Xm`, which is `MADD Xd, Xn, Xm, XZR`. -/
def mul (rd rn rm : U32) : List U32 := [0x9B007C00#32 ||| rm <<< 16 ||| rn <<< 5 ||| rd]

/-- `UMULH Xd, Xn, Xm`. -/
def umulh (rd rn rm : U32) : List U32 := [0x9BC07C00#32 ||| rm <<< 16 ||| rn <<< 5 ||| rd]

/-- `SMULH Xd, Xn, Xm`. -/
def smulh (rd rn rm : U32) : List U32 := [0x9B407C00#32 ||| rm <<< 16 ||| rn <<< 5 ||| rd]

/-! ## Bitwise operations -/

/-- `EOR Xd, Xn, Xm`. -/
def eorReg (rd rn rm : U32) : List U32 := [0xCA000000#32 ||| rm <<< 16 ||| rn <<< 5 ||| rd]

/-- `AND Xd, Xn, Xm`. -/
def andReg (rd rn rm : U32) : List U32 := [0x8A000000#32 ||| rm <<< 16 ||| rn <<< 5 ||| rd]

/-- `AND Xd, Xn, #bitmask`. -/
def andImm (rd rn n immr imms : U32) : List U32 :=
  [0x92000000#32 ||| n <<< 22 ||| immr <<< 16 ||| imms <<< 10 ||| rn <<< 5 ||| rd]

/-- `TST Xn, #bitmask`, which is `ANDS XZR, Xn, #bitmask`. -/
def tstImm (rn n immr imms : U32) : List U32 :=
  [0xF2000000#32 ||| n <<< 22 ||| immr <<< 16 ||| imms <<< 10 ||| rn <<< 5 ||| 31]

/-- `ORR Xd, Xn, Xm`. -/
def orrReg (rd rn rm : U32) : List U32 := [0xAA000000#32 ||| rm <<< 16 ||| rn <<< 5 ||| rd]

/-! ## Shifts and rotates -/

/-- `RORV Xd, Xn, Xm`. -/
def rorv (rd rn rm : U32) : List U32 := [0x9AC02C00#32 ||| rm <<< 16 ||| rn <<< 5 ||| rd]

/-- `ROR Xd, Xs, #imm6`, which is `EXTR Xd, Xs, Xs, #imm6`. -/
def rorImm (rd rs imm6 : U32) : List U32 :=
  [0x93C00000#32 ||| rs <<< 16 ||| (imm6 &&& 0x3F) <<< 10 ||| rs <<< 5 ||| rd]

/-- `LSR Xd, Xn, #imm6`, which is `UBFM Xd, Xn, #imm6, #63`. -/
def lsrImm (rd rn imm6 : U32) : List U32 := [0xD340FC00#32 ||| (imm6 &&& 0x3F) <<< 16 ||| rn <<< 5 ||| rd]

/-- `LSL Xd, Xn, #imm6`, which is `UBFM Xd, Xn, #(64-imm6), #(63-imm6)`. -/
def lslImm (rd rn imm6 : U32) : List U32 :=
  let immr := (64 - imm6) &&& 0x3F
  let imms := (63 - imm6) &&& 0x3F
  [0xD3400000#32 ||| immr <<< 16 ||| imms <<< 10 ||| rn <<< 5 ||| rd]

/-! ## Move -/

/-- `MOV Xd, Xn`, which is `ORR Xd, XZR, Xn`. -/
def movReg (rd rn : U32) : List U32 := orrReg rd 31 rn

/-- `MOVZ Xd, #imm16, LSL #shift`. -/
def movz (rd imm16 shift : U32) : List U32 :=
  let hw := shift / 16
  [0xD2800000#32 ||| hw <<< 21 ||| (imm16 &&& 0xFFFF) <<< 5 ||| rd]

/-- `MOVK Xd, #imm16, LSL #shift`: the other bits stay. -/
def movk (rd imm16 shift : U32) : List U32 :=
  let hw := shift / 16
  [0xF2800000#32 ||| hw <<< 21 ||| (imm16 &&& 0xFFFF) <<< 5 ||| rd]

/-- `MOVN Xd, #imm16, LSL #shift`. -/
def movn (rd imm16 shift : U32) : List U32 :=
  let hw := shift / 16
  [0x92800000#32 ||| hw <<< 21 ||| (imm16 &&& 0xFFFF) <<< 5 ||| rd]

/-- `chunks[i]`. -/
def chunk (v : Word) (i : Nat) : U32 := ((v >>> (16 * i)) &&& 0xFFFF).setWidth 32

/-- `chunks.iter().filter(|&&c| c != 0).count()`. -/
def nzCount (v : Word) : Nat := (List.range 4).countP fun i => chunk v i != 0

/-- `(0..4).find(|&j| chunks[j] != 0).unwrap_or(0)`. -/
def firstChunk (v : Word) : Nat := ((List.range 4).find? fun j => chunk v j != 0).getD 0

/-- The MOVN loop of `mov_imm64`, over the remaining chunk indices. -/
def movnLoop (rd : U32) (imm : Word) : List Nat → (first : Bool) → List U32
  | [], _ => []
  | i :: is, first =>
    let inv := ~~~imm
    if chunk inv i ≠ 0 ∨ first = true then
      if first then
        let idx := firstChunk inv
        movn rd (chunk inv idx) (BitVec.ofNat 32 idx * 16) ++
          if i < idx then movnLoop rd imm is false
          else if i = idx then movnLoop rd imm is false
          else (if chunk imm i ≠ 0xFFFF then movk rd (chunk imm i) (BitVec.ofNat 32 i * 16) else []) ++
            movnLoop rd imm is false
      else (if chunk imm i ≠ 0xFFFF then movk rd (chunk imm i) (BitVec.ofNat 32 i * 16) else []) ++
        movnLoop rd imm is false
    else movnLoop rd imm is first

/-- The MOVZ loop of `mov_imm64`. -/
def movzLoop (rd : U32) (imm : Word) : List Nat → (first : Bool) → List U32
  | [], _ => []
  | i :: is, first =>
    if chunk imm i ≠ 0 ∨ (first = true ∧ i = 3) then
      if first then movz rd (chunk imm i) (BitVec.ofNat 32 i * 16) ++ movzLoop rd imm is false
      else movk rd (chunk imm i) (BitVec.ofNat 32 i * 16) ++ movzLoop rd imm is false
    else movzLoop rd imm is first

/-- `mov_imm64`: from zeros by `MOVZ` or from ones by `MOVN`, whichever needs fewer `MOVK`s after it. -/
def movImm64 (rd : U32) (imm : Word) : List U32 :=
  if imm = 0 then movz rd 0 0
  else if nzCount (~~~imm) < nzCount imm then movnLoop rd imm (List.range 4) true
  else movzLoop rd imm (List.range 4) true

/-! ## Memory load/store -/

/-- `LDR Xt, [Xn, Xm]`. -/
def ldrReg (rt rn rm : U32) : List U32 := [0xF8606800#32 ||| rm <<< 16 ||| rn <<< 5 ||| rt]

/-- `LDR Xt, [Xn, #imm]`. -/
def ldrImm (rt rn immByteOffset : U32) : List U32 :=
  let scaled := immByteOffset / 8
  [0xF9400000#32 ||| scaled <<< 10 ||| rn <<< 5 ||| rt]

/-- `STR Xt, [Xn, Xm]`. -/
def strReg (rt rn rm : U32) : List U32 := [0xF8206800#32 ||| rm <<< 16 ||| rn <<< 5 ||| rt]

/-- `STR Xt, [Xn, #imm]`. -/
def strImm (rt rn immByteOffset : U32) : List U32 :=
  let scaled := immByteOffset / 8
  [0xF9000000#32 ||| scaled <<< 10 ||| rn <<< 5 ||| rt]

/-- `LDR Dt, [Xn, #imm]`. -/
def ldrFpImm (dt rn immByteOffset : U32) : List U32 :=
  let scaled := immByteOffset / 8
  [0xFD400000#32 ||| scaled <<< 10 ||| rn <<< 5 ||| dt]

/-- `STR Dt, [Xn, #imm]`. -/
def strFpImm (dt rn immByteOffset : U32) : List U32 :=
  let scaled := immByteOffset / 8
  [0xFD000000#32 ||| scaled <<< 10 ||| rn <<< 5 ||| dt]

/-- `STP Xt1, Xt2, [Xn, #imm]!`. -/
def stpPre (rt1 rt2 rn : U32) (immByteOffset : I32) : List U32 :=
  let imm7 := immByteOffset.sdiv 8 &&& 0x7F
  [0xA9800000#32 ||| imm7 <<< 15 ||| rt2 <<< 10 ||| rn <<< 5 ||| rt1]

/-- `LDP Xt1, Xt2, [Xn], #imm`. -/
def ldpPost (rt1 rt2 rn : U32) (immByteOffset : I32) : List U32 :=
  let imm7 := immByteOffset.sdiv 8 &&& 0x7F
  [0xA8C00000#32 ||| imm7 <<< 15 ||| rt2 <<< 10 ||| rn <<< 5 ||| rt1]

/-- `STP Dt1, Dt2, [Xn, #imm]!`. -/
def stpFpPre (dt1 dt2 rn : U32) (immByteOffset : I32) : List U32 :=
  let imm7 := immByteOffset.sdiv 8 &&& 0x7F
  [0x6D800000#32 ||| imm7 <<< 15 ||| dt2 <<< 10 ||| rn <<< 5 ||| dt1]

/-- `LDP Dt1, Dt2, [Xn], #imm`. -/
def ldpFpPost (dt1 dt2 rn : U32) (immByteOffset : I32) : List U32 :=
  let imm7 := immByteOffset.sdiv 8 &&& 0x7F
  [0x6CC00000#32 ||| imm7 <<< 15 ||| dt2 <<< 10 ||| rn <<< 5 ||| dt1]

/-! ## Floating point operations -/

/-- `FADD Dd, Dn, Dm`. -/
def fadd (rd rn rm : U32) : List U32 := [0x1E602800#32 ||| rm <<< 16 ||| rn <<< 5 ||| rd]

/-- `FSUB Dd, Dn, Dm`. -/
def fsub (rd rn rm : U32) : List U32 := [0x1E603800#32 ||| rm <<< 16 ||| rn <<< 5 ||| rd]

/-- `FMUL Dd, Dn, Dm`. -/
def fmul (rd rn rm : U32) : List U32 := [0x1E600800#32 ||| rm <<< 16 ||| rn <<< 5 ||| rd]

/-- `FDIV Dd, Dn, Dm`. -/
def fdiv (rd rn rm : U32) : List U32 := [0x1E601800#32 ||| rm <<< 16 ||| rn <<< 5 ||| rd]

/-- `FSQRT Dd, Dn`. -/
def fsqrt (rd rn : U32) : List U32 := [0x1E61C000#32 ||| rn <<< 5 ||| rd]

/-- `FMOV Dd, Dn`. -/
def fmovDd (rd rn : U32) : List U32 := [0x1E604000#32 ||| rn <<< 5 ||| rd]

/-- `FMOV Xd, Dn`. -/
def fmovXd (rd dn : U32) : List U32 := [0x9E660000#32 ||| dn <<< 5 ||| rd]

/-- `FMOV Dd, Xn`. -/
def fmovDx (dd rn : U32) : List U32 := [0x9E670000#32 ||| rn <<< 5 ||| dd]

/-- `SCVTF Dd, Xn`. -/
def scvtfDx (dd xn : U32) : List U32 := [0x9E620000#32 ||| xn <<< 5 ||| dd]

/-- `EOR Vd.8B, Vn.8B, Vm.8B`. -/
def eorV8b (vd vn vm : U32) : List U32 := [0x2E201C00#32 ||| vm <<< 16 ||| vn <<< 5 ||| vd]

/-! ## Branching and system registers -/

/-- `B.cond`, by `offset_words` from here. -/
def bCond (cond : U32) (offsetWords : I32) : List U32 :=
  let imm19 := offsetWords &&& 0x7FFFF
  [0x54000000#32 ||| imm19 <<< 5 ||| cond]

/-- `RET`. -/
def ret : List U32 := [0xD65F03C0#32]

/-- `MSR FPCR, Xn`. -/
def msrFpcr (rn : U32) : List U32 := [0xD51B4400#32 ||| rn]

/-! ## Bitmask immediates -/

/-- `AND Xd, Xn, #value`, through `tmp` where `value` is no bitmask immediate. -/
def andBitmask (rd rn : U32) (value : Word) (tmp : U32) : List U32 :=
  match Emitter.encodeBitmaskImm value with
  | some (n, immr, imms) => andImm rd rn (BitVec.ofNat 32 n) (BitVec.ofNat 32 immr) (BitVec.ofNat 32 imms)
  | none => movImm64 tmp value ++ andReg rd rn tmp

/-- The word after the fallback of `tst_bitmask`. -/
def tstReg (rn tmp : U32) : List U32 := [0xEA000000#32 ||| tmp <<< 16 ||| rn <<< 5 ||| 31]

/-- `TST Xn, #value`, through `tmp` where `value` is no bitmask immediate. -/
def tstBitmask (rn : U32) (value : Word) (tmp : U32) : List U32 :=
  match Emitter.encodeBitmaskImm value with
  | some (n, immr, imms) => tstImm rn (BitVec.ofNat 32 n) (BitVec.ofNat 32 immr) (BitVec.ofNat 32 imms)
  | none => movImm64 tmp value ++ tstReg rn tmp

/-! ## Words pushed by the code generator itself (`jit/compiler.rs`) -/

/-- The two loads of `emit_cvt_packed_int`. -/
def ldrswLow : List U32 := [0xB9800000#32 ||| 1#32 <<< 5 ||| 0]

/-- The second of them, 4 bytes on. -/
def ldrswHigh : List U32 := [0xB9800400#32 ||| 1#32 <<< 5 ||| 0]

/-- The zero-iteration guard of `compile_native_loop`, patched to skip `skip` words. -/
def cbzGuard (skip : U32) : List U32 := [0xB4000000#32 ||| (skip &&& 0x7FFFF) <<< 5 ||| 28]

/-! ## Calls

`pairBytes` and `scaledBytes` are the byte offsets that a caller writes: signed or unsigned, of whole
doublewords. -/

/-- A register number. -/
abbrev Reg := BitVec 5

/-- The signed byte offset of a pair. -/
def pairBytes (imm7 : BitVec 7) : Int := 8 * imm7.toInt

/-- The unsigned byte offset of a load or store. -/
def scaledBytes (imm12 : BitVec 12) : Nat := 8 * imm12.toNat

/-- One word that is pushed. -/
inductive Call where
  | addReg (rd rn rm : Reg)
  | addRegShifted (rd rn rm : Reg) (shift : BitVec 6)
  | addImm (rd rn : Reg) (imm12 : BitVec 12)
  | subReg (rd rn rm : Reg)
  | subImm (rd rn : Reg) (imm12 : BitVec 12)
  | subsImm (rd rn : Reg) (imm12 : BitVec 12)
  | eorRegW (rd rn rm : Reg)
  | prfmReg (rn rm : Reg)
  | stpFpImm (dt1 dt2 rn : Reg) (imm7 : BitVec 7)
  | neg (rd rn : Reg)
  | mul (rd rn rm : Reg)
  | umulh (rd rn rm : Reg)
  | smulh (rd rn rm : Reg)
  | eorReg (rd rn rm : Reg)
  | andReg (rd rn rm : Reg)
  | andImm (rd rn : Reg) (n : BitVec 1) (immr imms : BitVec 6)
  | tstImm (rn : Reg) (n : BitVec 1) (immr imms : BitVec 6)
  | tstReg (rn rm : Reg)
  | orrReg (rd rn rm : Reg)
  | rorv (rd rn rm : Reg)
  | rorImm (rd rs : Reg) (imm6 : BitVec 6)
  | lsrImm (rd rn : Reg) (imm6 : BitVec 6)
  | lslImm (rd rn : Reg) (imm6 : BitVec 6)
  | movReg (rd rn : Reg)
  | movz (rd : Reg) (imm16 : BitVec 16) (hw : BitVec 2)
  | movk (rd : Reg) (imm16 : BitVec 16) (hw : BitVec 2)
  | movn (rd : Reg) (imm16 : BitVec 16) (hw : BitVec 2)
  | ldrReg (rt rn rm : Reg)
  | ldrImm (rt rn : Reg) (imm12 : BitVec 12)
  | strReg (rt rn rm : Reg)
  | strImm (rt rn : Reg) (imm12 : BitVec 12)
  | ldrFpImm (dt rn : Reg) (imm12 : BitVec 12)
  | strFpImm (dt rn : Reg) (imm12 : BitVec 12)
  | stpPre (rt1 rt2 rn : Reg) (imm7 : BitVec 7)
  | ldpPost (rt1 rt2 rn : Reg) (imm7 : BitVec 7)
  | stpFpPre (dt1 dt2 rn : Reg) (imm7 : BitVec 7)
  | ldpFpPost (dt1 dt2 rn : Reg) (imm7 : BitVec 7)
  | fadd (rd rn rm : Reg)
  | fsub (rd rn rm : Reg)
  | fmul (rd rn rm : Reg)
  | fdiv (rd rn rm : Reg)
  | fsqrt (rd rn : Reg)
  | fmovDd (rd rn : Reg)
  | fmovXd (rd dn : Reg)
  | fmovDx (dd rn : Reg)
  | scvtfDx (dd xn : Reg)
  | eorV8b (vd vn vm : Reg)
  | bCond (cond : BitVec 4) (imm19 : BitVec 19)
  | ret
  | msrFpcr (rn : Reg)
  | ldrswLow
  | ldrswHigh
  | cbzGuard (skip : BitVec 18)

/-- An operand as a `u32`. -/
def u32 {m : Nat} (f : BitVec m) : U32 := f.setWidth 32

namespace Call

/-- The word, from the arguments that the method takes. -/
def words : Call → List U32
  | addReg rd rn rm => Words.addReg (u32 rd) (u32 rn) (u32 rm)
  | addRegShifted rd rn rm shift => Words.addRegShifted (u32 rd) (u32 rn) (u32 rm) (u32 shift)
  | addImm rd rn imm12 => Words.addImm (u32 rd) (u32 rn) (u32 imm12)
  | subReg rd rn rm => Words.subReg (u32 rd) (u32 rn) (u32 rm)
  | subImm rd rn imm12 => Words.subImm (u32 rd) (u32 rn) (u32 imm12)
  | subsImm rd rn imm12 => Words.subsImm (u32 rd) (u32 rn) (u32 imm12)
  | eorRegW rd rn rm => Words.eorRegW (u32 rd) (u32 rn) (u32 rm)
  | prfmReg rn rm => Words.prfmReg (u32 rn) (u32 rm)
  | stpFpImm dt1 dt2 rn imm7 => Words.stpFpImm (u32 dt1) (u32 dt2) (u32 rn) (BitVec.ofInt 32 (pairBytes imm7))
  | neg rd rn => Words.neg (u32 rd) (u32 rn)
  | mul rd rn rm => Words.mul (u32 rd) (u32 rn) (u32 rm)
  | umulh rd rn rm => Words.umulh (u32 rd) (u32 rn) (u32 rm)
  | smulh rd rn rm => Words.smulh (u32 rd) (u32 rn) (u32 rm)
  | eorReg rd rn rm => Words.eorReg (u32 rd) (u32 rn) (u32 rm)
  | andReg rd rn rm => Words.andReg (u32 rd) (u32 rn) (u32 rm)
  | andImm rd rn n immr imms => Words.andImm (u32 rd) (u32 rn) (u32 n) (u32 immr) (u32 imms)
  | tstImm rn n immr imms => Words.tstImm (u32 rn) (u32 n) (u32 immr) (u32 imms)
  | tstReg rn rm => Words.tstReg (u32 rn) (u32 rm)
  | orrReg rd rn rm => Words.orrReg (u32 rd) (u32 rn) (u32 rm)
  | rorv rd rn rm => Words.rorv (u32 rd) (u32 rn) (u32 rm)
  | rorImm rd rs imm6 => Words.rorImm (u32 rd) (u32 rs) (u32 imm6)
  | lsrImm rd rn imm6 => Words.lsrImm (u32 rd) (u32 rn) (u32 imm6)
  | lslImm rd rn imm6 => Words.lslImm (u32 rd) (u32 rn) (u32 imm6)
  | movReg rd rn => Words.movReg (u32 rd) (u32 rn)
  | movz rd imm16 hw => Words.movz (u32 rd) (u32 imm16) (u32 hw * 16)
  | movk rd imm16 hw => Words.movk (u32 rd) (u32 imm16) (u32 hw * 16)
  | movn rd imm16 hw => Words.movn (u32 rd) (u32 imm16) (u32 hw * 16)
  | ldrReg rt rn rm => Words.ldrReg (u32 rt) (u32 rn) (u32 rm)
  | ldrImm rt rn imm12 => Words.ldrImm (u32 rt) (u32 rn) (BitVec.ofNat 32 (scaledBytes imm12))
  | strReg rt rn rm => Words.strReg (u32 rt) (u32 rn) (u32 rm)
  | strImm rt rn imm12 => Words.strImm (u32 rt) (u32 rn) (BitVec.ofNat 32 (scaledBytes imm12))
  | ldrFpImm dt rn imm12 => Words.ldrFpImm (u32 dt) (u32 rn) (BitVec.ofNat 32 (scaledBytes imm12))
  | strFpImm dt rn imm12 => Words.strFpImm (u32 dt) (u32 rn) (BitVec.ofNat 32 (scaledBytes imm12))
  | stpPre rt1 rt2 rn imm7 => Words.stpPre (u32 rt1) (u32 rt2) (u32 rn) (BitVec.ofInt 32 (pairBytes imm7))
  | ldpPost rt1 rt2 rn imm7 => Words.ldpPost (u32 rt1) (u32 rt2) (u32 rn) (BitVec.ofInt 32 (pairBytes imm7))
  | stpFpPre dt1 dt2 rn imm7 => Words.stpFpPre (u32 dt1) (u32 dt2) (u32 rn) (BitVec.ofInt 32 (pairBytes imm7))
  | ldpFpPost dt1 dt2 rn imm7 =>
    Words.ldpFpPost (u32 dt1) (u32 dt2) (u32 rn) (BitVec.ofInt 32 (pairBytes imm7))
  | fadd rd rn rm => Words.fadd (u32 rd) (u32 rn) (u32 rm)
  | fsub rd rn rm => Words.fsub (u32 rd) (u32 rn) (u32 rm)
  | fmul rd rn rm => Words.fmul (u32 rd) (u32 rn) (u32 rm)
  | fdiv rd rn rm => Words.fdiv (u32 rd) (u32 rn) (u32 rm)
  | fsqrt rd rn => Words.fsqrt (u32 rd) (u32 rn)
  | fmovDd rd rn => Words.fmovDd (u32 rd) (u32 rn)
  | fmovXd rd dn => Words.fmovXd (u32 rd) (u32 dn)
  | fmovDx dd rn => Words.fmovDx (u32 dd) (u32 rn)
  | scvtfDx dd xn => Words.scvtfDx (u32 dd) (u32 xn)
  | eorV8b vd vn vm => Words.eorV8b (u32 vd) (u32 vn) (u32 vm)
  | bCond cond imm19 => Words.bCond (u32 cond) (BitVec.ofInt 32 imm19.toInt)
  | ret => Words.ret
  | msrFpcr rn => Words.msrFpcr (u32 rn)
  | ldrswLow => Words.ldrswLow
  | ldrswHigh => Words.ldrswHigh
  | cbzGuard skip => Words.cbzGuard (u32 skip)

/-- The instruction that the decoded encoder has for the call. -/
def code : Call → Code
  | addReg rd rn rm => Emitter.addReg rd.toNat rn.toNat rm.toNat
  | addRegShifted rd rn rm shift => Emitter.addRegShifted rd.toNat rn.toNat rm.toNat shift.toNat
  | addImm rd rn imm12 => Emitter.addImm rd.toNat rn.toNat imm12.toNat
  | subReg rd rn rm => Emitter.subReg rd.toNat rn.toNat rm.toNat
  | subImm rd rn imm12 => Emitter.subImm rd.toNat rn.toNat imm12.toNat
  | subsImm rd rn imm12 => Emitter.subsImm rd.toNat rn.toNat imm12.toNat
  | eorRegW rd rn rm => Emitter.eorRegW rd.toNat rn.toNat rm.toNat
  | prfmReg rn rm => Emitter.prfmReg rn.toNat rm.toNat
  | stpFpImm dt1 dt2 rn imm7 => Emitter.stpFpImm dt1.toNat dt2.toNat rn.toNat (pairBytes imm7)
  | neg rd rn => Emitter.neg rd.toNat rn.toNat
  | mul rd rn rm => Emitter.mul rd.toNat rn.toNat rm.toNat
  | umulh rd rn rm => Emitter.umulh rd.toNat rn.toNat rm.toNat
  | smulh rd rn rm => Emitter.smulh rd.toNat rn.toNat rm.toNat
  | eorReg rd rn rm => Emitter.eorReg rd.toNat rn.toNat rm.toNat
  | andReg rd rn rm => Emitter.andReg rd.toNat rn.toNat rm.toNat
  | andImm rd rn n immr imms => Emitter.andImm rd.toNat rn.toNat n.toNat immr.toNat imms.toNat
  | tstImm rn n immr imms => Emitter.tstImm rn.toNat n.toNat immr.toNat imms.toNat
  | tstReg rn rm => [.andsReg 31 rn.toNat rm.toNat]
  | orrReg rd rn rm => Emitter.orrReg rd.toNat rn.toNat rm.toNat
  | rorv rd rn rm => Emitter.rorv rd.toNat rn.toNat rm.toNat
  | rorImm rd rs imm6 => Emitter.rorImm rd.toNat rs.toNat imm6.toNat
  | lsrImm rd rn imm6 => Emitter.lsrImm rd.toNat rn.toNat imm6.toNat
  | lslImm rd rn imm6 => Emitter.lslImm rd.toNat rn.toNat imm6.toNat
  | movReg rd rn => Emitter.movReg rd.toNat rn.toNat
  | movz rd imm16 hw => Emitter.movz rd.toNat imm16 (hw.toNat * 16)
  | movk rd imm16 hw => Emitter.movk rd.toNat imm16 (hw.toNat * 16)
  | movn rd imm16 hw => Emitter.movn rd.toNat imm16 (hw.toNat * 16)
  | ldrReg rt rn rm => Emitter.ldrReg rt.toNat rn.toNat rm.toNat
  | ldrImm rt rn imm12 => Emitter.ldrImm rt.toNat rn.toNat (scaledBytes imm12)
  | strReg rt rn rm => Emitter.strReg rt.toNat rn.toNat rm.toNat
  | strImm rt rn imm12 => Emitter.strImm rt.toNat rn.toNat (scaledBytes imm12)
  | ldrFpImm dt rn imm12 => Emitter.ldrFpImm dt.toNat rn.toNat (scaledBytes imm12)
  | strFpImm dt rn imm12 => Emitter.strFpImm dt.toNat rn.toNat (scaledBytes imm12)
  | stpPre rt1 rt2 rn imm7 => Emitter.stpPre rt1.toNat rt2.toNat rn.toNat (pairBytes imm7)
  | ldpPost rt1 rt2 rn imm7 => Emitter.ldpPost rt1.toNat rt2.toNat rn.toNat (pairBytes imm7)
  | stpFpPre dt1 dt2 rn imm7 => Emitter.stpFpPre dt1.toNat dt2.toNat rn.toNat (pairBytes imm7)
  | ldpFpPost dt1 dt2 rn imm7 => Emitter.ldpFpPost dt1.toNat dt2.toNat rn.toNat (pairBytes imm7)
  | fadd rd rn rm => Emitter.fadd rd.toNat rn.toNat rm.toNat
  | fsub rd rn rm => Emitter.fsub rd.toNat rn.toNat rm.toNat
  | fmul rd rn rm => Emitter.fmul rd.toNat rn.toNat rm.toNat
  | fdiv rd rn rm => Emitter.fdiv rd.toNat rn.toNat rm.toNat
  | fsqrt rd rn => Emitter.fsqrt rd.toNat rn.toNat
  | fmovDd rd rn => Emitter.fmovDd rd.toNat rn.toNat
  | fmovXd rd dn => Emitter.fmovXd rd.toNat dn.toNat
  | fmovDx dd rn => Emitter.fmovDx dd.toNat rn.toNat
  | scvtfDx dd xn => Emitter.scvtfDx dd.toNat xn.toNat
  | eorV8b vd vn vm => Emitter.eorV8b vd.toNat vn.toNat vm.toNat
  | bCond cond imm19 => Emitter.bCond cond imm19.toInt
  | ret => Emitter.ret
  | msrFpcr rn => Emitter.msrFpcr rn.toNat
  | ldrswLow => [.ldrswImm 0 1 0]
  | ldrswHigh => [.ldrswImm 0 1 1]
  | cbzGuard skip => [.cbz 28 (skip.setWidth 19)]

end Call

/-! ## What the methods are named after -/

section

variable (fp : FpOps) (s : State)

/-- The store of a register pair. -/
def storePair (a v₁ v₂ : Word) : State := (s.write a v₁).write (a + 8) v₂

/-- The address of a pair: register number 31 is the stack pointer. -/
def pairAddress (rn : Reg) (imm7 : BitVec 7) : Word := s.getXSp rn.toNat + BitVec.ofInt 64 (pairBytes imm7)

/-- The address of a load or store at an offset: register number 31 is the stack pointer. -/
def scaledAddress (rn : Reg) (imm12 : BitVec 12) : Word :=
  s.getXSp rn.toNat + BitVec.ofNat 64 (scaledBytes imm12)

/-- The state after a call that goes on with the next word. -/
def Call.effect : Call → State
  | .addReg rd rn rm => s.setX rd.toNat (s.getX rn.toNat + s.getX rm.toNat)
  | .addRegShifted rd rn rm shift => s.setX rd.toNat (s.getX rn.toNat + s.getX rm.toNat <<< shift.toNat)
  | .addImm rd rn imm12 => s.setXSp rd.toNat (s.getXSp rn.toNat + imm12.setWidth 64)
  | .subReg rd rn rm => s.setX rd.toNat (s.getX rn.toNat - s.getX rm.toNat)
  | .subImm rd rn imm12 => s.setXSp rd.toNat (s.getXSp rn.toNat - imm12.setWidth 64)
  | .subsImm rd rn imm12 =>
    (s.setX rd.toNat (s.getXSp rn.toNat - imm12.setWidth 64)).setFlags
      (State.subFlags (s.getXSp rn.toNat) (imm12.setWidth 64))
  | .eorRegW rd rn rm =>
    s.setX rd.toNat (((s.getX rn.toNat).setWidth 32 ^^^ (s.getX rm.toNat).setWidth 32).setWidth 64)
  | .stpFpImm dt1 dt2 rn imm7 => storePair s (pairAddress s rn imm7) (s.d dt1.toNat) (s.d dt2.toNat)
  | .neg rd rn => s.setX rd.toNat (-s.getX rn.toNat)
  | .mul rd rn rm => s.setX rd.toNat (s.getX rn.toNat * s.getX rm.toNat)
  | .umulh rd rn rm => s.setX rd.toNat (mulHigh (s.getX rn.toNat) (s.getX rm.toNat))
  | .smulh rd rn rm => s.setX rd.toNat (smulHigh (s.getX rn.toNat) (s.getX rm.toNat))
  | .eorReg rd rn rm => s.setX rd.toNat (s.getX rn.toNat ^^^ s.getX rm.toNat)
  | .andReg rd rn rm => s.setX rd.toNat (s.getX rn.toNat &&& s.getX rm.toNat)
  | .andImm rd rn n immr imms =>
    s.setXSp rd.toNat (s.getX rn.toNat &&& (decodeBitMasks n immr imms).getD 0)
  | .tstImm rn n immr imms =>
    s.setFlags (State.logicFlags (s.getX rn.toNat &&& (decodeBitMasks n immr imms).getD 0))
  | .tstReg rn rm => s.setFlags (State.logicFlags (s.getX rn.toNat &&& s.getX rm.toNat))
  | .orrReg rd rn rm => s.setX rd.toNat (s.getX rn.toNat ||| s.getX rm.toNat)
  | .rorv rd rn rm => s.setX rd.toNat ((s.getX rn.toNat).rotateRight ((s.getX rm.toNat).toNat % 64))
  | .rorImm rd rs imm6 => s.setX rd.toNat ((s.getX rs.toNat).rotateRight imm6.toNat)
  | .lsrImm rd rn imm6 => s.setX rd.toNat (s.getX rn.toNat >>> imm6.toNat)
  | .lslImm rd rn imm6 => s.setX rd.toNat (s.getX rn.toNat <<< imm6.toNat)
  | .movReg rd rn => s.setX rd.toNat (s.getX rn.toNat)
  | .movz rd imm16 hw => s.setX rd.toNat (imm16.setWidth 64 <<< (16 * hw.toNat))
  | .movk rd imm16 hw => s.setX rd.toNat (Emitter.insertChunk (s.getX rd.toNat) hw.toNat imm16)
  | .movn rd imm16 hw => s.setX rd.toNat (~~~(imm16.setWidth 64 <<< (16 * hw.toNat)))
  | .ldrReg rt rn rm => s.setX rt.toNat (s.read (s.getXSp rn.toNat + s.getX rm.toNat))
  | .ldrImm rt rn imm12 => s.setX rt.toNat (s.read (scaledAddress s rn imm12))
  | .strReg rt rn rm => s.write (s.getXSp rn.toNat + s.getX rm.toNat) (s.getX rt.toNat)
  | .strImm rt rn imm12 => s.write (scaledAddress s rn imm12) (s.getX rt.toNat)
  | .ldrFpImm dt rn imm12 => s.setD dt.toNat (s.read (scaledAddress s rn imm12))
  | .strFpImm dt rn imm12 => s.write (scaledAddress s rn imm12) (s.d dt.toNat)
  -- pre-indexed: the base moves first, and the pair is stored where it points then
  | .stpPre rt1 rt2 rn imm7 =>
    (storePair s (pairAddress s rn imm7) (s.getX rt1.toNat) (s.getX rt2.toNat)).setXSp rn.toNat
      (pairAddress s rn imm7)
  | .stpFpPre dt1 dt2 rn imm7 =>
    (storePair s (pairAddress s rn imm7) (s.d dt1.toNat) (s.d dt2.toNat)).setXSp rn.toNat
      (pairAddress s rn imm7)
  -- post-indexed: the pair is loaded from where the base points, and the base moves then
  | .ldpPost rt1 rt2 rn imm7 =>
    ((s.setX rt1.toNat (s.read (s.getXSp rn.toNat))).setX rt2.toNat (s.read (s.getXSp rn.toNat + 8))).setXSp
      rn.toNat (pairAddress s rn imm7)
  | .ldpFpPost dt1 dt2 rn imm7 =>
    ((s.setD dt1.toNat (s.read (s.getXSp rn.toNat))).setD dt2.toNat (s.read (s.getXSp rn.toNat + 8))).setXSp
      rn.toNat (pairAddress s rn imm7)
  | .fadd rd rn rm => s.setD rd.toNat (fp.fadd s.rmode (s.d rn.toNat) (s.d rm.toNat))
  | .fsub rd rn rm => s.setD rd.toNat (fp.fsub s.rmode (s.d rn.toNat) (s.d rm.toNat))
  | .fmul rd rn rm => s.setD rd.toNat (fp.fmul s.rmode (s.d rn.toNat) (s.d rm.toNat))
  | .fdiv rd rn rm => s.setD rd.toNat (fp.fdiv s.rmode (s.d rn.toNat) (s.d rm.toNat))
  | .fsqrt rd rn => s.setD rd.toNat (fp.fsqrt s.rmode (s.d rn.toNat))
  | .fmovDd rd rn => s.setD rd.toNat (s.d rn.toNat)
  | .fmovXd rd dn => s.setX rd.toNat (s.d dn.toNat)
  | .fmovDx dd rn => s.setD dd.toNat (s.getX rn.toNat)
  | .scvtfDx dd xn => s.setD dd.toNat (fp.scvtf s.rmode (s.getX xn.toNat))
  | .eorV8b vd vn vm => s.setD vd.toNat (s.d vn.toNat ^^^ s.d vm.toNat)
  | .msrFpcr rn => s.setFpcr ((s.getX rn.toNat).setWidth 32)
  | .ldrswLow => s.setX 0 ((s.read32 (s.x 1)).signExtend 64)
  | .ldrswHigh => s.setX 0 ((s.read32 (s.x 1 + 4)).signExtend 64)
  | .prfmReg _ _ | .bCond _ _ | .ret | .cbzGuard _ => s

/-- **What the method is named after**, as one machine step from word offset `pc`. -/
def Call.outcome (pc : Nat) : Call → Outcome
  | .andImm rd rn n immr imms =>
    if (decodeBitMasks n immr imms).isSome then .running (pc + 1) ((Call.andImm rd rn n immr imms).effect fp s)
    else .stuck
  | .tstImm rn n immr imms =>
    if (decodeBitMasks n immr imms).isSome then .running (pc + 1) ((Call.tstImm rn n immr imms).effect fp s)
    else .stuck
  | .bCond cond imm19 => if condHolds cond s.flags then jump pc imm19 s else .running (pc + 1) s
  | .cbzGuard skip => if s.x 28 = 0 then .running (pc + skip.toNat) s else .running (pc + 1) s
  | .ret => .returned s
  | c => .running (pc + 1) (c.effect fp s)

end

end Words
end RandomX
end MinerTim
