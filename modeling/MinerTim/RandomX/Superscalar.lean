import MinerTim.Lib.Fuelled
import MinerTim.RandomX.Dataset

/-!
# `RandomX.Superscalar` — the generator of SuperscalarHash programs (`superscalar.rs`)

`generate_superscalar` simulates a decoder and the three execution ports of a CPU: it fills decode buffers with
instructions, gives each micro-op of theirs a cycle and a port, and selects registers that are ready in that cycle.

The random generator is a parameter (`ByteGenerator`). Cycles and counts are `Nat`, and the `-1` of the source is
`none`. Indexing is checked, and `unreachable!()` and an index out of range are a panic. The two rejection loops of
`create` need not end; they and the loop over a decode buffer run with fuel (`Lib.Fuelled`).

`log` is ghost state: what the generator does, in order.
-/

namespace MinerTim
namespace RandomX
namespace Superscalar

open Fuelled (ofOption)

/-! ## Constants -/

/-- Cycles that a program is scheduled for. -/
def RANDOMX_SUPERSCALAR_LATENCY : Nat := 170

/-- Most instructions of a program: three ports over the latency, and two more. -/
def SUPERSCALAR_MAX_SIZE : Nat := 3 * RANDOMX_SUPERSCALAR_LATENCY + 2

/-- `r5`: as a base, x86 encodes it only with a displacement. -/
def REGISTER_NEEDS_DISPLACEMENT : Fin 8 := 5

/-- Rows of `port_busy`. -/
def CYCLE_MAP_SIZE : Nat := RANDOMX_SUPERSCALAR_LATENCY + 4

/-- Cycles that the selection of a register looks ahead. -/
def LOOK_FORWARD_CYCLES : Nat := 4

/-- Instructions in a row that are thrown away before the decode buffer is given up. -/
def MAX_THROWAWAY_COUNT : Nat := 256

/-- No port. -/
def PORT_NULL : BitVec 32 := 0

/-- Port 0. -/
def PORT_P0 : BitVec 32 := 1

/-- Port 1. -/
def PORT_P1 : BitVec 32 := 2

/-- Port 5. -/
def PORT_P5 : BitVec 32 := 4

/-- Port 0 or 1. -/
def PORT_P01 : BitVec 32 := PORT_P0 ||| PORT_P1

/-- Port 0 or 5. -/
def PORT_P05 : BitVec 32 := PORT_P0 ||| PORT_P5

/-- Any port. -/
def PORT_P015 : BitVec 32 := PORT_P0 ||| PORT_P1 ||| PORT_P5

/-- The mask of the port at an index of a row of `port_busy`. -/
def portMask : Fin 3 → BitVec 32
  | 0 => PORT_P0
  | 1 => PORT_P1
  | 2 => PORT_P5

/-! ## Instructions and macro-ops -/

/-- The instructions, and `INVALID` for none. -/
inductive SsType where
  | ISUB_R
  | IXOR_R
  | IADD_RS
  | IMUL_R
  | IROR_C
  | IADD_C7
  | IXOR_C7
  | IADD_C8
  | IXOR_C8
  | IADD_C9
  | IXOR_C9
  | IMULH_R
  | ISMULH_R
  | IMUL_RCP
  | INVALID
deriving DecidableEq, Repr

/-- `inst_type as u8`. -/
def SsType.code : SsType → Byte
  | ISUB_R => 0
  | IXOR_R => 1
  | IADD_RS => 2
  | IMUL_R => 3
  | IROR_C => 4
  | IADD_C7 => 5
  | IXOR_C7 => 6
  | IADD_C8 => 7
  | IXOR_C8 => 8
  | IADD_C9 => 9
  | IXOR_C9 => 10
  | IMULH_R => 11
  | ISMULH_R => 12
  | IMUL_RCP => 13
  | INVALID => 255

/-- `is_multiplication`. -/
def isMultiplication : SsType → Bool
  | .IMUL_R | .IMULH_R | .ISMULH_R | .IMUL_RCP => true
  | _ => false

/-- A macro-op: at most two micro-ops, and whether it waits for the one before it. -/
structure MacroOp where
  latency : Nat
  uop1 : BitVec 32
  uop2 : BitVec 32
  dependent : Bool
deriving DecidableEq, Repr

namespace MacroOp

/-- A macro-op of one micro-op. -/
def new1 (latency : Nat) (uop : BitVec 32) : MacroOp := { latency, uop1 := uop, uop2 := PORT_NULL, dependent := false }

/-- A macro-op of two micro-ops. -/
def new2 (latency : Nat) (uop1 uop2 : BitVec 32) : MacroOp := { latency, uop1, uop2, dependent := false }

/-- A macro-op without micro-ops: a register move that renaming does. -/
def eliminated : MacroOp := { latency := 0, uop1 := PORT_NULL, uop2 := PORT_NULL, dependent := false }

/-- It waits for the macro-op before it. -/
def withDependent (mop : MacroOp) : MacroOp := { mop with dependent := true }

/-- `is_eliminated`. -/
def isEliminated (mop : MacroOp) : Bool := mop.uop1 == PORT_NULL

/-- `is_simple`. -/
def isSimple (mop : MacroOp) : Bool := mop.uop2 == PORT_NULL

/-- The micro-ops that need a port. -/
def uops (mop : MacroOp) : List (BitVec 32) :=
  if mop.isEliminated then [] else if mop.isSimple then [mop.uop1] else [mop.uop1, mop.uop2]

end MacroOp

/-- `sub r, r`. -/
def MOP_SUB_RR : MacroOp := .new1 1 PORT_P015

/-- `xor r, r`. -/
def MOP_XOR_RR : MacroOp := .new1 1 PORT_P015

/-- `imul r`. -/
def MOP_IMUL_R : MacroOp := .new2 4 PORT_P1 PORT_P5

/-- `mul r`. -/
def MOP_MUL_R : MacroOp := .new2 4 PORT_P1 PORT_P5

/-- `mov r, r`. -/
def MOP_MOV_RR : MacroOp := .eliminated

/-- `lea r, [r + r*s]`. -/
def MOP_LEA_SIB : MacroOp := .new1 1 PORT_P01

/-- `imul r, r`. -/
def MOP_IMUL_RR : MacroOp := .new1 3 PORT_P1

/-- `ror r, i`. -/
def MOP_ROR_RI : MacroOp := .new1 1 PORT_P05

/-- `add r, i`. -/
def MOP_ADD_RI : MacroOp := .new1 1 PORT_P015

/-- `xor r, i`. -/
def MOP_XOR_RI : MacroOp := .new1 1 PORT_P015

/-- `mov r, i64`. -/
def MOP_MOV_RI64 : MacroOp := .new1 1 PORT_P015

/-- An instruction: its macro-ops, and the ones that make its result and select its destination and
    source. -/
structure InstructionInfo where
  instType : SsType
  ops : List MacroOp
  resultOp : Nat
  dstOp : Nat
  srcOp : Option Nat
deriving DecidableEq, Repr

/-- `ISUB_R`. -/
def INFO_ISUB_R : InstructionInfo :=
  { instType := .ISUB_R, ops := [MOP_SUB_RR], resultOp := 0, dstOp := 0, srcOp := some 0 }

/-- `IXOR_R`. -/
def INFO_IXOR_R : InstructionInfo :=
  { instType := .IXOR_R, ops := [MOP_XOR_RR], resultOp := 0, dstOp := 0, srcOp := some 0 }

/-- `IADD_RS`. -/
def INFO_IADD_RS : InstructionInfo :=
  { instType := .IADD_RS, ops := [MOP_LEA_SIB], resultOp := 0, dstOp := 0, srcOp := some 0 }

/-- `IMUL_R`. -/
def INFO_IMUL_R : InstructionInfo :=
  { instType := .IMUL_R, ops := [MOP_IMUL_RR], resultOp := 0, dstOp := 0, srcOp := some 0 }

/-- `IROR_C`. -/
def INFO_IROR_C : InstructionInfo :=
  { instType := .IROR_C, ops := [MOP_ROR_RI], resultOp := 0, dstOp := 0, srcOp := none }

/-- `IADD_C7`. -/
def INFO_IADD_C7 : InstructionInfo :=
  { instType := .IADD_C7, ops := [MOP_ADD_RI], resultOp := 0, dstOp := 0, srcOp := none }

/-- `IXOR_C7`. -/
def INFO_IXOR_C7 : InstructionInfo :=
  { instType := .IXOR_C7, ops := [MOP_XOR_RI], resultOp := 0, dstOp := 0, srcOp := none }

/-- `IADD_C8`. -/
def INFO_IADD_C8 : InstructionInfo :=
  { instType := .IADD_C8, ops := [MOP_ADD_RI], resultOp := 0, dstOp := 0, srcOp := none }

/-- `IXOR_C8`. -/
def INFO_IXOR_C8 : InstructionInfo :=
  { instType := .IXOR_C8, ops := [MOP_XOR_RI], resultOp := 0, dstOp := 0, srcOp := none }

/-- `IADD_C9`. -/
def INFO_IADD_C9 : InstructionInfo :=
  { instType := .IADD_C9, ops := [MOP_ADD_RI], resultOp := 0, dstOp := 0, srcOp := none }

/-- `IXOR_C9`. -/
def INFO_IXOR_C9 : InstructionInfo :=
  { instType := .IXOR_C9, ops := [MOP_XOR_RI], resultOp := 0, dstOp := 0, srcOp := none }

/-- The macro-ops of `IMULH_R`. -/
def IMULH_R_OPS : List MacroOp := [MOP_MOV_RR, MOP_MUL_R, MOP_MOV_RR]

/-- The macro-ops of `ISMULH_R`. -/
def ISMULH_R_OPS : List MacroOp := [MOP_MOV_RR, MOP_IMUL_R, MOP_MOV_RR]

/-- The macro-ops of `IMUL_RCP`: the multiplication waits for the reciprocal. -/
def IMUL_RCP_OPS : List MacroOp := [MOP_MOV_RI64, MOP_IMUL_RR.withDependent]

/-- `IMULH_R`. -/
def INFO_IMULH_R : InstructionInfo :=
  { instType := .IMULH_R, ops := IMULH_R_OPS, resultOp := 1, dstOp := 0, srcOp := some 1 }

/-- `ISMULH_R`. -/
def INFO_ISMULH_R : InstructionInfo :=
  { instType := .ISMULH_R, ops := ISMULH_R_OPS, resultOp := 1, dstOp := 0, srcOp := some 1 }

/-- `IMUL_RCP`. -/
def INFO_IMUL_RCP : InstructionInfo :=
  { instType := .IMUL_RCP, ops := IMUL_RCP_OPS, resultOp := 1, dstOp := 1, srcOp := none }

/-- No instruction. -/
def INFO_NOP : InstructionInfo := { instType := .INVALID, ops := [], resultOp := 0, dstOp := 0, srcOp := some 0 }

/-! ## Decode buffers -/

/-- The random generator: `get_byte` and `get_u32`. -/
structure ByteGenerator (G : Type) where
  getByte : G → Byte × G
  getU32 : G → BitVec 32 × G

/-- The 16 bytes of a decode cycle, cut into slots of these sizes. -/
structure DecodeBuffer where
  slots : List Nat
  index : Nat
deriving DecidableEq, Repr

/-- Slots of 4, 8, 4 bytes. -/
def BUF_484 : DecodeBuffer := { slots := [4, 8, 4], index := 0 }

/-- Slots of 7, 3, 3, 3 bytes. -/
def BUF_7333 : DecodeBuffer := { slots := [7, 3, 3, 3], index := 1 }

/-- Slots of 3, 7, 3, 3 bytes. -/
def BUF_3733 : DecodeBuffer := { slots := [3, 7, 3, 3], index := 2 }

/-- Slots of 4, 9, 3 bytes. -/
def BUF_493 : DecodeBuffer := { slots := [4, 9, 3], index := 3 }

/-- Four slots of 4 bytes: multiplications, and one more. -/
def BUF_4444 : DecodeBuffer := { slots := [4, 4, 4, 4], index := 4 }

/-- Slots of 3, 3, 10 bytes. -/
def BUF_3310 : DecodeBuffer := { slots := [3, 3, 10], index := 5 }

/-- The buffers that `fetch_next` draws from when nothing forces one. -/
def DEFAULT_BUFFERS : Vector DecodeBuffer 4 := #v[BUF_484, BUF_7333, BUF_3733, BUF_493]

/-! ## Working instructions -/

/-- An instruction that is being issued. Its group and group parameter are what may not repeat on a
    register. -/
structure WorkingInstruction where
  info : InstructionInfo
  src : Option (Fin 8)
  dst : Option (Fin 8)
  mod_ : Byte
  imm32 : BitVec 32
  opGroup : SsType
  opGroupPar : BitVec 32
  canReuse : Bool
  groupParIsSource : Bool
deriving DecidableEq, Repr

namespace WorkingInstruction

/-- A working instruction without operands. -/
def ofInfo (info : InstructionInfo) : WorkingInstruction :=
  { info, src := none, dst := none, mod_ := 0, imm32 := 0, opGroup := .INVALID, opGroupPar := -1
    canReuse := false, groupParIsSource := false }

/-- `null`: no instruction. -/
def null : WorkingInstruction := ofInfo INFO_NOP

/-- `to_output`. -/
def toOutput (inst : WorkingInstruction) : SuperscalarInstruction :=
  let code : Option (Fin 8) → Byte := fun reg => reg.elim 255 fun reg => BitVec.ofNat 8 reg
  { opcode := inst.info.instType.code
    dst := code inst.dst
    src := if inst.src.isSome then code inst.src else code inst.dst
    mod_ := inst.mod_
    imm32 := inst.imm32 }

end WorkingInstruction

/-- Whether `x` is zero or a power of two. -/
def isZeroOrPowerOf2 (x : BitVec 32) : Bool := x == 0 || x &&& (x - 1) == 0

/-- What the scheduler knows of a register: the cycle it is ready in and the last operation on it. -/
structure RegisterInfo where
  latency : Nat
  lastOpGroup : SsType
  lastOpPar : BitVec 32
deriving DecidableEq, Repr

/-- `RegisterInfo::new`. -/
def RegisterInfo.new : RegisterInfo := { latency := 0, lastOpGroup := .INVALID, lastOpPar := -1 }

/-- The eight registers. -/
abbrev Registers := Vector RegisterInfo 8

/-- The two rejection loops of `create`. -/
inductive RejectionLoop where
  | rotateCount
  | divisor
deriving DecidableEq, Repr

/-- What a rejection loop accepts. -/
def RejectionLoop.accepts : RejectionLoop → BitVec 32 → Bool
  | rotateCount, imm32 => imm32 != 0
  | divisor, imm32 => !isZeroOrPowerOf2 imm32

/-- The loops that run with fuel; a rejection loop with the state of the generator it starts in. -/
inductive Site (G : Type) where
  | buffer
  | rejection (loop : RejectionLoop) (generator : G)

section

variable {G : Type} (gen : ByteGenerator G)

/-- What a rejection loop draws. -/
def RejectionLoop.next : RejectionLoop → G → BitVec 32 × G
  | rotateCount, g => ((((gen.getByte g).1 &&& 63).setWidth 32), (gen.getByte g).2)
  | divisor, g => gen.getU32 g

/-- `fetch_next`. -/
def fetchNext (prevType : SsType) (decodeCycle mulCount : Nat) (g : G) : Option (DecodeBuffer × G) :=
  if prevType = .IMULH_R ∨ prevType = .ISMULH_R then some (BUF_3310, g)
  else if mulCount < decodeCycle + 1 then some (BUF_4444, g)
  else if prevType = .IMUL_RCP then
    let (byte, g) := gen.getByte g
    some (if byte &&& 1 ≠ 0 then BUF_484 else BUF_493, g)
  else do
    let (byte, g) := gen.getByte g
    return (← DEFAULT_BUFFERS[(byte &&& 3).toNat]?, g)

/-- `select_for_slot`. -/
def selectForSlot (g : G) (slotSize fetchType : Nat) (isLast : Bool) : Option (InstructionInfo × G) :=
  let (byte, g') := gen.getByte g
  match slotSize with
  | 3 =>
    if isLast then
      match (byte &&& 3).toNat with
      | 0 => some (INFO_ISUB_R, g')
      | 1 => some (INFO_IXOR_R, g')
      | 2 => some (INFO_IMULH_R, g')
      | 3 => some (INFO_ISMULH_R, g')
      | _ => none
    else some (if byte &&& 1 = 0 then INFO_ISUB_R else INFO_IXOR_R, g')
  | 4 =>
    if fetchType = 4 ∧ !isLast then some (INFO_IMUL_R, g)
    else some (if byte &&& 1 = 0 then INFO_IROR_C else INFO_IADD_RS, g')
  | 7 => some (if byte &&& 1 = 0 then INFO_IXOR_C7 else INFO_IADD_C7, g')
  | 8 => some (if byte &&& 1 = 0 then INFO_IXOR_C8 else INFO_IADD_C8, g')
  | 9 => some (if byte &&& 1 = 0 then INFO_IXOR_C9 else INFO_IADD_C9, g')
  | 10 => some (INFO_IMUL_RCP, g)
  | _ => none

/-- `loop { imm32 = …; if … { break; } }`. -/
def rejectionLoop (loop : RejectionLoop) (g : G) : Fuelled (Site G) (BitVec 32 × G) :=
  Fuelled.drawUntil (.rejection loop g) (loop.next gen) loop.accepts g

/-- `create`. -/
def create (info : InstructionInfo) (g : G) : Fuelled (Site G) (WorkingInstruction × G) :=
  let inst := WorkingInstruction.ofInfo info
  match info.instType with
  | .ISUB_R => return ({ inst with opGroup := .IADD_RS, groupParIsSource := true }, g)
  | .IXOR_R => return ({ inst with opGroup := .IXOR_R, groupParIsSource := true }, g)
  | .IADD_RS =>
    let (mod_, g) := gen.getByte g
    return ({ inst with mod_, opGroup := .IADD_RS, groupParIsSource := true }, g)
  | .IMUL_R => return ({ inst with opGroup := .IMUL_R, groupParIsSource := true }, g)
  | .IROR_C => do
    let (imm32, g) ← rejectionLoop gen .rotateCount g
    return ({ inst with imm32, opGroup := .IROR_C, opGroupPar := -1 }, g)
  | .IADD_C7 | .IADD_C8 | .IADD_C9 =>
    let (imm32, g) := gen.getU32 g
    return ({ inst with imm32, opGroup := .IADD_C7, opGroupPar := -1 }, g)
  | .IXOR_C7 | .IXOR_C8 | .IXOR_C9 =>
    let (imm32, g) := gen.getU32 g
    return ({ inst with imm32, opGroup := .IXOR_C7, opGroupPar := -1 }, g)
  | .IMULH_R =>
    let (opGroupPar, g) := gen.getU32 g
    return ({ inst with canReuse := true, opGroup := .IMULH_R, opGroupPar }, g)
  | .ISMULH_R =>
    let (opGroupPar, g) := gen.getU32 g
    return ({ inst with canReuse := true, opGroup := .ISMULH_R, opGroupPar }, g)
  | .IMUL_RCP => do
    let (imm32, g) ← rejectionLoop gen .divisor g
    return ({ inst with imm32, opGroup := .IMUL_RCP, opGroupPar := -1 }, g)
  | .INVALID => return (inst, g)

/-- `select_register`. -/
def selectRegister (available : List (Fin 8)) (g : G) : Option (Fin 8 × G) :=
  match available with
  | [] => none
  | [reg] => some (reg, g)
  | reg :: reg' :: available =>
    let (value, g) := gen.getU32 g
    let available := reg :: reg' :: available
    some (available.get ⟨value.toNat % available.length, Nat.mod_lt _ (Nat.succ_pos _)⟩, g)

/-- `select_source`. Where it returns `false` it changes nothing, and is `none`. -/
def selectSource (inst : WorkingInstruction) (cycle : Nat) (registers : Registers) (g : G) :
    Option (WorkingInstruction × G) :=
  let available := (List.finRange 8).filter fun i => (registers.get i).latency ≤ cycle
  if available.length = 2 ∧ inst.info.instType = .IADD_RS ∧
      (available[0]? = some REGISTER_NEEDS_DISPLACEMENT ∨ available[1]? = some REGISTER_NEEDS_DISPLACEMENT) then
    some ({ inst with
      opGroupPar := BitVec.ofNat 32 REGISTER_NEEDS_DISPLACEMENT, src := some REGISTER_NEEDS_DISPLACEMENT }, g)
  else do
    let (reg, g) ← selectRegister gen available g
    let inst := { inst with src := some reg }
    return (if inst.groupParIsSource then { inst with opGroupPar := BitVec.ofNat 32 reg } else inst, g)

/-- What `select_destination` asks of a register. -/
def destinationAvailable (inst : WorkingInstruction) (cycle : Nat) (allowChainedMul : Bool) (registers : Registers)
    (i : Fin 8) : Bool :=
  (registers.get i).latency ≤ cycle
    && (inst.canReuse || some i ≠ inst.src)
    && (allowChainedMul || inst.opGroup ≠ .IMUL_R || (registers.get i).lastOpGroup ≠ .IMUL_R)
    && ((registers.get i).lastOpGroup ≠ inst.opGroup || (registers.get i).lastOpPar ≠ inst.opGroupPar)
    && (inst.info.instType ≠ .IADD_RS || i ≠ REGISTER_NEEDS_DISPLACEMENT)

/-- `select_destination`. -/
def selectDestination (inst : WorkingInstruction) (cycle : Nat) (allowChainedMul : Bool) (registers : Registers)
    (g : G) : Option (WorkingInstruction × G) := do
  let available := (List.finRange 8).filter (destinationAvailable inst cycle allowChainedMul registers)
  let (reg, g) ← selectRegister gen available g
  return ({ inst with dst := some reg }, g)

end

/-! ## Scheduling -/

/-- `port_busy`. -/
abbrev PortBusy := Vector (Vector (BitVec 32) 3) CYCLE_MAP_SIZE

/-- Where a micro-op is. -/
structure Slot where
  cycle : Nat
  port : Fin 3
  uop : BitVec 32
deriving DecidableEq, Repr

/-- The ports that `schedule_uop` tries in a cycle. -/
def freePort (uop : BitVec 32) (row : Vector (BitVec 32) 3) : Option (Fin 3) :=
  if uop &&& PORT_P5 ≠ 0 ∧ row[2] = 0 then some 2
  else if uop &&& PORT_P0 ≠ 0 ∧ row[0] = 0 then some 0
  else if uop &&& PORT_P1 ≠ 0 ∧ row[1] = 0 then some 1
  else none

/-- The `while` loop of `schedule_uop`, with `n` cycles to go. -/
def searchUop (uop : BitVec 32) (portBusy : PortBusy) : Nat → Nat → Option (Option Slot)
  | 0, _ => some none
  | n + 1, c => do
    match freePort uop (← portBusy[c]?) with
    | some port => return some { cycle := c, port, uop }
    | none => searchUop uop portBusy n (c + 1)

/-- `port_busy[c][port] = uop`. -/
def commitSlot (portBusy : PortBusy) (slot : Slot) : Option PortBusy := do
  let row ← portBusy[slot.cycle]?
  return portBusy.setIfInBounds slot.cycle (row.set slot.port slot.uop)

/-- `schedule_uop`. The source returns the cycle of the slot. -/
def scheduleUop (uop : BitVec 32) (portBusy : PortBusy) (cycle : Nat) (commit : Bool) :
    Option (Option Slot × PortBusy) := do
  match ← searchUop uop portBusy (CYCLE_MAP_SIZE - cycle) cycle with
  | none => return (none, portBusy)
  | some slot => return (some slot, ← (if commit then commitSlot portBusy slot else some portBusy))

/-- The `while` loop of `schedule_mop`, with `n` cycles to go: a cycle for both micro-ops. -/
def searchPair (mop : MacroOp) (portBusy : PortBusy) : Nat → Nat → Option (Option Nat)
  | 0, _ => some none
  | n + 1, c => do
    let (slot1, _) ← scheduleUop mop.uop1 portBusy c false
    let (slot2, _) ← scheduleUop mop.uop2 portBusy c false
    match slot1, slot2 with
    | some slot1, some slot2 =>
      if slot1.cycle = slot2.cycle then return some slot1.cycle else searchPair mop portBusy n (c + 1)
    | _, _ => searchPair mop portBusy n (c + 1)

/-- The cycle that `schedule_mop` returns, and where it puts the micro-ops. -/
structure Scheduled where
  cycle : Nat
  slots : List Slot
deriving DecidableEq, Repr

/-- `schedule_mop`. -/
def scheduleMop (mop : MacroOp) (portBusy : PortBusy) (cycle depCycle : Nat) (commit : Bool) :
    Option (Option Scheduled × PortBusy) :=
  let c := if mop.dependent then max cycle depCycle else cycle
  if mop.isEliminated then some (some { cycle := c, slots := [] }, portBusy)
  else if mop.isSimple then do
    let (slot, portBusy) ← scheduleUop mop.uop1 portBusy c commit
    return (slot.map fun slot => { cycle := slot.cycle, slots := [slot] }, portBusy)
  else do
    match ← searchPair mop portBusy (CYCLE_MAP_SIZE - c) c with
    | none => return (none, portBusy)
    | some c1 =>
      if commit then do
        let (slot1, portBusy) ← scheduleUop mop.uop1 portBusy c1 true
        let (slot2, portBusy) ← scheduleUop mop.uop2 portBusy c1 true
        return (some { cycle := c1, slots := slot1.toList ++ slot2.toList }, portBusy)
      else return (some { cycle := c1, slots := [] }, portBusy)

/-! ## The generator -/

/-- A macro-op that is committed, with the registers before it. -/
structure Commit where
  current : WorkingInstruction
  macroOpIndex : Nat
  mop : MacroOp
  cycle : Nat
  slots : List Slot
  registers : Registers

/-- What the generator does. -/
inductive Event where
  /-- A new decode cycle. -/
  | decode
  | commit (c : Commit)
  /-- An instruction is thrown away. -/
  | throwAway
  /-- The rest of a decode buffer is abandoned. -/
  | abandon

/-- The variables of `generate_superscalar`. -/
structure State (G : Type) where
  generator : G
  portBusy : PortBusy
  registers : Registers
  current : WorkingInstruction
  macroOpIndex : Nat
  cycle : Nat
  depCycle : Nat
  portsSaturated : Bool
  programSize : Nat
  mulCount : Nat
  throwAwayCount : Nat
  outputInstructions : List SuperscalarInstruction
  bufferIndex : Nat
  log : List Event

/-- A pass of the loop over a decode buffer: it goes on, or leaves the loop. -/
abbrev Pass (G : Type) := State G ⊕ State G

section

variable {G : Type} (gen : ByteGenerator G)

/-- The variables before the first decode cycle. -/
def State.initial (g : G) : State G :=
  { generator := g
    portBusy := Vector.replicate _ (Vector.replicate 3 0)
    registers := Vector.replicate 8 .new
    current := .null
    macroOpIndex := 0
    cycle := 0
    depCycle := 0
    portsSaturated := false
    programSize := 0
    mulCount := 0
    throwAwayCount := 0
    outputInstructions := []
    bufferIndex := 0
    log := [] }

/-- No register was ready in time: another instruction, or the end of the buffer. -/
def throwAway (st : State G) : Pass G :=
  if st.throwAwayCount < MAX_THROWAWAY_COUNT then
    .inl { st with
      throwAwayCount := st.throwAwayCount + 1
      macroOpIndex := st.current.info.ops.length
      log := st.log ++ [.throwAway] }
  else .inr { st with current := .null, log := st.log ++ [.abandon] }

/-- A loop over `forward`. -/
def lookForward {α : Type} (select : Nat → Option α) (scheduleCycle : Nat) : Option (α × Nat) :=
  (List.range LOOK_FORWARD_CYCLES).findSome? fun forward => (select (scheduleCycle + forward)).map (·, forward)

/-- The selection of an operand, if this macro-op is the one that selects it. -/
def selectOperand (selects : Bool) (select : Nat → Option (WorkingInstruction × G)) (st : State G)
    (scheduleCycle : Nat) : Except (Pass G) (State G × Nat) :=
  if selects then
    match lookForward select scheduleCycle with
    | some ((current, generator), forward) =>
      .ok ({ st with current, generator, cycle := st.cycle + forward }, scheduleCycle + forward)
    | none => .error (throwAway { st with cycle := st.cycle + LOOK_FORWARD_CYCLES })
  else .ok (st, scheduleCycle)

/-- "Update register info if this is the result op". -/
def recordResult (st : State G) : Option (State G) :=
  if st.macroOpIndex = st.current.info.resultOp then do
    let dst ← st.current.dst
    let info := { latency := st.depCycle, lastOpGroup := st.current.opGroup, lastOpPar := st.current.opGroupPar }
    return { st with registers := st.registers.setIfInBounds dst info }
  else some st

/-- "When all macro-ops issued, emit the instruction". -/
def emitInstruction (st : State G) : State G :=
  if st.current.info.ops.length ≤ st.macroOpIndex then
    { st with
      outputInstructions := st.outputInstructions ++ [st.current.toOutput]
      programSize := st.programSize + 1
      mulCount := if isMultiplication st.current.info.instType then st.mulCount + 1 else st.mulCount }
  else st

/-- A pass, from "Commit the schedule" on. -/
def commitMacroOp (topCycle : Nat) (mop : MacroOp) (st : State G) (scheduleCycle : Nat) : Option (Pass G) := do
  let (scheduled, portBusy) ← scheduleMop mop st.portBusy scheduleCycle scheduleCycle true
  match scheduled with
  | none => return .inr { st with portBusy, portsSaturated := true }
  | some { cycle := scheduleCycle, slots } =>
    let commit : Commit :=
      { current := st.current, macroOpIndex := st.macroOpIndex, mop, cycle := scheduleCycle, slots
        registers := st.registers }
    let st ← recordResult { st with
      portBusy, depCycle := scheduleCycle + mop.latency, log := st.log ++ [.commit commit] }
    return .inl (emitInstruction { st with
      bufferIndex := st.bufferIndex + 1
      macroOpIndex := st.macroOpIndex + 1
      portsSaturated := st.portsSaturated || RANDOMX_SUPERSCALAR_LATENCY ≤ scheduleCycle
      cycle := topCycle })

/-- A pass, from "Select destination register" on. -/
def issueFromDestination (topCycle : Nat) (mop : MacroOp) (st : State G) (scheduleCycle : Nat) : Option (Pass G) :=
  match selectOperand (st.macroOpIndex = st.current.info.dstOp)
      (fun cycle => selectDestination gen st.current cycle (0 < st.throwAwayCount) st.registers st.generator)
      st scheduleCycle with
  | .error pass => some pass
  | .ok (st, scheduleCycle) => commitMacroOp topCycle mop { st with throwAwayCount := 0 } scheduleCycle

/-- A pass, from "Calculate earliest schedule cycle" on. -/
def issueMacroOp (topCycle : Nat) (mop : MacroOp) (st : State G) : Option (Pass G) := do
  let (scheduled, _) ← scheduleMop mop st.portBusy st.cycle st.depCycle false
  match scheduled with
  | none => return .inr { st with portsSaturated := true }
  | some scheduled =>
    match selectOperand (st.current.info.srcOp = some st.macroOpIndex)
        (fun cycle => selectSource gen st.current cycle st.registers st.generator) st scheduled.cycle with
    | .error pass => return pass
    | .ok (st, scheduleCycle) => issueFromDestination gen topCycle mop st scheduleCycle

/-- A new instruction for the next slot. -/
def newInstruction (buffer : DecodeBuffer) (st : State G) : Fuelled (Site G) (State G) := do
  let slotSize ← ofOption buffer.slots[st.bufferIndex]?
  let (info, g) ← ofOption (selectForSlot gen st.generator slotSize buffer.index
    (st.bufferIndex + 1 == buffer.slots.length))
  let (current, generator) ← create gen info g
  return { st with current, generator, macroOpIndex := 0 }

/-- The rest of a pass. -/
def issue (topCycle : Nat) (st : State G) : Fuelled (Site G) (Pass G) := do
  let mop ← ofOption st.current.info.ops[st.macroOpIndex]?
  ofOption (issueMacroOp gen topCycle mop st)

/-- A pass of the loop over a decode buffer. -/
def bufferPass (buffer : DecodeBuffer) (st : State G) : Fuelled (Site G) (Pass G) :=
  if st.bufferIndex < buffer.slots.length then
    if st.current.info.ops.length ≤ st.macroOpIndex then
      if st.portsSaturated ∨ SUPERSCALAR_MAX_SIZE ≤ st.programSize then return .inr st
      else do issue gen st.cycle (← newInstruction gen buffer st)
    else issue gen st.cycle st
  else return .inr st

/-- A decode cycle. -/
def decode (decodeCycle : Nat) (st : State G) : Fuelled (Site G) (State G) := do
  let (buffer, generator) ← ofOption (fetchNext gen st.current.info.instType decodeCycle st.mulCount st.generator)
  let st ← Fuelled.loop .buffer (bufferPass gen buffer)
    { st with generator, bufferIndex := 0, log := st.log ++ [.decode] }
  return { st with cycle := st.cycle + 1 }

/-- The loop over the decode cycles. -/
def decodeCycles : List Nat → State G → Fuelled (Site G) (State G)
  | [], st => return st
  | decodeCycle :: rest, st =>
    if st.portsSaturated ∨ SUPERSCALAR_MAX_SIZE ≤ st.programSize then return st
    else do decodeCycles rest (← decode gen decodeCycle st)

/-- `generate_superscalar`, up to the end of its main loop. -/
def schedule (g : G) : Fuelled (Site G) (State G) :=
  decodeCycles gen (List.range RANDOMX_SUPERSCALAR_LATENCY) (.initial g)

/-! ## The address register -/

/-- "Calculate ASIC latencies". -/
def asicLatencies (outputInstructions : List SuperscalarInstruction) : Option (Vector Nat 8) :=
  outputInstructions.foldlM (fun (asicLatencies : Vector Nat 8) inst => do
    let dst := inst.dst.toNat
    let src := inst.src.toNat
    let latDst := (← asicLatencies[dst]?) + 1
    let latSrc ← (if dst ≠ src then do return (← asicLatencies[src]?) + 1 else return 0)
    return asicLatencies.setIfInBounds dst (max latDst latSrc)) (Vector.replicate 8 0)

/-- "Find address register (highest ASIC latency)". -/
def findAddressRegister (asicLatencies : Vector Nat 8) : Fin 8 :=
  ((List.finRange 8).foldl (fun (best : Fin 8 × Nat) i =>
    if asicLatencies.get i > best.2 then (i, asicLatencies.get i) else best) (0, 0)).1

/-- `generate_superscalar`. -/
def generateSuperscalar (g : G) : Fuelled (Site G) (SuperscalarProgram × G) := do
  let st ← schedule gen g
  let latencies ← ofOption (asicLatencies st.outputInstructions)
  return ({ instructions := st.outputInstructions, addressRegister := findAddressRegister latencies }, st.generator)

end
end Superscalar
end RandomX
end MinerTim
