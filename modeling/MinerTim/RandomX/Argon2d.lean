import MinerTim.Lib.Argon2
import MinerTim.RandomX.Blake2b

/-!
# `RandomX.Argon2d` — the cache of `src/randomx/argon2d.rs`

The memory is an array of blocks that the passes fill in place. Offsets are `u32`: `u32` and `subU32` are the
operations that overflow, and `none` is an overflow (a panic where overflows are checked), an index out of bounds
or a failed assertion. The memory size and the number of passes, constants of the source, are parameters
(`argon2dCacheWith`).

The loop keeps a log of its accesses, which nothing reads: it is what the fill discipline is stated on.
-/

namespace MinerTim
namespace RandomX
namespace Argon2d

open Blake2 (Work)
open Argon2 (Block gather scatter)
open Blake2b (blake2b)

/-- Bytes of a block. -/
def ARGON2_BLOCK_SIZE : Nat := 1024

/-- Slices of a pass. -/
def ARGON2_SYNC_POINTS : Nat := 4

/-- Bytes of the first hash. -/
def ARGON2_PREHASH_DIGEST_LENGTH : Nat := 64

/-- Version 1.3. -/
def ARGON2_VERSION : Nat := 0x13

/-- Blocks of the cache. -/
def RANDOMX_ARGON_MEMORY : Nat := 262144

/-- Passes. -/
def RANDOMX_ARGON_ITERATIONS : Nat := 3

/-- Lanes. -/
def RANDOMX_ARGON_LANES : Nat := 1

/-- `RANDOMX_ARGON_SALT`: the bytes of `"RandomX\x03"`. -/
def RANDOMX_ARGON_SALT : List Byte := [0x52, 0x61, 0x6E, 0x64, 0x6F, 0x6D, 0x58, 0x03]

/-- The result of a `u32` addition or multiplication. -/
def u32 (x : Nat) : Option Nat := if x < 2 ^ 32 then some x else none

/-- A `u32` subtraction. -/
def subU32 (a b : Nat) : Option Nat := if b ≤ a then some (a - b) else none

/-- `u32::to_le_bytes`, of a value converted to `u32`. -/
def toLeBytes (n : Nat) : List Byte := (List.range 4).map (byteOf (BitVec.ofNat 32 n))

/-! ## Blocks -/

/-- `Block::new`: all zero. -/
def newBlock : Block := Vector.replicate 128 0

/-- `xor_with`. -/
def xorWith (x other : Block) : Block := Vector.ofFn fun k : Fin 128 => x.get k ^^^ other.get k

/-- `load_from_bytes`, which panics on a shorter slice. -/
def loadFromBytes (bytes : List Byte) : Option Block :=
  if ARGON2_BLOCK_SIZE ≤ bytes.length then
    some (Vector.ofFn fun i : Fin 128 => leWord fun k => bytes.getD (i * 8 + k) 0)
  else none

/-- `store_to_bytes`. -/
def storeToBytes (x : Block) : List Byte := (List.finRange 128).flatMap fun i => (List.range 8).map (byteOf (x.get i))

/-! ## Compression -/

/-- `f_bla_mka`. -/
def fBlaMka (x y : Word) : Word :=
  let m : Word := 0xFFFFFFFF
  let xy := (x &&& m) * (y &&& m)
  x + y + 2 * xy

/-- An index into the sixteen words of a round. -/
abbrev Index := Fin 16

/-- `g_blamka`. -/
def gBlamka (v : Work) (a b c d : Index) : Work :=
  let v := v.set a (fBlaMka v[a] v[b])
  let v := v.set d ((v[d] ^^^ v[a]).rotateRight 32)
  let v := v.set c (fBlaMka v[c] v[d])
  let v := v.set b ((v[b] ^^^ v[c]).rotateRight 24)
  let v := v.set a (fBlaMka v[a] v[b])
  let v := v.set d ((v[d] ^^^ v[a]).rotateRight 16)
  let v := v.set c (fBlaMka v[c] v[d])
  v.set b ((v[b] ^^^ v[c]).rotateRight 63)

/-- `blake2_round_nomsg`. -/
def blake2RoundNomsg (v : Work) : Work :=
  let v := gBlamka v 0 4 8 12
  let v := gBlamka v 1 5 9 13
  let v := gBlamka v 2 6 10 14
  let v := gBlamka v 3 7 11 15
  let v := gBlamka v 0 5 10 15
  let v := gBlamka v 1 6 11 12
  let v := gBlamka v 2 7 8 13
  gBlamka v 3 4 9 14

/-- The words `16 * i … 16 * i + 15`, which the first loop of `fill_block` works on. -/
def contiguous (i : Fin 8) (j : Index) : Fin 128 := ⟨16 * i + j, by omega⟩

/-- The words that the second loop works on. -/
def strided (i : Fin 8) (j : Index) : Fin 128 :=
  let offsets : Vector (Fin 114) 16 := #v[0, 1, 16, 17, 32, 33, 48, 49, 64, 65, 80, 81, 96, 97, 112, 113]
  ⟨2 * i + offsets[j], by have := offsets[j].isLt; omega⟩

/-- `fill_block`. -/
def fillBlock (prevBlock refBlock nextBlock : Block) (withXor : Bool) : Block :=
  let blockR := xorWith refBlock prevBlock
  let blockTmp := if withXor then xorWith blockR nextBlock else blockR
  let blockR := (List.finRange 8).foldl
    (fun x i => scatter (contiguous i) (blake2RoundNomsg (gather (contiguous i) x)) x) blockR
  let blockR := (List.finRange 8).foldl
    (fun x i => scatter (strided i) (blake2RoundNomsg (gather (strided i) x)) x) blockR
  xorWith blockTmp blockR

/-! ## The variable-length hash -/

/-- The `while` loop of `blake2b_long`, and the final block after it. -/
def extend (toproduce : Nat) (outBuffer out : List Byte) : Option (List Byte) :=
  if 64 < toproduce then do
    let outBuffer ← blake2b 64 outBuffer
    extend (toproduce - 32) outBuffer (out ++ outBuffer.take 32)
  else do
    let finalHash ← blake2b toproduce outBuffer
    return out ++ finalHash
termination_by toproduce

/-- `blake2b_long`. -/
def blake2bLong (outLen : Nat) (input : List Byte) : Option (List Byte) :=
  if outLen ≤ 64 then blake2b outLen (toLeBytes outLen ++ input)
  else do
    let outBuffer ← blake2b 64 (toLeBytes outLen ++ input)
    extend (outLen - 32) outBuffer (outBuffer.take 32)

/-! ## Indexing -/

/-- `reference_area_size`. -/
def referenceAreaSize (pass slice index : Nat) (sameLane : Bool) (laneLength segmentLength : Nat) :
    Option Nat :=
  if pass = 0 then
    if slice = 0 then subU32 index 1
    else if sameLane then do subU32 (← u32 ((← u32 (slice * segmentLength)) + index)) 1
    else do u32 ((← u32 (slice * segmentLength)) + if index = 0 then 2 ^ 32 - 1 else 0)
  else if sameLane then do subU32 (← u32 ((← subU32 laneLength segmentLength) + index)) 1
  else do u32 ((← subU32 laneLength segmentLength) + if index = 0 then 2 ^ 32 - 1 else 0)

/-- `relative_position`. -/
def relativePosition (pseudoRand : BitVec 32) (referenceAreaSize : Nat) : BitVec 32 :=
  let rp : Word := pseudoRand.setWidth 64
  let rp := (rp * rp) >>> 32
  let area : Word := BitVec.ofNat 64 referenceAreaSize
  (area - (area * rp) >>> 32 - 1).setWidth 32

/-- `start_position`. -/
def startPosition (pass slice segmentLength : Nat) : Option Nat :=
  if pass ≠ 0 then
    if slice = ARGON2_SYNC_POINTS - 1 then some 0 else do u32 ((← u32 (slice + 1)) * segmentLength)
  else some 0

/-- `index_alpha`. -/
def indexAlpha (pass slice index : Nat) (pseudoRand : BitVec 32) (sameLane : Bool)
    (laneLength segmentLength : Nat) : Option Nat := do
  let area ← referenceAreaSize pass slice index sameLane laneLength segmentLength
  let start ← startPosition pass slice segmentLength
  let position ← u32 (start + (relativePosition pseudoRand area).toNat)
  if laneLength = 0 then none else some (position % laneLength)

/-! ## Filling the memory -/

/-- What one step of the loop reads and writes. -/
structure Access where
  pass : Nat
  slice : Nat
  index : Nat
  curr : Nat
  prev : Nat
  ref : Nat
deriving DecidableEq, Repr

/-- The memory, and the log. -/
structure Memory where
  blocks : Array Block
  log : List Access

/-- The variables of the loop of `fill_segment`. -/
structure Filling where
  memory : Memory
  currOffset : Nat
  prevOffset : Nat

/-- The body of the loop. -/
def fillStep (pass lane slice lanes laneLength segmentLength : Nat) (st : Filling) (i : Nat) :
    Option Filling := do
  let prevOffset ← (if st.currOffset % laneLength = 1 then subU32 st.currOffset 1 else some st.prevOffset)
  let prev ← st.memory.blocks[prevOffset]?
  let pseudoRand := prev[0]
  let refLane := ((pseudoRand >>> 32).setWidth 32 : BitVec 32).toNat % lanes
  let actualRefLane := if pass = 0 ∧ slice = 0 then lane else refLane
  let refIndex ← indexAlpha pass slice i (pseudoRand.setWidth 32) (actualRefLane == lane) laneLength
    segmentLength
  let refBlockOffset ← u32 ((← u32 (actualRefLane * laneLength)) + refIndex)
  let refB ← st.memory.blocks[refBlockOffset]?
  let curr ← st.memory.blocks[st.currOffset]?
  let next := fillBlock prev refB curr (0 < pass)
  let access : Access :=
    { pass, slice, index := i, curr := st.currOffset, prev := prevOffset, ref := refBlockOffset }
  return {
    memory := { blocks := st.memory.blocks.setIfInBounds st.currOffset next, log := st.memory.log ++ [access] }
    currOffset := ← u32 (st.currOffset + 1)
    prevOffset := ← u32 (prevOffset + 1) }

/-- `fill_segment`. -/
def fillSegment (memory : Memory) (pass lane slice lanes laneLength segmentLength : Nat) : Option Memory := do
  let startingIndex := if pass = 0 ∧ slice = 0 then 2 else 0
  let currOffset ← u32 ((← u32 ((← u32 (lane * laneLength)) + (← u32 (slice * segmentLength)))) + startingIndex)
  let prevOffset ← (if currOffset % laneLength = 0 then do subU32 (← u32 (currOffset + laneLength)) 1
    else subU32 currOffset 1)
  let st ← (List.range' startingIndex (segmentLength - startingIndex)).foldlM
    (fillStep pass lane slice lanes laneLength segmentLength) { memory, currOffset, prevOffset }
  return st.memory

/-- The three loops of `argon2d_cache`. -/
def fillMemory (memory : Memory) (iterations lanes laneLength segmentLength : Nat) : Option Memory :=
  (List.range iterations).foldlM (fun memory pass =>
    (List.range ARGON2_SYNC_POINTS).foldlM (fun memory slice =>
      (List.range lanes).foldlM (fun memory lane =>
        fillSegment memory pass lane slice lanes laneLength segmentLength) memory) memory) memory

/-! ## The cache -/

section

variable (memoryBlocks iterations : Nat)

/-- `initial_hash`. -/
def initialHash (key : List Byte) : Option (List Byte) :=
  blake2b ARGON2_PREHASH_DIGEST_LENGTH (toLeBytes RANDOMX_ARGON_LANES ++ toLeBytes 0 ++ toLeBytes memoryBlocks
    ++ toLeBytes iterations ++ toLeBytes ARGON2_VERSION ++ toLeBytes 0
    ++ toLeBytes key.length ++ key ++ toLeBytes RANDOMX_ARGON_SALT.length ++ RANDOMX_ARGON_SALT
    ++ toLeBytes 0 ++ toLeBytes 0)

/-- `memory[offset].load_from_bytes(&blake2b_long(ARGON2_BLOCK_SIZE, &seed))`. -/
def fillFirstBlock (blocks : Array Block) (offset : Nat) (seed : List Byte) : Option (Array Block) := do
  let bytes ← blake2bLong ARGON2_BLOCK_SIZE seed
  let block ← loadFromBytes bytes
  if offset < blocks.size then some (blocks.setIfInBounds offset block) else none

/-- `fill_first_blocks`. -/
def fillFirstBlocks (blocks : Array Block) (blockhash : List Byte) (lanes laneLength : Nat) :
    Option (Array Block) :=
  (List.range lanes).foldlM (fun blocks l => do
    let offset ← u32 (l * laneLength)
    let blocks ← fillFirstBlock blocks offset (blockhash ++ toLeBytes 0 ++ toLeBytes l)
    fillFirstBlock blocks (← u32 (offset + 1)) (blockhash ++ toLeBytes 1 ++ toLeBytes l)) blocks

/-- `argon2d_cache`, for any memory size and number of passes. -/
def argon2dCacheWith (key : List Byte) : Option (List Byte) := do
  let lanes := RANDOMX_ARGON_LANES
  let segmentLength := memoryBlocks / (lanes * ARGON2_SYNC_POINTS)
  let laneLength ← u32 (segmentLength * ARGON2_SYNC_POINTS)
  let totalBlocks ← u32 (lanes * laneLength)
  let blockhash ← initialHash memoryBlocks iterations key
  let blocks ← fillFirstBlocks (Array.replicate totalBlocks newBlock) blockhash lanes laneLength
  let memory ← fillMemory { blocks, log := [] } iterations lanes laneLength segmentLength
  return memory.blocks.toList.flatMap storeToBytes

end

/-- `argon2d_cache`. -/
def argon2dCache (key : List Byte) : Option (List Byte) :=
  argon2dCacheWith RANDOMX_ARGON_MEMORY RANDOMX_ARGON_ITERATIONS key

end Argon2d
end RandomX
end MinerTim
