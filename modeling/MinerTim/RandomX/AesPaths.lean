import MinerTim.RandomX.SoftAes

/-!
# `RandomX.AesPaths` — the software, NEON and AES-NI paths of `aes_hash.rs`

`aes_hash.rs` has every function three times: over the tables of `soft_aes.rs`, over the NEON
intrinsics and over the AES-NI intrinsics, each an unrolled loop of its own. A run-time feature test
picks one (`Cpu`). They are written out here one by one; `RandomX.AesPathsSpec` shows that they agree.

The intrinsics are the transformations of a round, in the order their architectures define. An access
of sixteen bytes is partial: outside its buffer the software path panics and the other two, which go
through raw pointers, have undefined behaviour. What a function returns is what it writes; an argument
behind a shared reference is in no result because no path writes through it.
-/

namespace MinerTim
namespace RandomX

open Aes

variable {n : Nat}

/-! ## Accesses and loops -/

/-- Read the sixteen bytes at `offset`. -/
def readBlock (data : Vector Byte n) (offset : Nat) : Option Block :=
  if offset + 16 ≤ n then some (loadBlock data offset) else none

/-- Write the sixteen bytes at `offset`. -/
def writeBlock (data : Vector Byte n) (offset : Nat) (block : Block) : Option (Vector Byte n) :=
  if offset + 16 ≤ n then some (storeBlock data offset block) else none

variable {σ : Type}

/-- `while offset < len { … offset += 64 }`. -/
def whileRows (len : Nat) (body : Nat → σ → Option σ) (offset : Nat) (s : σ) : Option σ :=
  if offset < len then body offset s >>= whileRows len body (offset + 64) else some s
termination_by len - offset

/-- `while i * 64 < len { … i += 1 }`. -/
def whileBlocks (len : Nat) (body : Nat → σ → Option σ) (i : Nat) (s : σ) : Option σ :=
  if i * 64 < len then body i s >>= whileBlocks len body (i + 1) else some s
termination_by len - i * 64

/-! ## Software fallback -/

/-- `fill_aes_1rx4_soft`. -/
def fillAes1Rx4Soft (state : Vector Byte 64) (output : Vector Byte n) :
    Option (Vector Byte 64 × Vector Byte n) := do
  let s0 ← readBlock state 0
  let s1 ← readBlock state 16
  let s2 ← readBlock state 32
  let s3 ← readBlock state 48
  let (Lanes.mk s0 s1 s2 s3, output) ← whileRows n
    (fun offset (Lanes.mk s0 s1 s2 s3, output) => do
      let s0 := softAesdec s0 GEN_1R_KEY0
      let s1 := softAesenc s1 GEN_1R_KEY1
      let s2 := softAesdec s2 GEN_1R_KEY2
      let s3 := softAesenc s3 GEN_1R_KEY3
      let output ← writeBlock output offset s0
      let output ← writeBlock output (offset + 16) s1
      let output ← writeBlock output (offset + 32) s2
      let output ← writeBlock output (offset + 48) s3
      return (Lanes.mk s0 s1 s2 s3, output))
    0 (Lanes.mk s0 s1 s2 s3, output)
  let state ← writeBlock state 0 s0
  let state ← writeBlock state 16 s1
  let state ← writeBlock state 32 s2
  let state ← writeBlock state 48 s3
  return (state, output)

/-- `fill_aes_4rx4_soft`. -/
def fillAes4Rx4Soft (state : Vector Byte 64) (output : Vector Byte n) :
    Option (Vector Byte n) := do
  let s0 ← readBlock state 0
  let s1 ← readBlock state 16
  let s2 ← readBlock state 32
  let s3 ← readBlock state 48
  let (_, output) ← whileRows n
    (fun offset (Lanes.mk s0 s1 s2 s3, output) => do
      let s0 := softAesdec s0 GEN_4R_KEY0
      let s1 := softAesenc s1 GEN_4R_KEY0
      let s2 := softAesdec s2 GEN_4R_KEY4
      let s3 := softAesenc s3 GEN_4R_KEY4
      let s0 := softAesdec s0 GEN_4R_KEY1
      let s1 := softAesenc s1 GEN_4R_KEY1
      let s2 := softAesdec s2 GEN_4R_KEY5
      let s3 := softAesenc s3 GEN_4R_KEY5
      let s0 := softAesdec s0 GEN_4R_KEY2
      let s1 := softAesenc s1 GEN_4R_KEY2
      let s2 := softAesdec s2 GEN_4R_KEY6
      let s3 := softAesenc s3 GEN_4R_KEY6
      let s0 := softAesdec s0 GEN_4R_KEY3
      let s1 := softAesenc s1 GEN_4R_KEY3
      let s2 := softAesdec s2 GEN_4R_KEY7
      let s3 := softAesenc s3 GEN_4R_KEY7
      let output ← writeBlock output offset s0
      let output ← writeBlock output (offset + 16) s1
      let output ← writeBlock output (offset + 32) s2
      let output ← writeBlock output (offset + 48) s3
      return (Lanes.mk s0 s1 s2 s3, output))
    0 (Lanes.mk s0 s1 s2 s3, output)
  return output

/-- `hash_aes_1rx4_soft`. -/
def hashAes1Rx4Soft (input : Vector Byte n) : Option (Vector Byte 64) := do
  let s0 := HASH_1R_STATE0
  let s1 := HASH_1R_STATE1
  let s2 := HASH_1R_STATE2
  let s3 := HASH_1R_STATE3
  let Lanes.mk s0 s1 s2 s3 ← whileRows n
    (fun offset (Lanes.mk s0 s1 s2 s3) => do
      let in0 ← readBlock input offset
      let in1 ← readBlock input (offset + 16)
      let in2 ← readBlock input (offset + 32)
      let in3 ← readBlock input (offset + 48)
      let s0 := softAesenc s0 in0
      let s1 := softAesdec s1 in1
      let s2 := softAesenc s2 in2
      let s3 := softAesdec s3 in3
      return Lanes.mk s0 s1 s2 s3)
    0 (Lanes.mk s0 s1 s2 s3)
  let s0 := softAesenc s0 HASH_1R_XKEY0
  let s1 := softAesdec s1 HASH_1R_XKEY0
  let s2 := softAesenc s2 HASH_1R_XKEY0
  let s3 := softAesdec s3 HASH_1R_XKEY0
  let s0 := softAesenc s0 HASH_1R_XKEY1
  let s1 := softAesdec s1 HASH_1R_XKEY1
  let s2 := softAesenc s2 HASH_1R_XKEY1
  let s3 := softAesdec s3 HASH_1R_XKEY1
  let out := Vector.replicate 64 0
  let out ← writeBlock out 0 s0
  let out ← writeBlock out 16 s1
  let out ← writeBlock out 32 s2
  let out ← writeBlock out 48 s3
  return out

/-- `hash_and_fill_aes_1rx4_soft`. -/
def hashAndFillAes1Rx4Soft (scratchpad : Vector Byte n) (hashOut fillState : Vector Byte 64) :
    Option (Vector Byte n × Vector Byte 64 × Vector Byte 64) := do
  let hs0 := HASH_1R_STATE0
  let hs1 := HASH_1R_STATE1
  let hs2 := HASH_1R_STATE2
  let hs3 := HASH_1R_STATE3
  let fs0 ← readBlock fillState 0
  let fs1 ← readBlock fillState 16
  let fs2 ← readBlock fillState 32
  let fs3 ← readBlock fillState 48
  let (Lanes.mk hs0 hs1 hs2 hs3, Lanes.mk fs0 fs1 fs2 fs3, scratchpad) ← whileRows n
    (fun offset (Lanes.mk hs0 hs1 hs2 hs3, Lanes.mk fs0 fs1 fs2 fs3, scratchpad) => do
      let in0 ← readBlock scratchpad offset
      let in1 ← readBlock scratchpad (offset + 16)
      let in2 ← readBlock scratchpad (offset + 32)
      let in3 ← readBlock scratchpad (offset + 48)
      let hs0 := softAesenc hs0 in0
      let hs1 := softAesdec hs1 in1
      let hs2 := softAesenc hs2 in2
      let hs3 := softAesdec hs3 in3
      let fs0 := softAesdec fs0 GEN_1R_KEY0
      let fs1 := softAesenc fs1 GEN_1R_KEY1
      let fs2 := softAesdec fs2 GEN_1R_KEY2
      let fs3 := softAesenc fs3 GEN_1R_KEY3
      let scratchpad ← writeBlock scratchpad offset fs0
      let scratchpad ← writeBlock scratchpad (offset + 16) fs1
      let scratchpad ← writeBlock scratchpad (offset + 32) fs2
      let scratchpad ← writeBlock scratchpad (offset + 48) fs3
      return (Lanes.mk hs0 hs1 hs2 hs3, Lanes.mk fs0 fs1 fs2 fs3, scratchpad))
    0 (Lanes.mk hs0 hs1 hs2 hs3, Lanes.mk fs0 fs1 fs2 fs3, scratchpad)
  let fillState ← writeBlock fillState 0 fs0
  let fillState ← writeBlock fillState 16 fs1
  let fillState ← writeBlock fillState 32 fs2
  let fillState ← writeBlock fillState 48 fs3
  let hs0 := softAesenc hs0 HASH_1R_XKEY0
  let hs1 := softAesdec hs1 HASH_1R_XKEY0
  let hs2 := softAesenc hs2 HASH_1R_XKEY0
  let hs3 := softAesdec hs3 HASH_1R_XKEY0
  let hs0 := softAesenc hs0 HASH_1R_XKEY1
  let hs1 := softAesdec hs1 HASH_1R_XKEY1
  let hs2 := softAesenc hs2 HASH_1R_XKEY1
  let hs3 := softAesdec hs3 HASH_1R_XKEY1
  let hashOut ← writeBlock hashOut 0 hs0
  let hashOut ← writeBlock hashOut 16 hs1
  let hashOut ← writeBlock hashOut 32 hs2
  let hashOut ← writeBlock hashOut 48 hs3
  return (scratchpad, hashOut, fillState)

/-- `aes_mix_fe_soft`. -/
def aesMixFeSoft (f e : Vector Block 4) : Option (Vector Block 4) :=
  some (e.toList.foldl (fun f key =>
    let f := f.set 0 (softAesenc f[0] key)
    let f := f.set 1 (softAesdec f[1] key)
    let f := f.set 2 (softAesenc f[2] key)
    f.set 3 (softAesdec f[3] key)) f)

/-! ## aarch64 NEON -/

/-- `vld1q_u8`. -/
def vld1qU8 (data : Vector Byte n) (offset : Nat) : Option Block := readBlock data offset

/-- `vst1q_u8`. -/
def vst1qU8 (data : Vector Byte n) (offset : Nat) (v : Block) : Option (Vector Byte n) :=
  writeBlock data offset v

/-- `vmovq_n_u8`. -/
def vmovqNU8 (b : Byte) : Block := Vector.replicate 16 b

/-- `vdupq_n_u8`. -/
def vdupqNU8 (b : Byte) : Block := Vector.replicate 16 b

/-- `veorq_u8`. -/
def veorqU8 (a b : Block) : Block := addRoundKey a b

/-- `AESE`: the round key comes first. -/
def vaeseqU8 (data key : Block) : Block := subBytes (shiftRows (addRoundKey data key))

/-- `AESD`. -/
def vaesdqU8 (data key : Block) : Block := invSubBytes (invShiftRows (addRoundKey data key))

/-- `AESMC`. -/
def vaesmcqU8 (data : Block) : Block := mixColumns data

/-- `AESIMC`. -/
def vaesimcqU8 (data : Block) : Block := invMixColumns data

/-- `fill_aes_1rx4_neon`. -/
def fillAes1Rx4Neon (state : Vector Byte 64) (output : Vector Byte n) :
    Option (Vector Byte 64 × Vector Byte n) := do
  let zero := vmovqNU8 0
  let s0 ← vld1qU8 state 0
  let s1 ← vld1qU8 state 16
  let s2 ← vld1qU8 state 32
  let s3 ← vld1qU8 state 48
  let k0 ← vld1qU8 GEN_1R_KEY0 0
  let k1 ← vld1qU8 GEN_1R_KEY1 0
  let k2 ← vld1qU8 GEN_1R_KEY2 0
  let k3 ← vld1qU8 GEN_1R_KEY3 0
  let (Lanes.mk s0 s1 s2 s3, output) ← whileRows n
    (fun offset (Lanes.mk s0 s1 s2 s3, output) => do
      let s0 := veorqU8 (vaesimcqU8 (vaesdqU8 s0 zero)) k0
      let s1 := veorqU8 (vaesmcqU8 (vaeseqU8 s1 zero)) k1
      let s2 := veorqU8 (vaesimcqU8 (vaesdqU8 s2 zero)) k2
      let s3 := veorqU8 (vaesmcqU8 (vaeseqU8 s3 zero)) k3
      let output ← vst1qU8 output offset s0
      let output ← vst1qU8 output (offset + 16) s1
      let output ← vst1qU8 output (offset + 32) s2
      let output ← vst1qU8 output (offset + 48) s3
      return (Lanes.mk s0 s1 s2 s3, output))
    0 (Lanes.mk s0 s1 s2 s3, output)
  let state ← vst1qU8 state 0 s0
  let state ← vst1qU8 state 16 s1
  let state ← vst1qU8 state 32 s2
  let state ← vst1qU8 state 48 s3
  return (state, output)

/-- `fill_aes_4rx4_neon`. -/
def fillAes4Rx4Neon (state : Vector Byte 64) (output : Vector Byte n) :
    Option (Vector Byte n) := do
  let zero := vmovqNU8 0
  let s0 ← vld1qU8 state 0
  let s1 ← vld1qU8 state 16
  let s2 ← vld1qU8 state 32
  let s3 ← vld1qU8 state 48
  let rk0 ← vld1qU8 GEN_4R_KEY0 0
  let rk1 ← vld1qU8 GEN_4R_KEY1 0
  let rk2 ← vld1qU8 GEN_4R_KEY2 0
  let rk3 ← vld1qU8 GEN_4R_KEY3 0
  let rk4 ← vld1qU8 GEN_4R_KEY4 0
  let rk5 ← vld1qU8 GEN_4R_KEY5 0
  let rk6 ← vld1qU8 GEN_4R_KEY6 0
  let rk7 ← vld1qU8 GEN_4R_KEY7 0
  let (_, output) ← whileRows n
    (fun offset (Lanes.mk s0 s1 s2 s3, output) => do
      let s0 := veorqU8 (vaesimcqU8 (vaesdqU8 s0 zero)) rk0
      let s1 := veorqU8 (vaesmcqU8 (vaeseqU8 s1 zero)) rk0
      let s2 := veorqU8 (vaesimcqU8 (vaesdqU8 s2 zero)) rk4
      let s3 := veorqU8 (vaesmcqU8 (vaeseqU8 s3 zero)) rk4
      let s0 := veorqU8 (vaesimcqU8 (vaesdqU8 s0 zero)) rk1
      let s1 := veorqU8 (vaesmcqU8 (vaeseqU8 s1 zero)) rk1
      let s2 := veorqU8 (vaesimcqU8 (vaesdqU8 s2 zero)) rk5
      let s3 := veorqU8 (vaesmcqU8 (vaeseqU8 s3 zero)) rk5
      let s0 := veorqU8 (vaesimcqU8 (vaesdqU8 s0 zero)) rk2
      let s1 := veorqU8 (vaesmcqU8 (vaeseqU8 s1 zero)) rk2
      let s2 := veorqU8 (vaesimcqU8 (vaesdqU8 s2 zero)) rk6
      let s3 := veorqU8 (vaesmcqU8 (vaeseqU8 s3 zero)) rk6
      let s0 := veorqU8 (vaesimcqU8 (vaesdqU8 s0 zero)) rk3
      let s1 := veorqU8 (vaesmcqU8 (vaeseqU8 s1 zero)) rk3
      let s2 := veorqU8 (vaesimcqU8 (vaesdqU8 s2 zero)) rk7
      let s3 := veorqU8 (vaesmcqU8 (vaeseqU8 s3 zero)) rk7
      let output ← vst1qU8 output offset s0
      let output ← vst1qU8 output (offset + 16) s1
      let output ← vst1qU8 output (offset + 32) s2
      let output ← vst1qU8 output (offset + 48) s3
      return (Lanes.mk s0 s1 s2 s3, output))
    0 (Lanes.mk s0 s1 s2 s3, output)
  return output

/-- `hash_aes_1rx4_neon`. -/
def hashAes1Rx4Neon (input : Vector Byte n) : Option (Vector Byte 64) := do
  let zero := vmovqNU8 0
  let s0 ← vld1qU8 HASH_1R_STATE0 0
  let s1 ← vld1qU8 HASH_1R_STATE1 0
  let s2 ← vld1qU8 HASH_1R_STATE2 0
  let s3 ← vld1qU8 HASH_1R_STATE3 0
  let Lanes.mk s0 s1 s2 s3 ← whileRows n
    (fun offset (Lanes.mk s0 s1 s2 s3) => do
      let in0 ← vld1qU8 input offset
      let in1 ← vld1qU8 input (offset + 16)
      let in2 ← vld1qU8 input (offset + 32)
      let in3 ← vld1qU8 input (offset + 48)
      let s0 := veorqU8 (vaesmcqU8 (vaeseqU8 s0 zero)) in0
      let s1 := veorqU8 (vaesimcqU8 (vaesdqU8 s1 zero)) in1
      let s2 := veorqU8 (vaesmcqU8 (vaeseqU8 s2 zero)) in2
      let s3 := veorqU8 (vaesimcqU8 (vaesdqU8 s3 zero)) in3
      return Lanes.mk s0 s1 s2 s3)
    0 (Lanes.mk s0 s1 s2 s3)
  let xk0 ← vld1qU8 HASH_1R_XKEY0 0
  let xk1 ← vld1qU8 HASH_1R_XKEY1 0
  let s0 := veorqU8 (vaesmcqU8 (vaeseqU8 s0 zero)) xk0
  let s1 := veorqU8 (vaesimcqU8 (vaesdqU8 s1 zero)) xk0
  let s2 := veorqU8 (vaesmcqU8 (vaeseqU8 s2 zero)) xk0
  let s3 := veorqU8 (vaesimcqU8 (vaesdqU8 s3 zero)) xk0
  let s0 := veorqU8 (vaesmcqU8 (vaeseqU8 s0 zero)) xk1
  let s1 := veorqU8 (vaesimcqU8 (vaesdqU8 s1 zero)) xk1
  let s2 := veorqU8 (vaesmcqU8 (vaeseqU8 s2 zero)) xk1
  let s3 := veorqU8 (vaesimcqU8 (vaesdqU8 s3 zero)) xk1
  let out := Vector.replicate 64 0
  let out ← vst1qU8 out 0 s0
  let out ← vst1qU8 out 16 s1
  let out ← vst1qU8 out 32 s2
  let out ← vst1qU8 out 48 s3
  return out

/-- `hash_and_fill_aes_1rx4_neon`. -/
def hashAndFillAes1Rx4Neon (scratchpad : Vector Byte n) (hashOut fillState : Vector Byte 64) :
    Option (Vector Byte n × Vector Byte 64 × Vector Byte 64) := do
  let zero := vmovqNU8 0
  let hs0 ← vld1qU8 HASH_1R_STATE0 0
  let hs1 ← vld1qU8 HASH_1R_STATE1 0
  let hs2 ← vld1qU8 HASH_1R_STATE2 0
  let hs3 ← vld1qU8 HASH_1R_STATE3 0
  let fs0 ← vld1qU8 fillState 0
  let fs1 ← vld1qU8 fillState 16
  let fs2 ← vld1qU8 fillState 32
  let fs3 ← vld1qU8 fillState 48
  let fk0 ← vld1qU8 GEN_1R_KEY0 0
  let fk1 ← vld1qU8 GEN_1R_KEY1 0
  let fk2 ← vld1qU8 GEN_1R_KEY2 0
  let fk3 ← vld1qU8 GEN_1R_KEY3 0
  let (Lanes.mk hs0 hs1 hs2 hs3, Lanes.mk fs0 fs1 fs2 fs3, scratchpad) ← whileRows n
    (fun offset (Lanes.mk hs0 hs1 hs2 hs3, Lanes.mk fs0 fs1 fs2 fs3, scratchpad) => do
      let in0 ← vld1qU8 scratchpad offset
      let in1 ← vld1qU8 scratchpad (offset + 16)
      let in2 ← vld1qU8 scratchpad (offset + 32)
      let in3 ← vld1qU8 scratchpad (offset + 48)
      let hs0 := veorqU8 (vaesmcqU8 (vaeseqU8 hs0 zero)) in0
      let hs1 := veorqU8 (vaesimcqU8 (vaesdqU8 hs1 zero)) in1
      let hs2 := veorqU8 (vaesmcqU8 (vaeseqU8 hs2 zero)) in2
      let hs3 := veorqU8 (vaesimcqU8 (vaesdqU8 hs3 zero)) in3
      let fs0 := veorqU8 (vaesimcqU8 (vaesdqU8 fs0 zero)) fk0
      let fs1 := veorqU8 (vaesmcqU8 (vaeseqU8 fs1 zero)) fk1
      let fs2 := veorqU8 (vaesimcqU8 (vaesdqU8 fs2 zero)) fk2
      let fs3 := veorqU8 (vaesmcqU8 (vaeseqU8 fs3 zero)) fk3
      let scratchpad ← vst1qU8 scratchpad offset fs0
      let scratchpad ← vst1qU8 scratchpad (offset + 16) fs1
      let scratchpad ← vst1qU8 scratchpad (offset + 32) fs2
      let scratchpad ← vst1qU8 scratchpad (offset + 48) fs3
      return (Lanes.mk hs0 hs1 hs2 hs3, Lanes.mk fs0 fs1 fs2 fs3, scratchpad))
    0 (Lanes.mk hs0 hs1 hs2 hs3, Lanes.mk fs0 fs1 fs2 fs3, scratchpad)
  let fillState ← vst1qU8 fillState 0 fs0
  let fillState ← vst1qU8 fillState 16 fs1
  let fillState ← vst1qU8 fillState 32 fs2
  let fillState ← vst1qU8 fillState 48 fs3
  let xk0 ← vld1qU8 HASH_1R_XKEY0 0
  let xk1 ← vld1qU8 HASH_1R_XKEY1 0
  let hs0 := veorqU8 (vaesmcqU8 (vaeseqU8 hs0 zero)) xk0
  let hs1 := veorqU8 (vaesimcqU8 (vaesdqU8 hs1 zero)) xk0
  let hs2 := veorqU8 (vaesmcqU8 (vaeseqU8 hs2 zero)) xk0
  let hs3 := veorqU8 (vaesimcqU8 (vaesdqU8 hs3 zero)) xk0
  let hs0 := veorqU8 (vaesmcqU8 (vaeseqU8 hs0 zero)) xk1
  let hs1 := veorqU8 (vaesimcqU8 (vaesdqU8 hs1 zero)) xk1
  let hs2 := veorqU8 (vaesmcqU8 (vaeseqU8 hs2 zero)) xk1
  let hs3 := veorqU8 (vaesimcqU8 (vaesdqU8 hs3 zero)) xk1
  let hashOut ← vst1qU8 hashOut 0 hs0
  let hashOut ← vst1qU8 hashOut 16 hs1
  let hashOut ← vst1qU8 hashOut 32 hs2
  let hashOut ← vst1qU8 hashOut 48 hs3
  return (scratchpad, hashOut, fillState)

/-- `aes_mix_fe_neon`. -/
def aesMixFeNeon (f e : Vector Block 4) : Option (Vector Block 4) := do
  let zero := vdupqNU8 0
  let f0 ← vld1qU8 f[0] 0
  let f1 ← vld1qU8 f[1] 0
  let f2 ← vld1qU8 f[2] 0
  let f3 ← vld1qU8 f[3] 0
  let Lanes.mk f0 f1 f2 f3 ← e.toList.foldlM
    (fun (Lanes.mk f0 f1 f2 f3) keyBytes => do
      let k ← vld1qU8 keyBytes 0
      let f0 := veorqU8 (vaesmcqU8 (vaeseqU8 f0 zero)) k
      let f1 := veorqU8 (vaesimcqU8 (vaesdqU8 f1 zero)) k
      let f2 := veorqU8 (vaesmcqU8 (vaeseqU8 f2 zero)) k
      let f3 := veorqU8 (vaesimcqU8 (vaesdqU8 f3 zero)) k
      return Lanes.mk f0 f1 f2 f3)
    (Lanes.mk f0 f1 f2 f3)
  let f := f.set 0 (← vst1qU8 f[0] 0 f0)
  let f := f.set 1 (← vst1qU8 f[1] 0 f1)
  let f := f.set 2 (← vst1qU8 f[2] 0 f2)
  let f := f.set 3 (← vst1qU8 f[3] 0 f3)
  return f

/-! ## x86_64 AES-NI -/

/-- The byte offset of `p.add(k)` for a pointer `p` to `__m128i`. -/
def add128 (k : Nat) : Nat := 16 * k

/-- `_mm_loadu_si128`. -/
def mmLoaduSi128 (data : Vector Byte n) (offset : Nat) : Option Block := readBlock data offset

/-- `_mm_storeu_si128`. -/
def mmStoreuSi128 (data : Vector Byte n) (offset : Nat) (v : Block) : Option (Vector Byte n) :=
  writeBlock data offset v

/-- `AESENC`: the round key comes last. -/
def mmAesencSi128 (a key : Block) : Block :=
  addRoundKey (mixColumns (subBytes (shiftRows a))) key

/-- `AESDEC`. -/
def mmAesdecSi128 (a key : Block) : Block :=
  addRoundKey (invMixColumns (invSubBytes (invShiftRows a))) key

/-- `fill_aes_1rx4_aesni`. -/
def fillAes1Rx4Aesni (state : Vector Byte 64) (output : Vector Byte n) :
    Option (Vector Byte 64 × Vector Byte n) := do
  let s0 ← mmLoaduSi128 state 0
  let s1 ← mmLoaduSi128 state 16
  let s2 ← mmLoaduSi128 state 32
  let s3 ← mmLoaduSi128 state 48
  let k0 ← mmLoaduSi128 GEN_1R_KEY0 0
  let k1 ← mmLoaduSi128 GEN_1R_KEY1 0
  let k2 ← mmLoaduSi128 GEN_1R_KEY2 0
  let k3 ← mmLoaduSi128 GEN_1R_KEY3 0
  let (Lanes.mk s0 s1 s2 s3, output) ← whileBlocks n
    (fun i (Lanes.mk s0 s1 s2 s3, output) => do
      let s0 := mmAesdecSi128 s0 k0
      let s1 := mmAesencSi128 s1 k1
      let s2 := mmAesdecSi128 s2 k2
      let s3 := mmAesencSi128 s3 k3
      let output ← mmStoreuSi128 output (add128 (i * 4)) s0
      let output ← mmStoreuSi128 output (add128 (i * 4 + 1)) s1
      let output ← mmStoreuSi128 output (add128 (i * 4 + 2)) s2
      let output ← mmStoreuSi128 output (add128 (i * 4 + 3)) s3
      return (Lanes.mk s0 s1 s2 s3, output))
    0 (Lanes.mk s0 s1 s2 s3, output)
  let state ← mmStoreuSi128 state 0 s0
  let state ← mmStoreuSi128 state 16 s1
  let state ← mmStoreuSi128 state 32 s2
  let state ← mmStoreuSi128 state 48 s3
  return (state, output)

/-- `fill_aes_4rx4_aesni`. -/
def fillAes4Rx4Aesni (state : Vector Byte 64) (output : Vector Byte n) :
    Option (Vector Byte n) := do
  let s0 ← mmLoaduSi128 state 0
  let s1 ← mmLoaduSi128 state 16
  let s2 ← mmLoaduSi128 state 32
  let s3 ← mmLoaduSi128 state 48
  let rk0 ← mmLoaduSi128 GEN_4R_KEY0 0
  let rk1 ← mmLoaduSi128 GEN_4R_KEY1 0
  let rk2 ← mmLoaduSi128 GEN_4R_KEY2 0
  let rk3 ← mmLoaduSi128 GEN_4R_KEY3 0
  let rk4 ← mmLoaduSi128 GEN_4R_KEY4 0
  let rk5 ← mmLoaduSi128 GEN_4R_KEY5 0
  let rk6 ← mmLoaduSi128 GEN_4R_KEY6 0
  let rk7 ← mmLoaduSi128 GEN_4R_KEY7 0
  let (_, output) ← whileBlocks n
    (fun i (Lanes.mk s0 s1 s2 s3, output) => do
      let s0 := mmAesdecSi128 s0 rk0
      let s1 := mmAesencSi128 s1 rk0
      let s2 := mmAesdecSi128 s2 rk4
      let s3 := mmAesencSi128 s3 rk4
      let s0 := mmAesdecSi128 s0 rk1
      let s1 := mmAesencSi128 s1 rk1
      let s2 := mmAesdecSi128 s2 rk5
      let s3 := mmAesencSi128 s3 rk5
      let s0 := mmAesdecSi128 s0 rk2
      let s1 := mmAesencSi128 s1 rk2
      let s2 := mmAesdecSi128 s2 rk6
      let s3 := mmAesencSi128 s3 rk6
      let s0 := mmAesdecSi128 s0 rk3
      let s1 := mmAesencSi128 s1 rk3
      let s2 := mmAesdecSi128 s2 rk7
      let s3 := mmAesencSi128 s3 rk7
      let output ← mmStoreuSi128 output (add128 (i * 4)) s0
      let output ← mmStoreuSi128 output (add128 (i * 4 + 1)) s1
      let output ← mmStoreuSi128 output (add128 (i * 4 + 2)) s2
      let output ← mmStoreuSi128 output (add128 (i * 4 + 3)) s3
      return (Lanes.mk s0 s1 s2 s3, output))
    0 (Lanes.mk s0 s1 s2 s3, output)
  return output

/-- `hash_aes_1rx4_aesni`. -/
def hashAes1Rx4Aesni (input : Vector Byte n) : Option (Vector Byte 64) := do
  let s0 ← mmLoaduSi128 HASH_1R_STATE0 0
  let s1 ← mmLoaduSi128 HASH_1R_STATE1 0
  let s2 ← mmLoaduSi128 HASH_1R_STATE2 0
  let s3 ← mmLoaduSi128 HASH_1R_STATE3 0
  let Lanes.mk s0 s1 s2 s3 ← whileBlocks n
    (fun i (Lanes.mk s0 s1 s2 s3) => do
      let in0 ← mmLoaduSi128 input (add128 (i * 4))
      let in1 ← mmLoaduSi128 input (add128 (i * 4 + 1))
      let in2 ← mmLoaduSi128 input (add128 (i * 4 + 2))
      let in3 ← mmLoaduSi128 input (add128 (i * 4 + 3))
      let s0 := mmAesencSi128 s0 in0
      let s1 := mmAesdecSi128 s1 in1
      let s2 := mmAesencSi128 s2 in2
      let s3 := mmAesdecSi128 s3 in3
      return Lanes.mk s0 s1 s2 s3)
    0 (Lanes.mk s0 s1 s2 s3)
  let xk0 ← mmLoaduSi128 HASH_1R_XKEY0 0
  let xk1 ← mmLoaduSi128 HASH_1R_XKEY1 0
  let s0 := mmAesencSi128 s0 xk0
  let s1 := mmAesdecSi128 s1 xk0
  let s2 := mmAesencSi128 s2 xk0
  let s3 := mmAesdecSi128 s3 xk0
  let s0 := mmAesencSi128 s0 xk1
  let s1 := mmAesdecSi128 s1 xk1
  let s2 := mmAesencSi128 s2 xk1
  let s3 := mmAesdecSi128 s3 xk1
  let out := Vector.replicate 64 0
  let out ← mmStoreuSi128 out 0 s0
  let out ← mmStoreuSi128 out 16 s1
  let out ← mmStoreuSi128 out 32 s2
  let out ← mmStoreuSi128 out 48 s3
  return out

/-- `hash_and_fill_aes_1rx4_aesni`. -/
def hashAndFillAes1Rx4Aesni (scratchpad : Vector Byte n) (hashOut fillState : Vector Byte 64) :
    Option (Vector Byte n × Vector Byte 64 × Vector Byte 64) := do
  let hs0 ← mmLoaduSi128 HASH_1R_STATE0 0
  let hs1 ← mmLoaduSi128 HASH_1R_STATE1 0
  let hs2 ← mmLoaduSi128 HASH_1R_STATE2 0
  let hs3 ← mmLoaduSi128 HASH_1R_STATE3 0
  let fs0 ← mmLoaduSi128 fillState 0
  let fs1 ← mmLoaduSi128 fillState 16
  let fs2 ← mmLoaduSi128 fillState 32
  let fs3 ← mmLoaduSi128 fillState 48
  let fk0 ← mmLoaduSi128 GEN_1R_KEY0 0
  let fk1 ← mmLoaduSi128 GEN_1R_KEY1 0
  let fk2 ← mmLoaduSi128 GEN_1R_KEY2 0
  let fk3 ← mmLoaduSi128 GEN_1R_KEY3 0
  let (Lanes.mk hs0 hs1 hs2 hs3, Lanes.mk fs0 fs1 fs2 fs3, scratchpad) ← whileBlocks n
    (fun i (Lanes.mk hs0 hs1 hs2 hs3, Lanes.mk fs0 fs1 fs2 fs3, scratchpad) => do
      let in0 ← mmLoaduSi128 scratchpad (add128 (i * 4))
      let in1 ← mmLoaduSi128 scratchpad (add128 (i * 4 + 1))
      let in2 ← mmLoaduSi128 scratchpad (add128 (i * 4 + 2))
      let in3 ← mmLoaduSi128 scratchpad (add128 (i * 4 + 3))
      let hs0 := mmAesencSi128 hs0 in0
      let hs1 := mmAesdecSi128 hs1 in1
      let hs2 := mmAesencSi128 hs2 in2
      let hs3 := mmAesdecSi128 hs3 in3
      let fs0 := mmAesdecSi128 fs0 fk0
      let fs1 := mmAesencSi128 fs1 fk1
      let fs2 := mmAesdecSi128 fs2 fk2
      let fs3 := mmAesencSi128 fs3 fk3
      let scratchpad ← mmStoreuSi128 scratchpad (add128 (i * 4)) fs0
      let scratchpad ← mmStoreuSi128 scratchpad (add128 (i * 4 + 1)) fs1
      let scratchpad ← mmStoreuSi128 scratchpad (add128 (i * 4 + 2)) fs2
      let scratchpad ← mmStoreuSi128 scratchpad (add128 (i * 4 + 3)) fs3
      return (Lanes.mk hs0 hs1 hs2 hs3, Lanes.mk fs0 fs1 fs2 fs3, scratchpad))
    0 (Lanes.mk hs0 hs1 hs2 hs3, Lanes.mk fs0 fs1 fs2 fs3, scratchpad)
  let fillState ← mmStoreuSi128 fillState 0 fs0
  let fillState ← mmStoreuSi128 fillState 16 fs1
  let fillState ← mmStoreuSi128 fillState 32 fs2
  let fillState ← mmStoreuSi128 fillState 48 fs3
  let xk0 ← mmLoaduSi128 HASH_1R_XKEY0 0
  let xk1 ← mmLoaduSi128 HASH_1R_XKEY1 0
  let hs0 := mmAesencSi128 hs0 xk0
  let hs1 := mmAesdecSi128 hs1 xk0
  let hs2 := mmAesencSi128 hs2 xk0
  let hs3 := mmAesdecSi128 hs3 xk0
  let hs0 := mmAesencSi128 hs0 xk1
  let hs1 := mmAesdecSi128 hs1 xk1
  let hs2 := mmAesencSi128 hs2 xk1
  let hs3 := mmAesdecSi128 hs3 xk1
  let hashOut ← mmStoreuSi128 hashOut 0 hs0
  let hashOut ← mmStoreuSi128 hashOut 16 hs1
  let hashOut ← mmStoreuSi128 hashOut 32 hs2
  let hashOut ← mmStoreuSi128 hashOut 48 hs3
  return (scratchpad, hashOut, fillState)

/-- `aes_mix_fe_aesni`. -/
def aesMixFeAesni (f e : Vector Block 4) : Option (Vector Block 4) := do
  let f0 ← mmLoaduSi128 f[0] 0
  let f1 ← mmLoaduSi128 f[1] 0
  let f2 ← mmLoaduSi128 f[2] 0
  let f3 ← mmLoaduSi128 f[3] 0
  let Lanes.mk f0 f1 f2 f3 ← e.toList.foldlM
    (fun (Lanes.mk f0 f1 f2 f3) keyBytes => do
      let k ← mmLoaduSi128 keyBytes 0
      let f0 := mmAesencSi128 f0 k
      let f1 := mmAesdecSi128 f1 k
      let f2 := mmAesencSi128 f2 k
      let f3 := mmAesdecSi128 f3 k
      return Lanes.mk f0 f1 f2 f3)
    (Lanes.mk f0 f1 f2 f3)
  let f := f.set 0 (← mmStoreuSi128 f[0] 0 f0)
  let f := f.set 1 (← mmStoreuSi128 f[1] 0 f1)
  let f := f.set 2 (← mmStoreuSi128 f[2] 0 f2)
  let f := f.set 3 (← mmStoreuSi128 f[3] 0 f3)
  return f

/-! ## Dispatch -/

/-- The target architecture and what the feature test for AES instructions says on it. -/
inductive Cpu where
  | aarch64 (aes : Bool)
  | x86_64 (aes : Bool)
  | other
deriving DecidableEq, Repr

/-- The branch taken on a CPU. -/
def Cpu.select {α : Type} (cpu : Cpu) (soft neon aesni : α) : α :=
  match cpu with
  | .aarch64 true => neon
  | .x86_64 true => aesni
  | _ => soft

/-- `fill_aes_1rx4` on a CPU. -/
def fillAes1Rx4On (cpu : Cpu) (state : Vector Byte 64) (output : Vector Byte n) :
    Option (Vector Byte 64 × Vector Byte n) :=
  if n % 64 = 0 then
    cpu.select (fillAes1Rx4Soft state output) (fillAes1Rx4Neon state output) (fillAes1Rx4Aesni state output)
  else none

/-- `fill_aes_4rx4` on a CPU. -/
def fillAes4Rx4On (cpu : Cpu) (state : Vector Byte 64) (output : Vector Byte n) :
    Option (Vector Byte n) :=
  if n % 64 = 0 then
    cpu.select (fillAes4Rx4Soft state output) (fillAes4Rx4Neon state output) (fillAes4Rx4Aesni state output)
  else none

/-- `hash_aes_1rx4` on a CPU. -/
def hashAes1Rx4On (cpu : Cpu) (input : Vector Byte n) :
    Option (Vector Byte 64) :=
  if n % 64 = 0 then
    cpu.select (hashAes1Rx4Soft input) (hashAes1Rx4Neon input) (hashAes1Rx4Aesni input)
  else none

/-- `hash_and_fill_aes_1rx4` on a CPU. -/
def hashAndFillAes1Rx4On (cpu : Cpu) (scratchpad : Vector Byte n) (hashOut fillState : Vector Byte 64) :
    Option (Vector Byte n × Vector Byte 64 × Vector Byte 64) :=
  if n % 64 = 0 then
    cpu.select (hashAndFillAes1Rx4Soft scratchpad hashOut fillState)
      (hashAndFillAes1Rx4Neon scratchpad hashOut fillState)
      (hashAndFillAes1Rx4Aesni scratchpad hashOut fillState)
  else none

/-- `aes_mix_fe` on a CPU. -/
def aesMixFeOn (cpu : Cpu) (f e : Vector Block 4) : Option (Vector Block 4) :=
  cpu.select (aesMixFeSoft f e) (aesMixFeNeon f e) (aesMixFeAesni f e)

/-- The f-registers as lanes. -/
def lanesOf (f : Vector Block 4) : Lanes := ⟨f[0], f[1], f[2], f[3]⟩

/-- Storing the four lanes over the f-registers. -/
theorem set_lanes (f : Vector Block 4) (s : Lanes) :
    lanesOf ((((f.set 0 s.s0).set 1 s.s1).set 2 s.s2).set 3 s.s3) = s := by
  simp [lanesOf]

end RandomX
end MinerTim
