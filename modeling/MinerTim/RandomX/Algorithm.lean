import MinerTim.Lib.Refinement
import MinerTim.RandomX.Aes
import MinerTim.RandomX.Dataset
import MinerTim.RandomX.Isa

/-!
# `RandomX.Algorithm` — what a RandomX hash is

The hash function over the abstract machine of `RandomX.Isa`, stated without reference to how `vm.rs` computes it:

* a generator is a stream of bytes, and a program and its parameters are read off one (`quad`, `configuration`,
  `instructions`);
* an iteration loads two blocks of the memory, runs the program, reads a dataset item and stores two blocks
  (`Iteration`);
* a program is 2048 iterations (`RunsProgram`), a hash the AES hash of the memory after eight programs, each
  generated from the registers that the one before it left (`IsHash`).

Addresses and parameters are numbers: a block is chosen by a quotient and a remainder, the fields of a double are
summed. The dataset is a partial function on item numbers.
-/

namespace MinerTim
namespace RandomX
namespace Algorithm

open Isa Refinement

/-! ## Blocks of the memory -/

/-- The number of blocks of eight doublewords. -/
abbrev MEMORY_BLOCKS : Nat := MEMORY_WORDS / 8

/-- Doubleword `k` of block `b`. -/
def word (b : Fin MEMORY_BLOCKS) (k : Fin 8) : Fin MEMORY_WORDS :=
  ⟨8 * b + k, by
    have h : 8 * MEMORY_BLOCKS = MEMORY_WORDS := by decide
    omega⟩

/-- The block at a byte address: addresses wrap around and are rounded down. -/
def blockAt (addr : BitVec 32) : Fin MEMORY_BLOCKS := ⟨addr.toNat / 64 % MEMORY_BLOCKS, Nat.mod_lt _ (by decide)⟩

/-- Overwrite a block. -/
def setBlock (b : Fin MEMORY_BLOCKS) (v : Fin 8 → Word) (s : State) : State :=
  { s with mem := fun w => if w.val / 8 = b.val then v ⟨w.val % 8, Nat.mod_lt _ (by decide)⟩ else s.mem w }

/-! ## Streams -/

/-- The bytes a generator writes from a seed: row `q` is the `q + 1`-st iterate of its round. -/
def stream (round : Lanes → Lanes) (seed : Lanes) (i : Nat) : Byte := (round^[i / 64 + 1] seed).byte (i % 64)

/-- Doubleword `i` of a stream. -/
def quad (g : Nat → Byte) (i : Nat) : Word := leWord fun k => g (8 * i + k)

/-! ## The parameters of a program -/

section

variable (g : Nat → Byte)

/-- A double of at least 1: five bits of exponent, 52 of mantissa. -/
def smallPositive (q : Word) : Word := BitVec.ofNat 64 ((1023 + q.toNat / 2 ^ 59) * 2 ^ 52 + q.toNat % 2 ^ 52)

/-- What is laid over the doubles of group `e`: four bits of exponent over `0x300`, 22 bits of mantissa. -/
def exponentMask (q : Word) : Word := BitVec.ofNat 64 ((0x300 + 16 * (q.toNat / 2 ^ 60)) * 2 ^ 52 + q.toNat % 2 ^ 22)

/-- One of two registers, for each of the four address registers. -/
def addressRegister (i : Nat) : Fin 8 := ⟨(2 * i + (quad g 12).toNat / 2 ^ i % 2) % 8, Nat.mod_lt _ (by decide)⟩

/-- The configuration of a program. -/
def configuration : ProgramConfiguration where
  eMask := #v[exponentMask (quad g 14), exponentMask (quad g 15)]
  readReg0 := addressRegister g 0
  readReg1 := addressRegister g 1
  readReg2 := addressRegister g 2
  readReg3 := addressRegister g 3

/-- The constants of a program, in group `a`. -/
def constants (i : Fin 4) : F128 := (smallPositive (quad g (2 * i)), smallPositive (quad g (2 * i + 1)))

/-- The dataset item that item numbers are counted from. -/
def firstItem : Nat := (quad g 13).toNat % 524288

/-- The text of a program: instructions of eight bytes after the sixteen doublewords of the parameters. -/
def instructions (count : Nat) : Program :=
  (List.range count).map fun i => RawInstruction.fromBytes fun k => g (128 + 8 * i + k)

end

/-! ## An iteration -/

/-- What is carried from one iteration to the next: the addresses of a dataset item and of the item after it, and
    an offset for each of the two block addresses. -/
structure Pointers where
  ma : BitVec 32
  mx : BitVec 32
  sp₀ : BitVec 32
  sp₁ : BitVec 32

/-- Before the first iteration. -/
def Pointers.init (g : Nat → Byte) : Pointers :=
  let ma := BitVec.ofNat 32 ((quad g 8).toNat % 2 ^ 31 / 64 * 64)
  let mx := BitVec.ofNat 32 (quad g 10).toNat
  ⟨ma, mx, mx, ma⟩

/-- The two integers of a doubleword, converted. -/
def ints (fp : FpUnit) (ctl : BitVec 32) (w : Word) : F128 :=
  (fp.ofI32 ctl (w.setWidth 32), fp.ofI32 ctl ((w >>> 32).setWidth 32))

/-- A pair of doubles as an AES block. -/
def bytesOf (x : F128) : Block := Vector.ofFn fun k => byteOf (if k.val < 8 then x.1 else x.2) (k % 8)

/-- An AES block as a pair of doubles. -/
def pairOf (b : Block) : F128 := (leWord fun k => byteAt b k, leWord fun k => byteAt b (8 + k))

/-- The doublewords of four pairs. -/
def pairWord (x : Fin 4 → F128) (k : Fin 8) : Word :=
  if k.val % 2 = 0 then (x ⟨k / 2, by omega⟩).1 else (x ⟨k / 2, by omega⟩).2

section

variable (fp : FpUnit) (aes : AesRounds) (version : RxVersion) (dataset : Nat → Option Line) (g : Nat → Byte)

/-- The two blocks of an iteration. -/
def blocks (s : State) (p : Pointers) : Fin MEMORY_BLOCKS × Fin MEMORY_BLOCKS :=
  let mix := s.r (addressRegister g 0) ^^^ s.r (addressRegister g 1)
  (blockAt (p.sp₀ ^^^ mix.setWidth 32), blockAt (p.sp₁ ^^^ (mix >>> 32).setWidth 32))

/-- The start of an iteration: the integer registers take the first block in, the floating-point registers the
    integers of the second. -/
def load (b : Fin MEMORY_BLOCKS × Fin MEMORY_BLOCKS) (s : State) : State :=
  { s with
    r := fun i => s.r i ^^^ s.mem (word b.1 i)
    f := fun i => ints fp s.ctl (s.mem (word b.2 (Fin.castAdd 4 i)))
    e := fun i =>
      maskRegisterExponentMantissa (configuration g) (ints fp s.ctl (s.mem (word b.2 (Fin.natAdd 4 i)))) }

/-- The item of an iteration. -/
def item (p : Pointers) : Nat := firstItem g + p.ma.toNat % 2 ^ 31 / 64

/-- The lane of group `f` with the lanes of group `e` as round keys: the even lanes are encrypted, the odd ones
    decrypted. -/
def mix (e : Fin 4 → F128) (i : Fin 4) (x : Block) : Block :=
  (List.ofFn e).foldl (fun x key => if i.val % 2 = 0 then aes.enc x (bytesOf key) else aes.dec x (bytesOf key)) x

/-- The combination of the two groups. -/
def combine (s : State) : State :=
  match version with
  | .V1 => { s with f := fun i => lanes (· ^^^ ·) (s.f i) (s.e i) }
  | .V2 => { s with f := fun i => pairOf (mix aes s.e i (bytesOf (s.f i))) }

/-- The end of an iteration: the integer registers take the dataset item in and are stored to the second block,
    group `f` takes group `e` in and is stored to the first. -/
def store (b : Fin MEMORY_BLOCKS × Fin MEMORY_BLOCKS) (line : Line) (s : State) : State :=
  let s := { s with r := fun i => s.r i ^^^ line.get i }
  let s := combine aes version (setBlock b.2 s.r s)
  setBlock b.1 (pairWord s.f) s

/-- The pointers of the next iteration, from the registers at the end of the program. -/
def next (s : State) (p : Pointers) : Pointers :=
  let mix := (s.r (addressRegister g 2) ^^^ s.r (addressRegister g 3)).setWidth 32
  match version with
  | .V1 => ⟨p.mx ^^^ mix, p.ma, 0, 0⟩
  | .V2 => ⟨p.mx, p.ma ^^^ mix, 0, 0⟩

/-- **One iteration.** -/
inductive Iteration : State × Pointers → State × Pointers → Prop where
  | intro {s t : State} {p : Pointers} {line : Line} :
      Halts fp (configuration g) version (instructions g version.programSize) (load fp g (blocks g s p) s) t →
      dataset (item g p) = some line →
      Iteration (s, p) (store aes version (blocks g s p) line t, next version g t p)

/-! ## Programs -/

/-- The machine at the start of a program: integer registers zero, constants in group `a`. -/
def enter (s : State) : State := { s with r := fun _ => 0, a := constants g }

/-- The program read off the stream takes `s` to `t`. -/
def RunsProgram (s t : State) : Prop :=
  ∃ p, Times (Iteration fp aes version dataset g) 2048 (enter g s, Pointers.init g) (t, p)

end

/-! ## The hash -/

/-- The registers as bytes: doublewords, little-endian. -/
def registerBytes (s : State) : List Byte :=
  (List.ofFn s.r ++ (List.ofFn (pairWord s.f) ++ (List.ofFn (pairWord s.e) ++ List.ofFn (pairWord s.a)))).flatMap
    fun w => (List.range 8).map (byteOf w)

/-- The bytes of a block. -/
def blockBytes (mem : Fin MEMORY_WORDS → Word) (b : Fin MEMORY_BLOCKS) : Vector Byte 64 :=
  Vector.ofFn fun k => byteOf (mem (word b ⟨k / 8 % 8, Nat.mod_lt _ (by decide)⟩)) (k % 8)

/-- A block of the memory as four AES blocks. -/
def row (mem : Fin MEMORY_WORDS → Word) (b : Fin MEMORY_BLOCKS) : Lanes := .load (blockBytes mem b) 0

/-- The AES hash of the memory: its blocks are the round keys, in order. -/
def memoryHash (aes : AesRounds) (mem : Fin MEMORY_WORDS → Word) : Lanes :=
  hashFinal aes ((List.ofFn (row mem)).foldl (hashRow aes) hashInit)

/-- Four AES blocks as register values. -/
def laneValues (l : Lanes) : Fin 4 → F128 :=
  fun i => pairOf (#v[l.s0, l.s1, l.s2, l.s3].get i)

section

variable (fp : FpUnit) (aes : AesRounds) (blake2b512 : List Byte → Vector Byte 64)
  (blake2b256 : List Byte → Vector Byte 32) (version : RxVersion) (dataset : Nat → Option Line)

/-- The seed that a digest is. -/
def seedOf (digest : Vector Byte 64) : Lanes := .load digest 0

/-- `n` programs take the machine from `s` to `t`, the first of them generated from `seed` and every later one from
    the registers that the one before it left. -/
inductive RunsPrograms : (n : Nat) → (seed : Lanes) → (s t : State) → Prop where
  | last {seed : Lanes} {s t : State} : RunsProgram fp aes version dataset (stream (round4R aes) seed) s t →
      RunsPrograms 1 seed s t
  | next {n : Nat} {seed : Lanes} {s t u : State} :
      RunsProgram fp aes version dataset (stream (round4R aes) seed) s t →
      RunsPrograms n (seedOf (blake2b512 (registerBytes t))) t u → RunsPrograms (n + 1) seed s u

/-- The machine before the first program: the memory is filled from the digest of the input. -/
def initial (ctl : BitVec 32) (input : List Byte) : State where
  r := fun _ => 0
  f := fun _ => (0, 0)
  e := fun _ => (0, 0)
  a := fun _ => (0, 0)
  mem w := quad (stream (round1R aes) (seedOf (blake2b512 input))) w
  ctl := fp.setRoundingMode ctl 0

/-- The seed of the first program: the state in which the generator leaves the memory. -/
def firstSeed (input : List Byte) : Lanes := (round1R aes)^[MEMORY_BLOCKS] (seedOf (blake2b512 input))

/-- **The RandomX hash of an input**, on a dataset. -/
def IsHash (ctl : BitVec 32) (input : List Byte) (hash : Vector Byte 32) : Prop :=
  ∃ t, RunsPrograms fp aes blake2b512 version dataset 8 (firstSeed aes blake2b512 input)
      (initial fp aes blake2b512 ctl input) t ∧
    hash = blake2b256 (registerBytes { t with a := laneValues (memoryHash aes t.mem) })

end

end Algorithm
end RandomX
end MinerTim
