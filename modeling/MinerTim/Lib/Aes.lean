import MinerTim.Lib.LittleEndian

/-!
# `Lib.Aes` — one round of the Advanced Encryption Standard

Generic support: the byte field, the substitution box and the four transformations of a round, in the
standard's own algebraic terms. The state is a vector of sixteen bytes, column by column, so that row
`r` of column `c` is byte `4 * c + r`.

`encRound` and `decRound` are a middle round of the cipher and of its equivalent inverse. What an
implementation is compared with is `byteAt_encRound` and `byteAt_decRound`: every byte of a round as a
combination of four substituted bytes.
-/

namespace MinerTim
namespace Aes

/-- The state of the cipher. -/
abbrev State := Vector Byte 16

/-! ## The field of 256 elements -/

/-- Multiplication by `x`, modulo `x⁸ + x⁴ + x³ + x + 1`. -/
def xtime (b : Byte) : Byte := b <<< 1 ^^^ (if b.msb then 0x1b else 0)

/-- The product of `b` with a polynomial `a` of degree below `n`. -/
def mulBits (b : Byte) : (n : Nat) → (a : Byte) → Byte
  | 0, _ => 0
  | n + 1, a =>
    if a = 0 then 0 else (if a.getLsbD 0 then b else 0) ^^^ xtime (mulBits b n (a >>> 1))

/-- The product in the field. -/
def mul (a b : Byte) : Byte := mulBits b 8 a

/-! ## The substitution box -/

set_option maxRecDepth 2000 in
/-- The table of the standard. -/
def SBOX : Vector Byte 256 :=
  #v[
    0x63, 0x7c, 0x77, 0x7b, 0xf2, 0x6b, 0x6f, 0xc5, 0x30, 0x01, 0x67, 0x2b, 0xfe, 0xd7, 0xab, 0x76,
    0xca, 0x82, 0xc9, 0x7d, 0xfa, 0x59, 0x47, 0xf0, 0xad, 0xd4, 0xa2, 0xaf, 0x9c, 0xa4, 0x72, 0xc0,
    0xb7, 0xfd, 0x93, 0x26, 0x36, 0x3f, 0xf7, 0xcc, 0x34, 0xa5, 0xe5, 0xf1, 0x71, 0xd8, 0x31, 0x15,
    0x04, 0xc7, 0x23, 0xc3, 0x18, 0x96, 0x05, 0x9a, 0x07, 0x12, 0x80, 0xe2, 0xeb, 0x27, 0xb2, 0x75,
    0x09, 0x83, 0x2c, 0x1a, 0x1b, 0x6e, 0x5a, 0xa0, 0x52, 0x3b, 0xd6, 0xb3, 0x29, 0xe3, 0x2f, 0x84,
    0x53, 0xd1, 0x00, 0xed, 0x20, 0xfc, 0xb1, 0x5b, 0x6a, 0xcb, 0xbe, 0x39, 0x4a, 0x4c, 0x58, 0xcf,
    0xd0, 0xef, 0xaa, 0xfb, 0x43, 0x4d, 0x33, 0x85, 0x45, 0xf9, 0x02, 0x7f, 0x50, 0x3c, 0x9f, 0xa8,
    0x51, 0xa3, 0x40, 0x8f, 0x92, 0x9d, 0x38, 0xf5, 0xbc, 0xb6, 0xda, 0x21, 0x10, 0xff, 0xf3, 0xd2,
    0xcd, 0x0c, 0x13, 0xec, 0x5f, 0x97, 0x44, 0x17, 0xc4, 0xa7, 0x7e, 0x3d, 0x64, 0x5d, 0x19, 0x73,
    0x60, 0x81, 0x4f, 0xdc, 0x22, 0x2a, 0x90, 0x88, 0x46, 0xee, 0xb8, 0x14, 0xde, 0x5e, 0x0b, 0xdb,
    0xe0, 0x32, 0x3a, 0x0a, 0x49, 0x06, 0x24, 0x5c, 0xc2, 0xd3, 0xac, 0x62, 0x91, 0x95, 0xe4, 0x79,
    0xe7, 0xc8, 0x37, 0x6d, 0x8d, 0xd5, 0x4e, 0xa9, 0x6c, 0x56, 0xf4, 0xea, 0x65, 0x7a, 0xae, 0x08,
    0xba, 0x78, 0x25, 0x2e, 0x1c, 0xa6, 0xb4, 0xc6, 0xe8, 0xdd, 0x74, 0x1f, 0x4b, 0xbd, 0x8b, 0x8a,
    0x70, 0x3e, 0xb5, 0x66, 0x48, 0x03, 0xf6, 0x0e, 0x61, 0x35, 0x57, 0xb9, 0x86, 0xc1, 0x1d, 0x9e,
    0xe1, 0xf8, 0x98, 0x11, 0x69, 0xd9, 0x8e, 0x94, 0x9b, 0x1e, 0x87, 0xe9, 0xce, 0x55, 0x28, 0xdf,
    0x8c, 0xa1, 0x89, 0x0d, 0xbf, 0xe6, 0x42, 0x68, 0x41, 0x99, 0x2d, 0x0f, 0xb0, 0x54, 0xbb, 0x16]

set_option maxRecDepth 2000 in
/-- The inverse table of the standard. -/
def INV_SBOX : Vector Byte 256 :=
  #v[
    0x52, 0x09, 0x6a, 0xd5, 0x30, 0x36, 0xa5, 0x38, 0xbf, 0x40, 0xa3, 0x9e, 0x81, 0xf3, 0xd7, 0xfb,
    0x7c, 0xe3, 0x39, 0x82, 0x9b, 0x2f, 0xff, 0x87, 0x34, 0x8e, 0x43, 0x44, 0xc4, 0xde, 0xe9, 0xcb,
    0x54, 0x7b, 0x94, 0x32, 0xa6, 0xc2, 0x23, 0x3d, 0xee, 0x4c, 0x95, 0x0b, 0x42, 0xfa, 0xc3, 0x4e,
    0x08, 0x2e, 0xa1, 0x66, 0x28, 0xd9, 0x24, 0xb2, 0x76, 0x5b, 0xa2, 0x49, 0x6d, 0x8b, 0xd1, 0x25,
    0x72, 0xf8, 0xf6, 0x64, 0x86, 0x68, 0x98, 0x16, 0xd4, 0xa4, 0x5c, 0xcc, 0x5d, 0x65, 0xb6, 0x92,
    0x6c, 0x70, 0x48, 0x50, 0xfd, 0xed, 0xb9, 0xda, 0x5e, 0x15, 0x46, 0x57, 0xa7, 0x8d, 0x9d, 0x84,
    0x90, 0xd8, 0xab, 0x00, 0x8c, 0xbc, 0xd3, 0x0a, 0xf7, 0xe4, 0x58, 0x05, 0xb8, 0xb3, 0x45, 0x06,
    0xd0, 0x2c, 0x1e, 0x8f, 0xca, 0x3f, 0x0f, 0x02, 0xc1, 0xaf, 0xbd, 0x03, 0x01, 0x13, 0x8a, 0x6b,
    0x3a, 0x91, 0x11, 0x41, 0x4f, 0x67, 0xdc, 0xea, 0x97, 0xf2, 0xcf, 0xce, 0xf0, 0xb4, 0xe6, 0x73,
    0x96, 0xac, 0x74, 0x22, 0xe7, 0xad, 0x35, 0x85, 0xe2, 0xf9, 0x37, 0xe8, 0x1c, 0x75, 0xdf, 0x6e,
    0x47, 0xf1, 0x1a, 0x71, 0x1d, 0x29, 0xc5, 0x89, 0x6f, 0xb7, 0x62, 0x0e, 0xaa, 0x18, 0xbe, 0x1b,
    0xfc, 0x56, 0x3e, 0x4b, 0xc6, 0xd2, 0x79, 0x20, 0x9a, 0xdb, 0xc0, 0xfe, 0x78, 0xcd, 0x5a, 0xf4,
    0x1f, 0xdd, 0xa8, 0x33, 0x88, 0x07, 0xc7, 0x31, 0xb1, 0x12, 0x10, 0x59, 0x27, 0x80, 0xec, 0x5f,
    0x60, 0x51, 0x7f, 0xa9, 0x19, 0xb5, 0x4a, 0x0d, 0x2d, 0xe5, 0x7a, 0x9f, 0x93, 0xc9, 0x9c, 0xef,
    0xa0, 0xe0, 0x3b, 0x4d, 0xae, 0x2a, 0xf5, 0xb0, 0xc8, 0xeb, 0xbb, 0x3c, 0x83, 0x53, 0x99, 0x61,
    0x17, 0x2b, 0x04, 0x7e, 0xba, 0x77, 0xd6, 0x26, 0xe1, 0x69, 0x14, 0x63, 0x55, 0x21, 0x0c, 0x7d]

/-- The S-box. -/
def sbox (b : Byte) : Byte := byteAt SBOX b.toNat

/-- Its inverse. -/
def invSbox (b : Byte) : Byte := byteAt INV_SBOX b.toNat

/-- The inverse of the affine map of the substitution box. -/
def invAffine (b : Byte) : Byte := b.rotateLeft 1 ^^^ b.rotateLeft 3 ^^^ b.rotateLeft 6 ^^^ 0x05

/-- One of two bytes is the field's inverse of the other, `0` counting as the inverse of `0`. -/
def Inverse (a b : Byte) : Prop := a = 0 ∧ b = 0 ∨ mul a b = 1

instance (a b : Byte) : Decidable (Inverse a b) := inferInstanceAs (Decidable (_ ∨ _))

-- the tables are the affine map after the inverse, and the inverse after the inverse affine map
example : ∀ p ∈ SBOX.toList.zipIdx, Inverse (BitVec.ofNat 8 p.2) (invAffine p.1) := by
  decide +kernel

example : ∀ p ∈ INV_SBOX.toList.zipIdx, Inverse p.1 (invAffine (BitVec.ofNat 8 p.2)) := by
  decide +kernel

/-! ## The transformations of a round -/

/-- Row `r` of column `c`; columns are counted modulo four. -/
def cell (s : State) (r c : Nat) : Byte := byteAt s (4 * (c % 4) + r)

/-- `SubBytes`. -/
def subBytes (s : State) : State := s.map sbox

/-- `InvSubBytes`. -/
def invSubBytes (s : State) : State := s.map invSbox

/-- Row `r` moves `r` places to the left. -/
def shiftRows (s : State) : State := Vector.ofFn fun i => cell s (i % 4) (i / 4 + i % 4)

/-- Row `r` moves `r` places to the right. -/
def invShiftRows (s : State) : State := Vector.ofFn fun i => cell s (i % 4) (i / 4 + (4 - i % 4))

/-- Row `r` of the product of a column `b` with the circulant matrix whose first row is `m`. -/
def mixByte (m : Vector Byte 4) (b : Nat → Byte) (r : Nat) : Byte :=
  mul (byteAt m ((4 - r) % 4)) (b 0) ^^^ mul (byteAt m ((5 - r) % 4)) (b 1)
    ^^^ mul (byteAt m ((6 - r) % 4)) (b 2) ^^^ mul (byteAt m ((7 - r) % 4)) (b 3)

/-- The first row of the matrix of `MixColumns`. -/
def mixRow : Vector Byte 4 := #v[2, 3, 1, 1]

/-- The first row of the matrix of `InvMixColumns`. -/
def invMixRow : Vector Byte 4 := #v[0x0e, 0x0b, 0x0d, 0x09]

/-- Every column multiplied by the circulant matrix of a row. -/
def mixColumnsWith (m : Vector Byte 4) (s : State) : State :=
  Vector.ofFn fun i => mixByte m (fun k => cell s k (i / 4)) (i % 4)

/-- `MixColumns`. -/
def mixColumns (s : State) : State := mixColumnsWith mixRow s

/-- `InvMixColumns`. -/
def invMixColumns (s : State) : State := mixColumnsWith invMixRow s

/-- Bytewise exclusive or. -/
def addRoundKey (s key : State) : State := Vector.zipWith (· ^^^ ·) s key

/-- A middle round of the cipher. -/
def encRound (s key : State) : State := addRoundKey (mixColumns (shiftRows (subBytes s))) key

/-- A middle round of the equivalent inverse cipher. -/
def decRound (s key : State) : State :=
  addRoundKey (invMixColumns (invShiftRows (invSubBytes s))) key

/-! ## Laws -/

theorem byteAt_map (f : Byte → Byte) (s : State) {i : Nat} (h : i < 16) :
    byteAt (s.map f) i = f (byteAt s i) := by
  rw [byteAt_eq_getElem _ h, byteAt_eq_getElem _ h, Vector.getElem_map]

theorem cell_map (f : Byte → Byte) (s : State) {r : Nat} (c : Nat) (hr : r < 4) :
    cell (s.map f) r c = f (cell s r c) :=
  byteAt_map f s (by omega)

theorem byteAt_addRoundKey (s key : State) {i : Nat} (h : i < 16) :
    byteAt (addRoundKey s key) i = byteAt s i ^^^ byteAt key i := by
  rw [byteAt_eq_getElem _ h, byteAt_eq_getElem _ h, byteAt_eq_getElem _ h, addRoundKey,
    Vector.getElem_zipWith]

/-- The zero key adds nothing. -/
@[simp] theorem addRoundKey_zero (s : State) : addRoundKey s (Vector.replicate 16 0) = s := by
  refine eq_of_byteAt fun i hi => ?_
  rw [byteAt_addRoundKey _ _ hi, byteAt_eq_getElem (Vector.replicate 16 0) hi, Vector.getElem_replicate]
  exact BitVec.xor_zero

/-- Moving bytes and substituting them commute. -/
theorem subBytes_shiftRows (s : State) : subBytes (shiftRows s) = shiftRows (subBytes s) := by
  refine Vector.ext fun i hi => ?_
  simp only [subBytes, shiftRows, Vector.getElem_map, Vector.getElem_ofFn]
  exact (cell_map _ _ _ (by omega)).symm

theorem invSubBytes_invShiftRows (s : State) :
    invSubBytes (invShiftRows s) = invShiftRows (invSubBytes s) := by
  refine Vector.ext fun i hi => ?_
  simp only [invSubBytes, invShiftRows, Vector.getElem_map, Vector.getElem_ofFn]
  exact (cell_map _ _ _ (by omega)).symm

theorem byteAt_mixColumnsWith (m : Vector Byte 4) (s : State) {r c : Nat} (hr : r < 4) (hc : c < 4) :
    byteAt (mixColumnsWith m s) (4 * c + r) = mixByte m (fun k => cell s k c) r := by
  rw [byteAt_eq_getElem _ (by omega), mixColumnsWith, Vector.getElem_ofFn]
  simp only [show (4 * c + r) / 4 = c by omega, show (4 * c + r) % 4 = r by omega]

theorem cell_shiftRows (s : State) {r c : Nat} (hr : r < 4) (hc : c < 4) :
    cell (shiftRows s) r c = cell s r (c + r) := by
  rw [cell, Nat.mod_eq_of_lt hc, byteAt_eq_getElem _ (by omega), shiftRows, Vector.getElem_ofFn]
  simp only [show (4 * c + r) / 4 = c by omega, show (4 * c + r) % 4 = r by omega]

theorem cell_invShiftRows (s : State) {r c : Nat} (hr : r < 4) (hc : c < 4) :
    cell (invShiftRows s) r c = cell s r (c + (4 - r)) := by
  rw [cell, Nat.mod_eq_of_lt hc, byteAt_eq_getElem _ (by omega), invShiftRows, Vector.getElem_ofFn]
  simp only [show (4 * c + r) / 4 = c by omega, show (4 * c + r) % 4 = r by omega]

theorem mixByte_congr (m : Vector Byte 4) {b b' : Nat → Byte} (r : Nat) (h : ∀ k < 4, b k = b' k) :
    mixByte m b r = mixByte m b' r := by
  rw [mixByte, mixByte, h 0 (by decide), h 1 (by decide), h 2 (by decide), h 3 (by decide)]

/-- **A byte of an encryption round.** -/
theorem byteAt_encRound (s key : State) {r c : Nat} (hr : r < 4) (hc : c < 4) :
    byteAt (encRound s key) (4 * c + r)
      = mixByte mixRow (fun k => sbox (cell s k (c + k))) r ^^^ byteAt key (4 * c + r) := by
  rw [encRound, byteAt_addRoundKey _ _ (by omega), mixColumns, byteAt_mixColumnsWith _ _ hr hc]
  refine congrArg (· ^^^ _) (mixByte_congr _ _ fun k hk => ?_)
  rw [cell_shiftRows _ hk hc, subBytes, cell_map _ _ _ hk]

/-- **A byte of a decryption round.** -/
theorem byteAt_decRound (s key : State) {r c : Nat} (hr : r < 4) (hc : c < 4) :
    byteAt (decRound s key) (4 * c + r)
      = mixByte invMixRow (fun k => invSbox (cell s k (c + (4 - k)))) r ^^^ byteAt key (4 * c + r) := by
  rw [decRound, byteAt_addRoundKey _ _ (by omega), invMixColumns, byteAt_mixColumnsWith _ _ hr hc]
  refine congrArg (· ^^^ _) (mixByte_congr _ _ fun k hk => ?_)
  rw [cell_invShiftRows _ hk hc, invSubBytes, cell_map _ _ _ hk]

end Aes
end MinerTim
