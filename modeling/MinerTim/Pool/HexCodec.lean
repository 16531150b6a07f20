import MinerTim.Pool.Login

/-!
# `Pool.HexCodec` — the hex codec of `hex.rs` is exact

`hex_decode` reads text from the pool. `hex_codec_exact` says of every string what it returns, and that
it returns: decoding undoes encoding, exactly the strings of an even number of hex digits are decoded,
and encoding gives them back in lower case.
-/

namespace MinerTim
namespace Pool

open Miner

/-- `0`-`9`, `a`-`f`, `A`-`F`. -/
def IsHexDigit (c : Char) : Prop :=
  ('0' ≤ c ∧ c ≤ '9') ∨ ('a' ≤ c ∧ c ≤ 'f') ∨ ('A' ≤ c ∧ c ≤ 'F')

theorem isHexDigit_iff (c : Char) : IsHexDigit c ↔ (48 ≤ c.toNat ∧ c.toNat ≤ 57)
    ∨ (97 ≤ c.toNat ∧ c.toNat ≤ 102) ∨ (65 ≤ c.toNat ∧ c.toNat ≤ 70) := by
  simp only [IsHexDigit, Char.le_def, UInt32.le_iff_toNat_le]
  rfl

theorem isSome_hexValue (c : Char) : (hexValue c).isSome ↔ IsHexDigit c := by
  rw [isHexDigit_iff, hexValue_eq]
  split_ifs <;> simp_all

/-- The characters that are decoded. -/
theorem isSome_hexChars (l : List Char) :
    (hexChars l).isSome ↔ l.length % 2 = 0 ∧ ∀ c ∈ l, IsHexDigit c := by
  induction l using hexChars.induct with
  | case1 => simp [hexChars]
  | case2 c => simp [hexChars]
  | case3 c c' l ih =>
    rw [List.forall_mem_cons, List.forall_mem_cons, ← isSome_hexValue, ← isSome_hexValue, hexChars,
      List.length_cons, List.length_cons, show (l.length + 1 + 1) % 2 = l.length % 2 by omega,
      show (l.length % 2 = 0 ∧ (hexValue c).isSome = true ∧ (hexValue c').isSome = true
          ∧ ∀ d ∈ l, IsHexDigit d) ↔ ((hexValue c).isSome = true ∧ (hexValue c').isSome = true
          ∧ l.length % 2 = 0 ∧ ∀ d ∈ l, IsHexDigit d) by tauto, ← ih]
    cases hexValue c <;> cases hexValue c' <;> cases hexChars l <;> simp

/-- A digit that `hex_encode` writes is lower case. -/
theorem toLower_hexDigit : ∀ d < 16, (hexDigit d).toLower = hexDigit d := by
  decide

theorem map_toLower_hexEncode (bytes : List Byte) :
    (hexEncode bytes).toList.map Char.toLower = (hexEncode bytes).toList := by
  rw [hexEncode, String.toList_ofList]
  induction bytes with
  | nil => rfl
  | cons b bytes ih =>
    rw [List.flatMap_cons, List.map_append, ih, List.map_cons, List.map_cons, List.map_nil,
      toLower_hexDigit _ (by omega), toLower_hexDigit _ (by omega)]

/-- **The hex codec is exact.** `hex_decode` undoes `hex_encode`, panics on no string, accepts exactly
    the strings of an even number of ASCII hex digits, and `hex_encode` of what it returns is the string
    in lower case. -/
theorem hex_codec_exact :
    (∀ bytes, hexDecodeIndexed (hexEncode bytes) = some (some bytes))
      ∧ ∀ s, ∃ result, hexDecodeIndexed s = some result
        ∧ (result.isSome ↔ s.toList.length % 2 = 0 ∧ ∀ c ∈ s.toList, IsHexDigit c)
        ∧ ∀ bytes, result = some bytes → hexEncode bytes = s.toLower := by
  refine ⟨fun bytes => ?_, fun s => ⟨hexDecode s, hexDecodeIndexed_eq s, ?_, fun bytes h => ?_⟩⟩
  · rw [hexDecodeIndexed_eq, (hexDecode_eq_some_iff _ _).mpr (map_toLower_hexEncode bytes)]
  · rw [hexDecode_eq_hexChars]
    exact isSome_hexChars s.toList
  · have hlower := (hexDecode_eq_some_iff s bytes).mp h
    rw [← String.toList_inj, ← hlower]
    exact (String.toList_map (f := Char.toLower)).symm

end Pool
end MinerTim
