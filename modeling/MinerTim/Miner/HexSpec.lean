import MinerTim.Miner.Share

/-!
# `Miner.HexSpec` — what a hex string says

`hex_decode` works on the UTF-8 bytes of a string and reads digits of both cases. `hexDecode_eq_some_iff` says in
terms of characters when it returns which bytes: when the string, in lower case, is their hex encoding. A character
outside ASCII is two bytes or more, the first of which is no digit.
-/

namespace MinerTim
namespace Miner

/-- The bytes that `hex_decode` reads. -/
def utf8Bytes (s : String) : List Byte := s.toUTF8.data.toList.map (·.toBitVec)

theorem utf8Bytes_cons (c : Char) (l : List Char) : utf8Bytes (String.ofList (c :: l))
    = (String.utf8EncodeChar c).map (·.toBitVec) ++ utf8Bytes (String.ofList l) := by
  simp only [utf8Bytes, String.toUTF8_eq_toByteArray, String.toByteArray_ofList]
  rw [List.utf8Encode_cons, List.utf8Encode_singleton, ← List.map_append]
  simp

theorem utf8Bytes_nil : utf8Bytes (String.ofList []) = [] := by
  simp [utf8Bytes]

/-- The value of a character as a hex digit. -/
def hexValue (c : Char) : Option Byte := if c.toNat < 128 then nibble (BitVec.ofNat 8 c.toNat) else none

theorem nibble_of_le {b : Byte} (h : 128 ≤ b.toNat) : nibble b = none := by
  unfold nibble
  dsimp only
  rw [if_neg (by omega), if_neg (by omega), if_neg (by omega)]

theorem utf8EncodeChar_ascii {c : Char} (h : c.toNat < 128) :
    (String.utf8EncodeChar c).map (·.toBitVec) = [BitVec.ofNat 8 c.toNat] := by
  have hv : c.val.toNat ≤ 0x7f := Nat.le_of_lt_succ h
  unfold String.utf8EncodeChar
  dsimp only
  rw [if_pos hv]
  rfl

/-- A character outside ASCII starts with a byte that is no digit, and is not its only one. -/
theorem exists_utf8EncodeChar {c : Char} (h : ¬ c.toNat < 128) :
    ∃ b b' bytes, (String.utf8EncodeChar c).map (·.toBitVec) = b :: b' :: bytes ∧ nibble b = none := by
  have hv : ¬ c.val.toNat ≤ 0x7f := fun hle => h (Nat.lt_succ_of_le hle)
  have hbyte : ∀ x, 128 ≤ x → x < 256 → nibble (UInt8.ofNat x).toBitVec = none := by
    intro x hx hx'
    refine nibble_of_le ?_
    rw [UInt8.toNat_toBitVec, UInt8.toNat_ofNat', Nat.mod_eq_of_lt hx']
    exact hx
  unfold String.utf8EncodeChar
  dsimp only
  rw [if_neg hv]
  split
  · exact ⟨_, _, _, rfl, hbyte _ (by omega) (by omega)⟩
  · split
    · exact ⟨_, _, _, rfl, hbyte _ (by omega) (by omega)⟩
    · exact ⟨_, _, _, rfl, hbyte _ (by omega) (by omega)⟩

/-- `hex_decode`, on characters. -/
def hexChars : List Char → Option (List Byte)
  | [] => some []
  | [_] => none
  | c :: c' :: l => do
    let byte := ((← hexValue c) <<< 4) ||| (← hexValue c')
    return byte :: (← hexChars l)

theorem hexPairs_of_none {b b' : Byte} {bytes : List Byte} (h : nibble b = none) :
    hexPairs (b :: b' :: bytes) = none := by
  rw [hexPairs, h]
  rfl

theorem hexPairs_utf8Bytes (l : List Char) : hexPairs (utf8Bytes (String.ofList l)) = hexChars l := by
  induction l using hexChars.induct with
  | case1 =>
    rw [utf8Bytes_nil]
    rfl
  | case2 c =>
    rw [utf8Bytes_cons, utf8Bytes_nil, List.append_nil]
    by_cases hc : c.toNat < 128
    · rw [utf8EncodeChar_ascii hc]
      rfl
    · obtain ⟨b, b', bytes, heq, hnone⟩ := exists_utf8EncodeChar hc
      rw [heq, hexPairs_of_none hnone]
      rfl
  | case3 c c' l ih =>
    rw [utf8Bytes_cons, utf8Bytes_cons, hexChars]
    by_cases hc : c.toNat < 128
    · rw [utf8EncodeChar_ascii hc, List.singleton_append, hexValue, if_pos hc]
      by_cases hc' : c'.toNat < 128
      · rw [utf8EncodeChar_ascii hc', List.singleton_append, hexPairs, ih, hexValue, if_pos hc']
      · obtain ⟨b, b', bytes, heq, hnone⟩ := exists_utf8EncodeChar hc'
        rw [heq, List.cons_append, hexPairs, hnone, hexValue, if_neg hc']
        rfl
    · obtain ⟨b, b', bytes, heq, hnone⟩ := exists_utf8EncodeChar hc
      rw [heq, List.cons_append, List.cons_append, hexPairs_of_none hnone, hexValue, if_neg hc]
      rfl

theorem hexDecode_eq_hexChars (s : String) : hexDecode s = hexChars s.toList := by
  rw [← hexPairs_utf8Bytes, String.ofList_toList]
  rfl

/-! ## Digits -/

theorem toNat_hexDigit : ∀ d < 16, (hexDigit d).toNat = if d < 10 then 48 + d else 87 + d := by
  decide +kernel

theorem toNat_toLower (c : Char) :
    c.toLower.toNat = if 65 ≤ c.toNat ∧ c.toNat ≤ 90 then c.toNat + 32 else c.toNat := by
  unfold Char.toLower
  split
  next h =>
    have hge : 65 ≤ c.val.toNat := UInt32.le_iff_toNat_le.mp h.1
    have hle : c.val.toNat ≤ 90 := UInt32.le_iff_toNat_le.mp h.2
    rw [if_pos ⟨hge, hle⟩]
    show (c.val + 32).toNat = c.val.toNat + 32
    rw [UInt32.toNat_add]
    show (c.val.toNat + 32) % 2 ^ 32 = c.val.toNat + 32
    omega
  next h =>
    rw [if_neg]
    rintro ⟨hge, hle⟩
    exact h ⟨UInt32.le_iff_toNat_le.mpr hge, UInt32.le_iff_toNat_le.mpr hle⟩

theorem hexValue_eq (c : Char) : hexValue c =
    if 48 ≤ c.toNat ∧ c.toNat ≤ 57 then some (BitVec.ofNat 8 (c.toNat - 48))
    else if 97 ≤ c.toNat ∧ c.toNat ≤ 102 then some (BitVec.ofNat 8 (c.toNat - 97 + 10))
    else if 65 ≤ c.toNat ∧ c.toNat ≤ 70 then some (BitVec.ofNat 8 (c.toNat - 65 + 10))
    else none := by
  unfold hexValue
  by_cases hc : c.toNat < 128
  · rw [if_pos hc, nibble, BitVec.toNat_ofNat, Nat.mod_eq_of_lt (by omega)]
  · rw [if_neg hc, if_neg (by omega), if_neg (by omega), if_neg (by omega)]

theorem ofNat_inj {m n : Nat} (hm : m < 16) (hn : n < 16) :
    some (BitVec.ofNat 8 m) = some (BitVec.ofNat 8 n) ↔ m = n := by
  rw [Option.some.injEq, ← BitVec.toNat_inj, BitVec.toNat_ofNat, BitVec.toNat_ofNat, Nat.mod_eq_of_lt (by omega),
    Nat.mod_eq_of_lt (by omega)]

/-- A character has a value if it is, in lower case, the digit of that value. -/
theorem hexValue_eq_some_iff {c : Char} {d : Nat} (hd : d < 16) :
    hexValue c = some (BitVec.ofNat 8 d) ↔ c.toLower = hexDigit d := by
  have hinj : c.toLower = hexDigit d ↔ c.toLower.toNat = (hexDigit d).toNat :=
    ⟨congrArg Char.toNat, fun h => Char.ext (UInt32.toNat_inj.mp h)⟩
  rw [hinj, toNat_hexDigit d hd, toNat_toLower, hexValue_eq]
  split
  next h1 =>
    rw [ofNat_inj (by omega) hd]
    split <;> split <;> omega
  split
  next h1 h2 =>
    rw [ofNat_inj (by omega) hd]
    split <;> split <;> omega
  split
  next h1 h2 h3 =>
    rw [ofNat_inj (by omega) hd]
    split <;> split <;> omega
  next h1 h2 h3 =>
    refine ⟨nofun, ?_⟩
    split <;> split <;> omega

/-- A value is below 16. -/
theorem toNat_hexValue {c : Char} {n : Byte} (h : hexValue c = some n) : n.toNat < 16 := by
  rw [hexValue_eq] at h
  repeat' split at h
  all_goals
    first
    | cases h; rw [BitVec.toNat_ofNat]; omega
    | cases h

theorem byte_eq_iff {n n' b : Byte} (hn : n.toNat < 16) (hn' : n'.toNat < 16) :
    n <<< 4 ||| n' = b ↔ n = BitVec.ofNat 8 (b.toNat / 16) ∧ n' = BitVec.ofNat 8 (b.toNat % 16) := by
  have hor : (n <<< 4 ||| n').toNat = n.toNat * 16 + n'.toNat := by
    rw [BitVec.toNat_or, BitVec.toNat_shiftLeft, Nat.shiftLeft_eq, Nat.mod_eq_of_lt (by omega),
      ← Nat.shiftLeft_eq, ← Nat.shiftLeft_add_eq_or_of_lt (by omega), Nat.shiftLeft_eq]
  have hb := b.isLt
  rw [← BitVec.toNat_inj, ← BitVec.toNat_inj, ← BitVec.toNat_inj, hor, BitVec.toNat_ofNat, BitVec.toNat_ofNat]
  omega

/-- **What `hex_decode` returns**: the bytes whose hex encoding is the string in lower case, and nothing for a
    string that is no hex encoding. -/
theorem hexDecode_eq_some_iff (s : String) (bytes : List Byte) :
    hexDecode s = some bytes ↔ s.toList.map Char.toLower = (hexEncode bytes).toList := by
  rw [hexDecode_eq_hexChars, hexEncode, String.toList_ofList]
  induction s.toList using hexChars.induct generalizing bytes with
  | case1 =>
    rw [hexChars, List.map_nil, Option.some.injEq]
    cases bytes with
    | nil => exact ⟨fun _ => rfl, fun _ => rfl⟩
    | cons b bytes => exact ⟨fun h => (nomatch h), fun h => (nomatch h)⟩
  | case2 c =>
    rw [hexChars, List.map_singleton]
    cases bytes with
    | nil => exact ⟨nofun, nofun⟩
    | cons b bytes =>
      refine ⟨nofun, fun h => ?_⟩
      rw [List.flatMap_cons, List.cons_append] at h
      exact absurd (List.cons.inj h).2 (List.cons_ne_nil _ _).symm
  | case3 c c' l ih =>
    rw [hexChars, List.map_cons, List.map_cons]
    cases bytes with
    | nil =>
      refine ⟨?_, nofun⟩
      intro h
      simp only [Option.bind_eq_bind, Option.bind_eq_some_iff, Option.pure_def, Option.some.injEq] at h
      obtain ⟨_, _, _, _, _, _, h⟩ := h
      cases h
    | cons b bytes =>
      -- each digit is the half byte that `hex_encode` writes there
      have hhi : b.toNat / 16 < 16 := by omega
      have hlo : b.toNat % 16 < 16 := by omega
      rw [List.flatMap_cons, List.cons_append, List.cons_append, List.nil_append, List.cons.injEq, List.cons.injEq,
        ← hexValue_eq_some_iff hhi, ← hexValue_eq_some_iff hlo, ← ih]
      simp only [Option.bind_eq_bind, Option.bind_eq_some_iff, Option.pure_def, Option.some.injEq, List.cons.injEq]
      refine ⟨?_, ?_⟩
      · rintro ⟨n, hn, n', hn', rest, hrest, hbyte, rfl⟩
        obtain ⟨rfl, rfl⟩ := (byte_eq_iff (toNat_hexValue hn) (toNat_hexValue hn')).mp hbyte
        exact ⟨hn, hn', hrest⟩
      · rintro ⟨hn, hn', hrest⟩
        exact ⟨_, hn, _, hn', bytes, hrest,
          (byte_eq_iff (toNat_hexValue hn) (toNat_hexValue hn')).mpr ⟨rfl, rfl⟩, rfl⟩

end Miner
end MinerTim
