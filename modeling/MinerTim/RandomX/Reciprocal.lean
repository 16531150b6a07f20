import Mathlib.Data.Nat.Size
import MinerTim.RandomX.Compile
import MinerTim.RandomX.SuperscalarSpec

/-!
# `RandomX.Reciprocal` — the reciprocals of `IMUL_RCP`

`randomx_reciprocal` puts its result together from a quotient and a remainder, each shifted left by the
bit length `b` of the divisor. For a divisor that is no power of two, `2^(b-1) < d < 2^b`, so that
`2^(63+b) / d` lies between `2^63` and `2^64` and every step fits in 64 bits. `IMUL_RCP` is compiled and
generated for no other divisors.
-/

namespace MinerTim
namespace RandomX

/-- A divisor that has a reciprocal: neither zero nor a power of two. -/
structure IsDivisor (divisor : BitVec 32) : Prop where
  ne_zero : divisor ≠ 0
  ne_two_pow : ∀ k, divisor.toNat ≠ 2 ^ k

/-! ## Exact operations -/

/-- `x << k`, if it drops no set bit. -/
def shlExact (x : Word) (k : Nat) : Option Word :=
  if x.toNat * 2 ^ k < 2 ^ 64 then some (x <<< k) else none

/-- `x + y`, if it does not overflow. -/
def addExact (x y : Word) : Option Word :=
  if x.toNat + y.toNat < 2 ^ 64 then some (x + y) else none

/-- `randomx_reciprocal`, where a shift that drops a bit, an overflow and a zero divisor are `none`. -/
def randomxReciprocalExact (divisor : BitVec 32) : Option Word := do
  if divisor = 0 then none
  let p2exp63 ← shlExact 1 63
  let d : Word := divisor.setWidth 64
  let q := p2exp63 / d
  let r := p2exp63 % d
  let shift := 64 - d.clz.toNat
  addExact (← shlExact q shift) ((← shlExact r shift) / d)

theorem shlExact_eq {x : Word} {k : Nat} (h : x.toNat * 2 ^ k < 2 ^ 64) :
    shlExact x k = some (BitVec.ofNat 64 (x.toNat * 2 ^ k)) := by
  rw [shlExact, if_pos h]
  refine congrArg some (BitVec.eq_of_toNat_eq ?_)
  rw [BitVec.toNat_shiftLeft, Nat.shiftLeft_eq, BitVec.toNat_ofNat]

theorem addExact_eq {x y : Word} (h : x.toNat + y.toNat < 2 ^ 64) :
    addExact x y = some (BitVec.ofNat 64 (x.toNat + y.toNat)) := by
  rw [addExact, if_pos h]
  refine congrArg some (BitVec.eq_of_toNat_eq ?_)
  rw [BitVec.toNat_add, BitVec.toNat_ofNat]

/-! ## The quotient -/

/-- The bit length, as the leading zeros give it. -/
theorem shift_eq {divisor : BitVec 32} (h : divisor ≠ 0) :
    64 - (divisor.setWidth 64 : Word).clz.toNat = Nat.size divisor.toNat := by
  have hd : (divisor.setWidth 64 : Word).toNat = divisor.toNat := by
    rw [BitVec.toNat_setWidth]
    exact Nat.mod_eq_of_lt (by have := divisor.isLt; omega)
  have hne : (divisor.setWidth 64 : Word) ≠ 0#64 := fun hzero => h <| BitVec.eq_of_toNat_eq <| by
    rw [← hd, hzero]
    rfl
  have hlow := BitVec.two_pow_sub_clz_le_toNat_of_ne_zero (by decide) hne
  have hhigh := @BitVec.toNat_lt_two_pow_sub_clz 64 (divisor.setWidth 64)
  have hclz := BitVec.clz_lt_iff_ne_zero.mpr hne
  rw [hd] at hlow hhigh
  rw [BitVec.lt_def] at hclz
  have hsize := Nat.size_le.mpr hhigh
  have hlt := Nat.lt_size.mpr hlow
  have h64 : (64#64 : Word).toNat = 64 := rfl
  omega

/-- A divisor lies strictly between two powers of two. -/
theorem IsDivisor.bounds {divisor : BitVec 32} (h : IsDivisor divisor) :
    2 ^ (Nat.size divisor.toNat - 1) < divisor.toNat
      ∧ divisor.toNat < 2 ^ Nat.size divisor.toNat
      ∧ 1 ≤ Nat.size divisor.toNat ∧ Nat.size divisor.toNat ≤ 32 := by
  have hpos : 0 < divisor.toNat := Nat.pos_of_ne_zero fun h0 =>
    h.ne_zero (BitVec.eq_of_toNat_eq h0)
  have hsize : 0 < Nat.size divisor.toNat := Nat.size_pos.mpr hpos
  have hle : 2 ^ (Nat.size divisor.toNat - 1) ≤ divisor.toNat := Nat.lt_size.mp (by omega)
  exact ⟨lt_of_le_of_ne hle (h.ne_two_pow _).symm, Nat.lt_size_self _, hsize,
    Nat.size_le.mpr divisor.isLt⟩

/-- The quotient of `2^(63+b)`, put together from quotient and remainder of `2^63`. -/
theorem split_quotient {d : Nat} (b : Nat) (hd : 0 < d) :
    2 ^ 63 / d * 2 ^ b + 2 ^ 63 % d * 2 ^ b / d = 2 ^ (63 + b) / d := by
  have hsplit : 2 ^ (63 + b) = 2 ^ 63 % d * 2 ^ b + 2 ^ 63 / d * 2 ^ b * d := by
    calc 2 ^ (63 + b) = (2 ^ 63 % d + d * (2 ^ 63 / d)) * 2 ^ b := by rw [Nat.mod_add_div, pow_add]
      _ = 2 ^ 63 % d * 2 ^ b + 2 ^ 63 / d * 2 ^ b * d := by ring
  rw [hsplit, Nat.add_mul_div_right _ _ hd, Nat.add_comm]

theorem quotient_bounds {d b : Nat} (hlow : 2 ^ (b - 1) < d) (hhigh : d < 2 ^ b) (hb : 1 ≤ b) :
    2 ^ 63 ≤ 2 ^ (63 + b) / d ∧ 2 ^ (63 + b) / d < 2 ^ 64 := by
  have hd : 0 < d := Nat.lt_of_le_of_lt (Nat.zero_le _) hlow
  refine ⟨(Nat.le_div_iff_mul_le hd).mpr ?_, (Nat.div_lt_iff_lt_mul hd).mpr ?_⟩
  · rw [pow_add]
    exact Nat.mul_le_mul_left _ hhigh.le
  · calc 2 ^ (63 + b) = 2 ^ 64 * 2 ^ (b - 1) := by rw [← pow_add]; congr 1; omega
      _ < 2 ^ 64 * d := Nat.mul_lt_mul_of_pos_left hlow (by decide)

/-- **`randomx_reciprocal` is the quotient**, computed without a dropped bit or an overflow. -/
theorem randomxReciprocalExact_eq {divisor : BitVec 32} (h : IsDivisor divisor) :
    randomxReciprocalExact divisor
      = some (BitVec.ofNat 64 (2 ^ (63 + Nat.size divisor.toNat) / divisor.toNat)) := by
  obtain ⟨hlow, hhigh, hb, hb32⟩ := h.bounds
  have hd : (divisor.setWidth 64 : Word).toNat = divisor.toNat := by
    rw [BitVec.toNat_setWidth]
    exact Nat.mod_eq_of_lt (by have := divisor.isLt; omega)
  have hpos : 0 < divisor.toNat := Nat.lt_of_le_of_lt (Nat.zero_le _) hlow
  obtain ⟨-, hlt⟩ := quotient_bounds hlow hhigh hb
  have hsplit := split_quotient (Nat.size divisor.toNat) hpos
  -- neither part exceeds the whole quotient
  have hq : 2 ^ 63 / divisor.toNat * 2 ^ Nat.size divisor.toNat < 2 ^ 64 :=
    lt_of_le_of_lt (hsplit ▸ Nat.le_add_right _ _) hlt
  have hr : 2 ^ 63 % divisor.toNat * 2 ^ Nat.size divisor.toNat < 2 ^ 64 := by
    have hmod := Nat.mod_lt (2 ^ 63) hpos
    have hpow : 2 ^ Nat.size divisor.toNat ≤ 2 ^ 32 := Nat.pow_le_pow_right (by decide) hb32
    calc 2 ^ 63 % divisor.toNat * 2 ^ Nat.size divisor.toNat
        ≤ divisor.toNat * 2 ^ 32 := Nat.mul_le_mul hmod.le hpow
      _ < 2 ^ 64 := by have := divisor.isLt; omega
  have hp : shlExact 1 63 = some (BitVec.ofNat 64 (2 ^ 63)) := shlExact_eq (by decide)
  have hqn : (BitVec.ofNat 64 (2 ^ 63) / (divisor.setWidth 64 : Word)).toNat
      = 2 ^ 63 / divisor.toNat := by
    rw [BitVec.toNat_udiv, hd]
    rfl
  have hrn : (BitVec.ofNat 64 (2 ^ 63) % (divisor.setWidth 64 : Word)).toNat
      = 2 ^ 63 % divisor.toNat := by
    rw [BitVec.toNat_umod, hd]
    rfl
  rw [randomxReciprocalExact, if_neg h.ne_zero, hp]
  dsimp only [Option.bind_eq_bind, Option.bind_some]
  rw [shift_eq h.ne_zero, shlExact_eq (by rwa [hqn]), shlExact_eq (by rwa [hrn]), hqn, hrn]
  dsimp only [Option.bind_some]
  rw [addExact_eq]
  · rw [BitVec.toNat_udiv, BitVec.toNat_ofNat, BitVec.toNat_ofNat, Nat.mod_eq_of_lt hq,
      Nat.mod_eq_of_lt hr, hd, hsplit]
  · rw [BitVec.toNat_udiv, BitVec.toNat_ofNat, BitVec.toNat_ofNat, Nat.mod_eq_of_lt hq,
      Nat.mod_eq_of_lt hr, hd, hsplit]
    exact hlt

theorem eq_of_shlExact {x y : Word} {k : Nat} (h : shlExact x k = some y) : x <<< k = y := by
  rw [shlExact] at h
  split_ifs at h
  exact Option.some.inj h

theorem eq_of_addExact {x y z : Word} (h : addExact x y = some z) : x + y = z := by
  rw [addExact] at h
  split_ifs at h
  exact Option.some.inj h

/-- Where every step is exact, `u64` arithmetic gives the same. -/
theorem randomxReciprocal_of_exact {divisor : BitVec 32} {w : Word}
    (h : randomxReciprocalExact divisor = some w) : randomxReciprocal divisor = w := by
  rw [randomxReciprocalExact] at h
  split_ifs at h
  · cases h
  simp only [Option.bind_eq_bind, Option.bind_eq_some_iff] at h
  obtain ⟨p, hp, q, hq, r, hr, hsum⟩ := h
  obtain rfl := eq_of_shlExact hp
  obtain rfl := eq_of_shlExact hq
  obtain rfl := eq_of_shlExact hr
  exact eq_of_addExact hsum

/-! ## The callers -/

/-- What passes the test of `compile_program` is a divisor. -/
theorem isDivisor_of_test {divisor : BitVec 32}
    (h : isZeroOrPowerOf2 (divisor.setWidth 64) = false) : IsDivisor divisor := by
  refine ⟨?_, fun k hk => ?_⟩
  · rintro rfl
    exact absurd h (by decide)
  · have hd : (divisor.setWidth 64 : Word).toNat = 2 ^ k := by
      rw [BitVec.toNat_setWidth, hk]
      exact Nat.mod_eq_of_lt (by have := divisor.isLt; omega)
    have hpos : 1 ≤ 2 ^ k := Nat.one_le_two_pow
    have hsub : ((divisor.setWidth 64 : Word) - 1).toNat = 2 ^ k - 1 := by
      have hlt := (divisor.setWidth 64 : Word).isLt
      rw [BitVec.toNat_sub, show (1 : Word).toNat = 1 from rfl]
      omega
    have hzero : (divisor.setWidth 64 : Word) &&& ((divisor.setWidth 64 : Word) - 1) = 0 := by
      apply BitVec.eq_of_toNat_eq
      rw [BitVec.toNat_and, hsub, hd, Nat.and_two_pow_sub_one_eq_mod, Nat.mod_self]
      rfl
    rw [isZeroOrPowerOf2, hzero] at h
    exact absurd h (by decide)

/-- `compile_program` on an `IMUL_RCP`. -/
theorem compileInstruction_imulRcp (i : Nat) (instr : RawInstruction) (usage : RegisterUsage)
    (hlow : CEIL_ISMULH_M ≤ instr.opcode.toNat) (hhigh : instr.opcode.toNat < CEIL_IMUL_RCP) :
    (compileInstruction i instr usage).1 = if isZeroOrPowerOf2 (instr.imm32.setWidth 64)
      then { itype := .Nop }
      else { itype := .ImulR, dst := instr.dst.toNat % 8, src := 8,
             imm := randomxReciprocal instr.imm32 } := by
  simp only [CEIL_IADD_RS, CEIL_IADD_M, CEIL_ISUB_R, CEIL_ISUB_M, CEIL_IMUL_R, CEIL_IMUL_M,
    CEIL_IMULH_R, CEIL_IMULH_M, CEIL_ISMULH_R, CEIL_ISMULH_M, CEIL_IMUL_RCP, compileInstruction] at *
  rw [if_neg (by omega), if_neg (by omega), if_neg (by omega), if_neg (by omega), if_neg (by omega),
    if_neg (by omega), if_neg (by omega), if_neg (by omega), if_neg (by omega), if_neg (by omega),
    if_pos (by omega)]
  split <;> rfl

/-- **`randomx_reciprocal` is `2^(63+b) / divisor`**, with its top bit set and without a dropped bit or an
    overflow on the way, for every divisor it is called with: `compile_program` and the generator of
    superscalar programs pass neither zero nor a power of two. -/
theorem randomx_reciprocal_is_exact :
    (∀ divisor, IsDivisor divisor →
      (randomxReciprocal divisor).toNat = 2 ^ (63 + Nat.size divisor.toNat) / divisor.toNat
        ∧ 2 ^ 63 ≤ 2 ^ (63 + Nat.size divisor.toNat) / divisor.toNat
        ∧ 2 ^ (63 + Nat.size divisor.toNat) / divisor.toNat < 2 ^ 64
        ∧ randomxReciprocalExact divisor = some (randomxReciprocal divisor))
      ∧ (∀ i instr usage, CEIL_ISMULH_M ≤ instr.opcode.toNat → instr.opcode.toNat < CEIL_IMUL_RCP →
        (compileInstruction i instr usage).1 = { itype := .Nop }
          ∨ IsDivisor instr.imm32
            ∧ (compileInstruction i instr usage).1
              = { itype := .ImulR, dst := instr.dst.toNat % 8, src := 8,
                  imm := randomxReciprocal instr.imm32 })
      ∧ ∀ prog, Superscalar.Generated prog → ∀ inst ∈ prog.instructions, inst.opcode.toNat = 13 →
        IsDivisor inst.imm32 := by
  refine ⟨fun divisor h => ?_, fun i instr usage hlow hhigh => ?_, fun prog h inst hinst hopcode => ?_⟩
  · obtain ⟨hlow, hhigh, hb, -⟩ := h.bounds
    obtain ⟨hge, hlt⟩ := quotient_bounds hlow hhigh hb
    have hexact := randomxReciprocalExact_eq h
    have heq := randomxReciprocal_of_exact hexact
    refine ⟨?_, hge, hlt, ?_⟩
    · rw [heq, BitVec.toNat_ofNat, Nat.mod_eq_of_lt hlt]
    · rw [hexact, heq]
  · rw [compileInstruction_imulRcp i instr usage hlow hhigh]
    cases htest : isZeroOrPowerOf2 (instr.imm32.setWidth 64) with
    | true => exact .inl rfl
    | false => exact .inr ⟨isDivisor_of_test htest, rfl⟩
  · obtain ⟨hne, hpow⟩ := (h.wellFormed.instructions inst hinst).divisor hopcode
    exact ⟨hne, hpow⟩

/-- The smallest divisor. -/
theorem randomx_reciprocal_is_exact_three : (randomxReciprocal 3).toNat = 2 ^ 65 / 3 := by
  have h3 : IsDivisor 3 := by
    refine ⟨by decide, fun k hk => ?_⟩
    have hk2 : k < 2 := by
      by_contra hge
      have := Nat.pow_le_pow_right (show 0 < 2 by decide) (Nat.not_lt.mp hge)
      rw [← hk] at this
      exact absurd this (by decide)
    interval_cases k <;> exact absurd hk (by decide)
  exact (randomx_reciprocal_is_exact.1 3 h3).1

end RandomX
end MinerTim
