import MinerTim.RandomX.Jit.Calls
import MinerTim.RandomX.Jit.FloatMasks
import MinerTim.RandomX.Jit.BodyRun

/-!
# `RandomX.Jit.LoopIteration` — the code around the body of the native loop

The native loop keeps `ma`, `mx` and the two scratchpad addresses in `x24 … x27`, zero-extended (`LoopRegs`).
`emit_iteration_pre` and `emit_iteration_post` are cut into the fragments that their source comments name; each
fragment leads from a state related to the interpreter's to one related to what that part of the interpreter's
iteration makes of it. Together they do what `loopHead` and `loopTail` say (`exists_emitIterationPre`,
`exists_emitIterationPost`), and the second prefetches the addresses of the next iteration.
-/

namespace MinerTim
namespace RandomX

open Arm64 Emitter

/-- **The loop state in registers**, and the dataset at the offset of the program. -/
structure LoopRegs (dataset : Word) (l : LoopState) (t : State) : Prop where
  dataset : t.x 22 = dataset
  ma : t.x 24 = l.ma.setWidth 64
  mx : t.x 25 = l.mx.setWidth 64
  spAddr0 : t.x 26 = l.spAddr0.setWidth 64
  spAddr1 : t.x 27 = l.spAddr1.setWidth 64

variable {fp : FpOps} {config : ProgramConfiguration} {base dataset : Word} {s : VmState} {l : LoopState}
  {t t' : State} {W : Word → Prop}

theorem LoopRegs.congr (h : LoopRegs dataset l t) (hx : ∀ n, 22 ≤ n → n ≤ 27 → t'.x n = t.x n) :
    LoopRegs dataset l t' :=
  ⟨(hx 22 (by decide) (by decide)).trans h.dataset, (hx 24 (by decide) (by decide)).trans h.ma,
    (hx 25 (by decide) (by decide)).trans h.mx, (hx 26 (by decide) (by decide)).trans h.spAddr0,
    (hx 27 (by decide) (by decide)).trans h.spAddr1⟩

/-- The body leaves the loop state alone. -/
theorem LoopRegs.bodyKept (h : LoopRegs dataset l t) (hkept : BodyKept t t') : LoopRegs dataset l t' :=
  h.congr fun n hlo _ => hkept.x n (by unfold IsBodyX; omega)

/-- A write to one of the registers of the loop. -/
theorem Sim.setLoopX (h : Sim config base s t) {n : Nat} (hn : 21 ≤ n) (v : Word) :
    Sim config base s (t.setX n v) := by
  refine ⟨?_, ?_, ?_, ⟨?_, ?_, ?_, ?_, ?_⟩, ?_, ?_⟩
  · intro i hi
    rw [State.x_setX_of_ne (by unfold rReg; omega), h.r i hi]
  · rw [State.d_setX]
    exact h.f
  · rw [State.d_setX]
    exact h.e
  · rw [State.x_setX_of_ne (by omega), h.resident.base]
  · rw [State.x_setX_of_ne (by omega), h.resident.mask0]
  · rw [State.x_setX_of_ne (by omega), h.resident.mask1]
  · rw [State.d_setX, h.resident.fscal]
  · rw [State.d_setX]
    exact h.resident.a
  · intro k hk
    rw [State.mem_setX, h.pad k hk]
  · rw [State.rmode_congr State.fpcr_setX, h.mode]

/-! ## Words in memory, XORed into `r` -/

theorem exists_emitXorR (h : Sim config base s t) {rt rn : Nat} (hrt : rt < 4) (hrn : rn < 4) (hne : rn ≠ rt)
    {w : Nat → Word} (hread : ∀ i < 8, t.read (t.x rn + BitVec.ofNat 64 (i * 8)) = w i) :
    ∃ t', Straight fp W (emitXorR rt rn) t t' ∧ Sim config base (s.mapR fun i v => v ^^^ w i) t' := by
  let P : Nat → State → Prop := fun k t₁ =>
    Sim config base (s.mapRTo (fun i v => v ^^^ w i) k) t₁ ∧ t₁.x rn = t.x rn ∧ t₁.mem = t.mem
  have hstep : ∀ k < 8, ∀ t₁, P k t₁ →
      ∃ t', Straight fp W (ldrImm rt rn (k * 8) ++ eorReg (rReg k) (rReg k) rt) t₁ t' ∧ P (k + 1) t' := by
    rintro k hk t₁ ⟨hsim, hx, hmem⟩
    have hload : Straight fp W (ldrImm rt rn (k * 8)) t₁ (t₁.setX rt (w k)) := by
      refine (straight_ldrImm (by omega) (Nat.mul_mod_left k 8) (by omega) rt).eq ?_
      rw [hx, State.read_congr hmem, hread k hk]
    have hr : (s.mapRTo (fun i v => v ^^^ w i) k).rAt k = s.rAt k := by
      rw [VmState.mapRTo, VmState.rAt_mapR hk, if_neg (Nat.lt_irrefl k)]
    have hxor : Straight fp W (eorReg (rReg k) (rReg k) rt) (t₁.setX rt (w k))
        ((t₁.setX rt (w k)).setX (rReg k) (s.rAt k ^^^ w k)) := by
      refine (straight_eorReg _ _ _).eq ?_
      rw [getX_setX_of_ne (by unfold rReg; omega), getX_setX_same (by omega), hsim.getX_rReg hk, hr]
    refine ⟨_, hload.append hxor, ?_, ?_, ?_⟩
    · have hset := (hsim.setScratchX hrt (w k)).setR hk (s.rAt k ^^^ w k)
      rwa [VmState.mapRTo_succ (fun i v => v ^^^ w i) hk] at hset
    · rw [State.x_setX_of_ne (by unfold rReg; omega), State.x_setX_of_ne hne, hx]
    · rw [State.mem_setX, State.mem_setX, hmem]
  have hzero : P 0 t := ⟨by rw [VmState.mapRTo_zero]; exact h, rfl, rfl⟩
  obtain ⟨t', hcode, hsim, -⟩ := exists_straight_flatMap P hzero hstep
  rw [VmState.mapRTo_last] at hsim
  exact ⟨t', hcode, hsim⟩

/-! ## Before the body -/

theorem jit_scratchpadMask : JIT_SCRATCHPAD_L3_MASK64 = SCRATCHPAD_L3_MASK64.setWidth 64 := by decide

theorem isEncodable_jitScratchpadMask : isEncodable JIT_SCRATCHPAD_L3_MASK64 = true := by decide +kernel

/-- A 32-bit XOR looks at the low halves only. -/
theorem setWidth_xor_low (a : BitVec 32) (v : Word) : (a.setWidth 64 ^^^ v).setWidth 32 = a ^^^ v.setWidth 32 := by
  rw [BitVec.setWidth_xor, BitVec.setWidth_setWidth_of_le _ (by decide), BitVec.setWidth_eq]

/-- An address of the loop state, mixed with the low half of a register. -/
theorem straight_emitMixAddr {rd : Nat} (hrd : rd ≠ 31) (rs : Nat) {a : BitVec 32} (ha : t.x rd = a.setWidth 64) :
    Straight fp W (emitMixAddr rd rs) t
      (t.setX rd (((a ^^^ (t.getX rs).setWidth 32) &&& SCRATCHPAD_L3_MASK64).setWidth 64)) := by
  refine ((straight_eorRegW _ _ _).append
    (straight_andBitmask hrd _ isEncodable_jitScratchpadMask _)).eq ?_
  rw [getX_setX_same hrd, State.setX_setX, State.getX_of_ne hrd, ha, setWidth_xor_low, jit_scratchpadMask, and_setWidth,
    BitVec.setWidth_setWidth_of_le _ (by decide), BitVec.setWidth_eq, BitVec.ofNat_toNat]

/-- The loop state after the addresses of an iteration are mixed. -/
def mixedState (config : ProgramConfiguration) (s : VmState) (l : LoopState) : LoopState :=
  { l with spAddr0 := spAddr0 config s l, spAddr1 := spAddr1 config s l }

theorem exists_emitAddresses (h : Sim config base s t) (hl : LoopRegs dataset l t) (hconfig : config.WellFormed) :
    ∃ t', Straight fp W (emitAddresses config) t t' ∧ Sim config base s t' ∧
      LoopRegs dataset (mixedState config s l) t' := by
  obtain ⟨h0, h1, -, -⟩ := hconfig
  -- the mix of the two registers, then one address from each half of it
  have hmix : Straight fp W (eorReg 0 (rReg config.readReg0) (rReg config.readReg1)) t
      (t.setX 0 (spMix config s)) := by
    refine (straight_eorReg _ _ _).eq ?_
    rw [h.getX_rReg h0, h.getX_rReg h1]
    rfl
  have h26 : Straight fp W (emitMixAddr 26 0) (t.setX 0 (spMix config s))
      ((t.setX 0 (spMix config s)).setX 26 ((spAddr0 config s l).setWidth 64)) := by
    refine (@straight_emitMixAddr fp _ W 26 (by decide) 0 l.spAddr0 ?_).eq ?_
    · rw [State.x_setX_of_ne (by decide), hl.spAddr0]
    · rw [getX_setX_same (by decide)]
      rfl
  have hhigh : Straight fp W (lsrImm 1 0 32)
      ((t.setX 0 (spMix config s)).setX 26 ((spAddr0 config s l).setWidth 64))
      (((t.setX 0 (spMix config s)).setX 26 ((spAddr0 config s l).setWidth 64)).setX 1 (spMix config s >>> 32)) := by
    refine (straight_lsrImm _ _ (by decide)).eq ?_
    rw [getX_setX_of_ne (by decide), getX_setX_same (by decide)]
  have h27 := @straight_emitMixAddr fp
    (((t.setX 0 (spMix config s)).setX 26 ((spAddr0 config s l).setWidth 64)).setX 1 (spMix config s >>> 32)) W 27
    (by decide) 1 l.spAddr1 (by
      rw [State.x_setX_of_ne (by decide), State.x_setX_of_ne (by decide), State.x_setX_of_ne (by decide), hl.spAddr1])
  rw [getX_setX_same (by decide)] at h27
  refine ⟨_, ((hmix.append h26).append hhigh).append h27, ?_, ?_⟩
  · exact (((h.setScratchX (by decide) _).setLoopX (by decide) _).setScratchX (by decide) _).setLoopX (by decide) _
  · refine ⟨?_, ?_, ?_, ?_, State.x_setX_same (by decide)⟩
    · simp (disch := decide) only [State.x_setX_of_ne, hl.dataset]
    · simp (disch := decide) only [State.x_setX_of_ne, hl.ma]
      rfl
    · simp (disch := decide) only [State.x_setX_of_ne, hl.mx]
      rfl
    · simp (disch := decide) only [State.x_setX_of_ne, State.x_setX_same]
      rfl

/-- **An `f` register at the head of an iteration**, where the block is at the offset in `x27`. -/
theorem exists_emitLoadF (h : Sim config base s t) {addr i : Nat} (hx27 : t.x 27 = BitVec.ofNat 64 addr)
    (haddr : addr + 64 ≤ SCRATCHPAD_L3_SIZE) (hi : i < 4) :
    let x := spPair (fpUnit fp) s.ctl s.scratchpad (addr + 8 * i)
    ∃ t', Straight fp W (emitLoadF i) t t' ∧ Sim config base (s.putF i x) t' := by
  intro x
  have haddr0 : Straight fp W (addImm 0 27 (i * 8)) t (t.setX 0 (BitVec.ofNat 64 (addr + 8 * i))) := by
    refine (straight_addImm (by decide) (by decide) (by omega)).eq ?_
    rw [hx27, ← BitVec.ofNat_add, Nat.mul_comm i 8]
  obtain ⟨t', hcvt, hsim, hlo, hhi⟩ := @exists_emitCvtPackedInt fp _ _ _ _ W
    (h.setScratchX (n := 0) (by decide) (BitVec.ofNat 64 (addr + 8 * i))) (addr + 8 * i)
    (by omega) (State.x_setX_same (by decide))
  have hmove := (@straight_fmovDd fp W t' (fRegs i).1 25).append (straight_fmovDd (fRegs i).2 26)
  rw [State.d_setD_of_ne (show 26 ≠ (fRegs i).1 by simp only [fRegs]; omega), hlo, hhi] at hmove
  refine ⟨_, ?_, hsim.setF hi x.1 x.2⟩
  rw [emitLoadF, List.append_assoc]
  exact (haddr0.append hcvt).append hmove

/-- **The loads of an iteration** make the state that the body starts in. -/
theorem exists_emitLoads (h : Sim config base s t) {addr0 addr1 : Nat} (hx26 : t.x 26 = BitVec.ofNat 64 addr0)
    (hx27 : t.x 27 = BitVec.ofNat 64 addr1) (haddr0 : addr0 + 64 ≤ SCRATCHPAD_L3_SIZE)
    (haddr1 : addr1 + 64 ≤ SCRATCHPAD_L3_SIZE) :
    ∃ t', Straight fp W emitLoads t t' ∧ Sim config base (loopHead (fpUnit fp) config addr0 addr1 s) t' := by
  -- the integer registers
  have hadd : Straight fp W (addReg 2 16 26) t (t.setX 2 (base + BitVec.ofNat 64 addr0)) := by
    refine (straight_addReg _ _ _).eq ?_
    rw [State.getX_of_ne (by decide), State.getX_of_ne (by decide), h.resident.base, hx26]
  have h₁ := h.setScratchX (n := 2) (by decide) (base + BitVec.ofNat 64 addr0)
  obtain ⟨t₂, hr, h₂⟩ := @exists_emitXorR fp _ _ _ _ W h₁ 3 2 (by decide) (by decide) (by decide)
    (fun i => spWord s.scratchpad (addr0 + 8 * i)) fun i hi => by
      rw [State.x_setX_same (by decide), BitVec.add_assoc, ← BitVec.ofNat_add, Nat.mul_comm i 8]
      exact h₁.pad.read (by omega)
  have hx27₂ : t₂.x 27 = BitVec.ofNat 64 addr1 := by
    have hkept := kept_of_straight hr (fits_emitXorR (.inl (by decide)) 2).confined not_isBodyX_31
    rw [hkept.x 27 (by unfold IsBodyX; omega), State.x_setX_of_ne (by decide), hx27]
  -- the `f` registers
  let s₁ := s.mapR fun i v => v ^^^ spWord s.scratchpad (addr0 + 8 * i)
  let f : Nat → F128 → F128 := fun i _ => spPair (fpUnit fp) s.ctl s.scratchpad (addr1 + 8 * i)
  obtain ⟨t₃, hf, h₃, hx27₃⟩ := @exists_straight_flatMap fp t₂ W emitLoadF 4
    (fun k t' => Sim config base (s₁.mapFTo f k) t' ∧ t'.x 27 = BitVec.ofNat 64 addr1)
    ⟨by rw [VmState.mapFTo_zero]; exact h₂, hx27₂⟩ fun k hk t' ⟨hsim, hx⟩ => by
      obtain ⟨t'', hcode, hsim'⟩ := @exists_emitLoadF fp _ _ _ _ W hsim _ k hx haddr1 hk
      have hkept := kept_of_straight hcode (fits_emitLoadF hk).confined not_isBodyX_31
      refine ⟨t'', hcode, ?_, by rw [hkept.x 27 (by unfold IsBodyX; omega), hx]⟩
      rw [← VmState.mapFTo_succ f hk]
      exact hsim'
  rw [VmState.mapFTo_last] at h₃
  -- the `e` registers
  let e : Nat → F128 → F128 := fun i _ =>
    maskRegisterExponentMantissa config (spPair (fpUnit fp) s.ctl s.scratchpad (addr1 + 8 * (4 + i)))
  obtain ⟨t₄, he, h₄, -⟩ := @exists_straight_flatMap fp t₃ W emitLoadE 4
    (fun k t' => Sim config base ((s₁.mapF f).mapETo e k) t' ∧ t'.x 27 = BitVec.ofNat 64 addr1)
    ⟨by rw [VmState.mapETo_zero]; exact h₃, hx27₃⟩ fun k hk t' ⟨hsim, hx⟩ => by
      obtain ⟨t'', hcode, hsim'⟩ := @exists_emitLoadE fp _ _ _ _ W hsim _ k hx haddr1 hk
      have hkept := kept_of_straight hcode (fits_emitLoadE hk).confined not_isBodyX_31
      refine ⟨t'', hcode, ?_, by rw [hkept.x 27 (by unfold IsBodyX; omega), hx]⟩
      rw [← VmState.mapETo_succ e hk]
      exact hsim'
  rw [VmState.mapETo_last] at h₄
  exact ⟨t₄, ((hadd.append hr).append hf).append he, h₄⟩

/-- **`emit_iteration_pre` does what `loopHead` says.** -/
theorem exists_emitIterationPre (h : Sim config base s t) (hl : LoopRegs dataset l t)
    (hconfig : config.WellFormed) :
    ∃ t', Straight fp W (emitIterationPre config) t t' ∧
      Sim config base (loopHead (fpUnit fp) config (spAddr0 config s l).toNat (spAddr1 config s l).toNat s) t' ∧
      LoopRegs dataset (mixedState config s l) t' := by
  obtain ⟨t₁, haddrs, h₁, hl₁⟩ := @exists_emitAddresses fp _ _ _ _ _ _ W h hl hconfig
  obtain ⟨t₂, hloads, h₂⟩ := @exists_emitLoads fp _ _ _ _ W h₁ (spAddr0 config s l).toNat (spAddr1 config s l).toNat
    (by rw [hl₁.spAddr0, BitVec.ofNat_toNat]; rfl) (by rw [hl₁.spAddr1, BitVec.ofNat_toNat]; rfl)
    (and_mask64_le _) (and_mask64_le _)
  refine ⟨t₂, ?_, h₂, hl₁.bodyKept (kept_of_straight hloads fits_emitLoads.confined not_isBodyX_31)⟩
  rw [emitIterationPre_eq]
  exact haddrs.append hloads

/-! ## After the body -/

theorem jit_lineMask : JIT_CACHE_LINE_ALIGN_MASK = CACHE_LINE_ALIGN_MASK.setWidth 64 := by decide

theorem isEncodable_jitLineMask : isEncodable JIT_CACHE_LINE_ALIGN_MASK = true := by decide +kernel

/-- The address of a dataset item, left in `x0`. -/
theorem straight_lineAddr (hl : LoopRegs dataset l t) :
    Straight fp W (andBitmask 0 24 JIT_CACHE_LINE_ALIGN_MASK 1 ++ addReg 0 22 0) t
      (t.setX 0 (readPtr dataset l.ma)) := by
  refine ((straight_andBitmask (by decide) _ isEncodable_jitLineMask _).append (straight_addReg _ _ _)).eq ?_
  rw [getX_setX_of_ne (by decide), getX_setX_same (by decide), State.getX_of_ne (by decide),
    State.getX_of_ne (by decide), hl.dataset, hl.ma, jit_lineMask, State.setX_setX]
  rfl

/-- The loop state after `mx` is mixed. -/
def mixedMx (config : ProgramConfiguration) (s : VmState) (l : LoopState) : LoopState :=
  { l with mx := l.mx ^^^ (s.rAt config.readReg2 ^^^ s.rAt config.readReg3).setWidth 32 }

theorem exists_emitReadPtr (h : Sim config base s t) (hl : LoopRegs dataset l t) (hconfig : config.WellFormed) :
    ∃ t', Straight fp W (emitReadPtr config) t t' ∧ Sim config base s t' ∧
      LoopRegs dataset (mixedMx config s l) t' ∧ t'.x 0 = readPtr dataset l.ma := by
  obtain ⟨-, -, h2, h3⟩ := hconfig
  have haddr := @straight_lineAddr fp _ _ _ W hl
  have h₁ := h.setScratchX (n := 0) (by decide) (readPtr dataset l.ma)
  have hmix := @straight_eorReg fp W (t.setX 0 (readPtr dataset l.ma)) 1 (rReg config.readReg2) (rReg config.readReg3)
  rw [h₁.getX_rReg h2, h₁.getX_rReg h3] at hmix
  have h₂ := h₁.setScratchX (n := 1) (by decide) (s.rAt config.readReg2 ^^^ s.rAt config.readReg3)
  have hmx := @straight_eorRegW fp W ((t.setX 0 (readPtr dataset l.ma)).setX 1
    (s.rAt config.readReg2 ^^^ s.rAt config.readReg3)) 25 25 1
  rw [getX_setX_same (by decide), getX_setX_of_ne (by decide), getX_setX_of_ne (by decide),
    State.getX_of_ne (by decide), hl.mx, setWidth_xor_low] at hmx
  refine ⟨_, (haddr.append hmix).append hmx, h₂.setLoopX (by decide) _, ⟨?_, ?_, ?_, ?_, ?_⟩, ?_⟩
  · simp (disch := decide) only [State.x_setX_of_ne, hl.dataset]
  · simp (disch := decide) only [State.x_setX_of_ne, hl.ma]
    rfl
  · simp (disch := decide) only [State.x_setX_same]
    rfl
  · simp (disch := decide) only [State.x_setX_of_ne, hl.spAddr0]
    rfl
  · simp (disch := decide) only [State.x_setX_of_ne, hl.spAddr1]
    rfl
  · simp (disch := decide) only [State.x_setX_of_ne, State.x_setX_same]

/-- The loop state after `mx` and `ma` are swapped. -/
def swapped (l : LoopState) : LoopState := { l with ma := l.mx, mx := l.ma }

theorem exists_emitSwap (h : Sim config base s t) (hl : LoopRegs dataset l t) :
    ∃ t', Straight fp W emitSwap t t' ∧ Sim config base s t' ∧ LoopRegs dataset (swapped l) t' := by
  have hcode := ((@straight_movReg fp W t 1 24).append (straight_movReg 24 25)).append (straight_movReg 25 1)
  refine ⟨_, hcode, ((h.setScratchX (by decide) _).setLoopX (by decide) _).setLoopX (by decide) _, ?_⟩
  refine ⟨?_, ?_, ?_, ?_, ?_⟩
  · simp (disch := decide) only [State.x_setX_of_ne, hl.dataset]
  · simp (disch := decide) only [State.getX_of_ne, State.x_setX_of_ne, State.x_setX_same, hl.mx]
    rfl
  · simp (disch := decide) only [State.getX_of_ne, State.x_setX_of_ne, State.x_setX_same, hl.ma]
    rfl
  · simp (disch := decide) only [State.x_setX_of_ne, hl.spAddr0]
    rfl
  · simp (disch := decide) only [State.x_setX_of_ne, hl.spAddr1]
    rfl

/-- A scratch register is no register of the loop. -/
theorem LoopRegs.setScratchX (hl : LoopRegs dataset l t) {n : Nat} (hn : n < 22) (v : Word) :
    LoopRegs dataset l (t.setX n v) :=
  hl.congr fun _ hlo _ => State.x_setX_of_ne (by omega)

theorem emits_prfmReg {rn : Nat} (hrn : rn ≠ 31) (rm : Nat) :
    Emits fp W (prfmReg rn rm) t [t.x rn + t.getX rm] t := by
  refine ⟨straight_prfmReg rn rm, ?_⟩
  simp only [prfmReg, fragmentPrefetches, Inst.prefetches, State.getXSp_of_ne hrn, List.append_nil]

/-- **The prefetch of a dataset item**: the one that `ma` now points to. -/
theorem exists_emitPrefetchLine (h : Sim config base s t) (hl : LoopRegs dataset l t) :
    ∃ t', Emits fp W emitPrefetchLine t [readPtr dataset l.ma] t' ∧ Sim config base s t' ∧
      LoopRegs dataset l t' := by
  have hmask := (@straight_andBitmask fp W t 0 (by decide) 24 _ isEncodable_jitLineMask 1).emits
    (noPrefetch_andBitmask 0 24 _ 1)
  have hprfm := @emits_prfmReg fp (t.setX 0 (t.getX 24 &&& JIT_CACHE_LINE_ALIGN_MASK)) W 22 (by decide) 0
  rw [getX_setX_same (by decide), State.x_setX_of_ne (by decide), State.getX_of_ne (by decide), hl.dataset, hl.ma,
    jit_lineMask] at hprfm
  rw [State.getX_of_ne (by decide), hl.ma, jit_lineMask] at hmask
  exact ⟨_, hmask.append hprfm, h.setScratchX (by decide) _, hl.setScratchX (by decide) _⟩

/-- A block stored to the scratchpad. -/
theorem Sim.writeBlock (h : Sim config base s t) {addr : Nat} (haddr : addr + 64 ≤ SCRATCHPAD_L3_SIZE)
    {w w' : Nat → Word} (hw : ∀ i < 8, w i = w' i) :
    Sim config base (s.putSp (store s.scratchpad addr 64 (blockByte w')))
      (t.writeBlock (base + BitVec.ofNat 64 addr) 8 w) := by
  have hsize : SCRATCHPAD_L3_SIZE ≤ 2 ^ 64 := by decide
  refine Sim.putSp h rfl rfl rfl ((h.pad.writeBlock hsize addr 8 w haddr).congr fun k hk => ?_)
  rw [byteAt_store s.scratchpad addr 64 (blockByte w') hk]
  by_cases hin : addr ≤ k ∧ k < addr + 64
  · rw [if_pos hin, if_pos hin, blockByte, blockByte, hw _ (by omega)]
  · rw [if_neg hin, if_neg hin]

/-- The addresses of a block of the scratchpad. -/
theorem pad_of_block {addr : Nat} (haddr : addr + 64 ≤ SCRATCHPAD_L3_SIZE) {a : Word}
    (ha : InRegion (base + BitVec.ofNat 64 addr) (8 * 8) a) : Pad base a :=
  ha.mono haddr (by decide)

/-- **The store of the integer registers**, to the block at the offset in `x27`. -/
theorem exists_emitStoreR (h : Sim config base s t) (hl : LoopRegs dataset l t)
    (haddr : l.spAddr1.toNat + 64 ≤ SCRATCHPAD_L3_SIZE) :
    ∃ t', Straight fp (Pad base) emitStoreR t t' ∧
      Sim config base (s.putSp (store s.scratchpad l.spAddr1.toNat 64 (blockByte s.rAt))) t' ∧
      LoopRegs dataset l t' := by
  have hadd := @straight_addReg fp (Pad base) t 0 16 27
  rw [State.getX_of_ne (by decide), State.getX_of_ne (by decide), h.resident.base, hl.spAddr1,
    ← BitVec.ofNat_toNat] at hadd
  have h₁ := h.setScratchX (n := 0) (by decide) (base + BitVec.ofNat 64 l.spAddr1.toNat)
  have hx0 : (t.setX 0 (base + BitVec.ofNat 64 l.spAddr1.toNat)).x 0 + BitVec.ofNat 64 0
      = base + BitVec.ofNat 64 l.spAddr1.toNat := by
    rw [State.x_setX_same (by decide)]
    exact BitVec.add_zero _
  have hstore := @straight_strXs fp (Pad base) (t.setX 0 (base + BitVec.ofNat 64 l.spAddr1.toNat)) rReg
    (fun i => i * 8) 8 8 0 0 (fun i _ => Nat.add_comm i 8) (fun i _ => by omega) (by decide) (by decide) (by decide)
    (by rw [hx0]; exact fun a ha => pad_of_block haddr ha) (by decide)
  rw [hx0] at hstore
  refine ⟨_, hadd.append hstore, h₁.writeBlock haddr fun i hi => ?_, ?_⟩
  · rw [Nat.add_comm]
    exact h₁.r i hi
  · exact (hl.setScratchX (n := 0) (by decide) _).congr fun _ _ _ => rfl

/-- **V1's combination of `f` and `e`.** -/
theorem exists_emitXorF (h : Sim config base s t) :
    ∃ t', Straight fp W (emitFor 4 emitXorF) t t' ∧
      Sim config base (s.mapF fun i v => xorF128 v (s.eAt i)) t' := by
  let f : Nat → F128 → F128 := fun i v => xorF128 v (s.eAt i)
  obtain ⟨t', hcode, hsim⟩ := @exists_straight_flatMap fp t W emitXorF 4
    (fun k t' => Sim config base (s.mapFTo f k) t') (by rw [VmState.mapFTo_zero]; exact h) fun k hk t' hsim => by
      have hf := hsim.f k hk
      have he := hsim.e k hk
      have hfk : (s.mapFTo f k).fAt k = s.fAt k := by
        rw [VmState.mapFTo, VmState.fAt_mapF hk, if_neg (Nat.lt_irrefl k)]
      rw [hfk] at hf
      rw [show (s.mapFTo f k).eAt k = s.eAt k from rfl] at he
      have hxor := (@straight_eorV8b fp W t' (fRegs k).1 (fRegs k).1 (eRegs k).1).append
        (straight_eorV8b (fRegs k).2 (fRegs k).2 (eRegs k).2)
      rw [State.d_setD_of_ne (show (fRegs k).2 ≠ (fRegs k).1 by simp only [fRegs]; omega),
        State.d_setD_of_ne (show (eRegs k).2 ≠ (fRegs k).1 by simp only [fRegs, eRegs]; omega), hf.1, hf.2, he.1,
        he.2] at hxor
      refine ⟨_, hxor, ?_⟩
      rw [← VmState.mapFTo_succ f hk]
      exact hsim.setF hk _ _
  rw [VmState.mapFTo_last] at hsim
  exact ⟨t', hcode, hsim⟩

theorem pairOffset_ofNat {k : Nat} (hk : k < 4) :
    pairOffset (BitVec.ofInt 7 (((k * 16 : Nat) : Int).tdiv 8)) = BitVec.ofNat 64 (8 * (2 * k)) := by
  interval_cases k <;> decide

/-- Pairs of registers, stored one after the other. -/
theorem straight_stpFps {b : Nat} (hW : ∀ a, InRegion (t.x 0) (8 * 8) a → W a) :
    Straight fp W (emitFor 4 fun i => stpFpImm (b + i * 2) (b + i * 2 + 1) 0 ((i * 16 : Nat) : Int)) t
      (t.writeBlock (t.x 0) 8 fun i => t.d (b + i)) := by
  have hrun := @straight_flatMap fp W (fun i => stpFpImm (b + i * 2) (b + i * 2 + 1) 0 ((i * 16 : Nat) : Int))
    (fun k => t.writeBlock (t.x 0) (2 * k) fun i => t.d (b + i)) 4 fun k hk => by
      have hlo : (t.x 0 + pairOffset (BitVec.ofInt 7 (((k * 16 : Nat) : Int).tdiv 8)))
          = t.x 0 + BitVec.ofNat 64 (8 * (2 * k)) := by rw [pairOffset_ofNat hk]
      have hhi : t.x 0 + BitVec.ofNat 64 (8 * (2 * k)) + 8 = t.x 0 + BitVec.ofNat 64 (8 * (2 * k + 1)) := by
        rw [BitVec.add_assoc, show (8 : Word) = BitVec.ofNat 64 8 from rfl, ← BitVec.ofNat_add]
        rfl
      refine straight_store rfl rfl ?_ ?_
      · intro c hc
        simp only [Inst.stores, State.getXSp_of_ne (show (0 : Nat) ≠ 31 by decide), State.x_writeBlock, hlo, hhi,
          List.mem_cons, List.not_mem_nil, or_false] at hc
        rcases hc with rfl | rfl
        · exact fun a ha => hW a (ha.mono (by omega) (by decide))
        · exact fun a ha => hW a (ha.mono (by omega) (by decide))
      · simp only [exec, State.getXSp_of_ne (show (0 : Nat) ≠ 31 by decide), State.x_writeBlock,
          State.d_writeBlock, hlo, hhi]
        have hfirst := @State.write_writeBlock t (2 * k) (fun i => t.d (b + i)) (t.x 0) (by omega)
        have hsecond := @State.write_writeBlock t (2 * k + 1) (fun i => t.d (b + i)) (t.x 0) (by omega)
        rw [show b + k * 2 = b + 2 * k by omega, hfirst]
        exact hsecond
  rw [Nat.mul_zero, State.writeBlock_zero] at hrun
  exact hrun

/-- **The store of the `f` registers**, to the block at the offset in `x26`. -/
theorem exists_emitStoreF (h : Sim config base s t) (hl : LoopRegs dataset l t)
    (haddr : l.spAddr0.toNat + 64 ≤ SCRATCHPAD_L3_SIZE) :
    ∃ t', Straight fp (Pad base) emitStoreF t t' ∧
      Sim config base (s.putSp (store s.scratchpad l.spAddr0.toNat 64 (blockByte (fWord s)))) t' ∧
      LoopRegs dataset l t' := by
  have hadd := @straight_addReg fp (Pad base) t 0 16 26
  rw [State.getX_of_ne (by decide), State.getX_of_ne (by decide), h.resident.base, hl.spAddr0,
    ← BitVec.ofNat_toNat] at hadd
  have h₁ := h.setScratchX (n := 0) (by decide) (base + BitVec.ofNat 64 l.spAddr0.toNat)
  have hx0 : (t.setX 0 (base + BitVec.ofNat 64 l.spAddr0.toNat)).x 0 = base + BitVec.ofNat 64 l.spAddr0.toNat :=
    State.x_setX_same (by decide)
  have hstore := @straight_stpFps fp (t.setX 0 (base + BitVec.ofNat 64 l.spAddr0.toNat)) (Pad base) 0
    (by rw [hx0]; exact fun a ha => pad_of_block haddr ha)
  rw [hx0] at hstore
  simp only [Nat.zero_add] at hstore
  refine ⟨_, hadd.append hstore, h₁.writeBlock haddr fun i hi => ?_, ?_⟩
  · obtain ⟨hlo, hhi⟩ := h₁.f (i / 2) (by omega)
    simp only [fRegs] at hlo hhi
    unfold fWord
    split
    · rw [← hlo]
      congr 1
      omega
    · rw [← hhi]
      congr 1
      omega
  · exact (hl.setScratchX (n := 0) (by decide) _).congr fun _ _ _ => rfl

/-- The two blocks that the next iteration starts from, as offsets in the scratchpad. -/
def nextBlocks (config : ProgramConfiguration) (s : VmState) : Nat × Nat :=
  (((spMix config s).setWidth 32 &&& SCRATCHPAD_L3_MASK64).toNat,
    ((spMix config s >>> 32).setWidth 32 &&& SCRATCHPAD_L3_MASK64).toNat)

/-- **The prefetches of two scratchpad blocks.** -/
theorem exists_emitPrefetchBlocks (h : Sim config base s t) (hl : LoopRegs dataset l t) (hconfig : config.WellFormed) :
    ∃ t', Emits fp W (emitPrefetchBlocks config) t
        [base + BitVec.ofNat 64 (nextBlocks config s).1, base + BitVec.ofNat 64 (nextBlocks config s).2] t' ∧
      Sim config base s t' ∧ LoopRegs dataset l t' := by
  obtain ⟨h0, h1, -, -⟩ := hconfig
  -- an address is a half of the mix under the scratchpad mask, and each is prefetched once
  have hmask : ∀ (v : Word) (t : State) (rn : Nat), t.getX rn = v → Emits fp W
      (andBitmask 1 rn JIT_SCRATCHPAD_L3_MASK64 2) t []
      (t.setX 1 (BitVec.ofNat 64 (v.setWidth 32 &&& SCRATCHPAD_L3_MASK64).toNat)) := by
    rintro v t rn rfl
    rw [← and_setWidth, ← jit_scratchpadMask]
    exact (straight_andBitmask (by decide) rn isEncodable_jitScratchpadMask 2).emits (noPrefetch_andBitmask _ _ _ _)
  have hprfm : ∀ (v : Word) (t : State), Sim config base s t →
      Emits fp W (prfmReg 16 1) (t.setX 1 v) [base + v] (t.setX 1 v) := by
    intro v t h
    have hcode := @emits_prfmReg fp (t.setX 1 v) W 16 (by decide) 1
    rwa [State.x_setX_of_ne (by decide), h.resident.base, getX_setX_same (by decide)] at hcode
  have hmix : Emits fp W (eorReg 0 (rReg config.readReg0) (rReg config.readReg1)) t [] (t.setX 0 (spMix config s)) := by
    have hcode := @straight_eorReg fp W t 0 (rReg config.readReg0) (rReg config.readReg1)
    rw [h.getX_rReg h0, h.getX_rReg h1] at hcode
    exact hcode.emits (noPrefetch_single rfl)
  have h₁ := h.setScratchX (n := 0) (by decide) (spMix config s)
  let a0 := BitVec.ofNat 64 (nextBlocks config s).1
  let a1 := BitVec.ofNat 64 (nextBlocks config s).2
  have hmask0 := hmask _ (t.setX 0 (spMix config s)) 0 (getX_setX_same (by decide) _)
  have hprfm0 := hprfm a0 _ h₁
  have h₂ := h₁.setScratchX (n := 1) (by decide) a0
  have hhigh := (@straight_lsrImm fp W ((t.setX 0 (spMix config s)).setX 1 a0) 1 0 32 (by decide)).emits
    (noPrefetch_single rfl)
  rw [getX_setX_of_ne (by decide), getX_setX_same (by decide)] at hhigh
  have h₃ := h₂.setScratchX (n := 1) (by decide) (spMix config s >>> 32)
  have hmask1 := hmask (spMix config s >>> 32)
    (((t.setX 0 (spMix config s)).setX 1 a0).setX 1 (spMix config s >>> 32)) 1 (getX_setX_same (by decide) _)
  have hprfm1 := hprfm a1 _ h₃
  refine ⟨_, ((((hmix.append hmask0).append hprfm0).append hhigh).append hmask1).append hprfm1,
    h₃.setScratchX (by decide) _, ?_⟩
  exact (((hl.setScratchX (by decide) _).setScratchX (by decide) _).setScratchX (by decide) _).setScratchX (by decide) _

theorem exists_emitResetAddresses (h : Sim config base s t) (hl : LoopRegs dataset l t) :
    ∃ t', Straight fp W emitResetAddresses t t' ∧ Sim config base s t' ∧
      LoopRegs dataset { l with spAddr0 := 0, spAddr1 := 0 } t' := by
  have hmovz : ∀ (rd : Nat) (t : State), Straight fp W (movz rd 0 0) t (t.setX rd 0) := fun rd t =>
    (straight_movz (i := 0) 0 (by decide)).eq (by rw [show insertChunk 0 0 0 = 0 by decide])
  refine ⟨_, (hmovz 26 t).append (hmovz 27 _), (h.setLoopX (by decide) _).setLoopX (by decide) _, ?_⟩
  refine ⟨?_, ?_, ?_, ?_, State.x_setX_same (by decide)⟩
  · simp (disch := decide) only [State.x_setX_of_ne, hl.dataset]
  · simp (disch := decide) only [State.x_setX_of_ne, hl.ma]
  · simp (disch := decide) only [State.x_setX_of_ne, hl.mx]
  · simp (disch := decide) only [State.x_setX_of_ne, State.x_setX_same]
    rfl

/-- **`emit_iteration_post` does what `loopTail` says**, and prefetches what the next iteration reads. -/
theorem exists_emitIterationPost (aes : AesRounds) (h : Sim config base s t) (hl : LoopRegs dataset l t)
    (hconfig : config.WellFormed) {dataLine : Line}
    (hline : ∀ i < 8, t.read (readPtr dataset l.ma + BitVec.ofNat 64 (i * 8)) = dataLine[i]?.getD 0)
    (haddr0 : l.spAddr0.toNat + 64 ≤ SCRATCHPAD_L3_SIZE) (haddr1 : l.spAddr1.toNat + 64 ≤ SCRATCHPAD_L3_SIZE) :
    let s' := loopTail aes .V1 l.spAddr0.toNat l.spAddr1.toNat dataLine s
    let l' := nextLoopState config .V1 s l
    ∃ t', Emits fp (Pad base) (emitIterationPost config) t
        [readPtr dataset l'.ma, base + BitVec.ofNat 64 (nextBlocks config s').1,
          base + BitVec.ofNat 64 (nextBlocks config s').2] t' ∧
      Sim config base s' t' ∧ LoopRegs dataset l' t' := by
  intro s' l'
  -- the fragments in their order; each keeps the simulation and the loop's own registers
  obtain ⟨t₁, hreadPtr, h₁, hl₁, hx0⟩ := @exists_emitReadPtr fp _ _ _ _ _ _ (fun _ => False) h hl hconfig
  obtain ⟨t₂, hmix, h₂⟩ := @exists_emitXorR fp _ _ _ _ (Pad base) h₁ 2 0 (by decide) (by decide) (by decide)
    (fun i => dataLine[i]?.getD 0) fun i hi => by
      rw [hx0, ← hline i hi]
      exact State.read_congr (funext fun a => hreadPtr.mem_eq id) _
  have hl₂ := hl₁.bodyKept (kept_of_straight hmix (fits_emitXorR (.inl (by decide)) 0).confined not_isBodyX_31)
  obtain ⟨t₃, hswap, h₃, hl₃⟩ := @exists_emitSwap fp _ _ _ _ _ _ (Pad base) h₂ hl₂
  obtain ⟨t₄, hprefetch, h₄, hl₄⟩ := @exists_emitPrefetchLine fp _ _ _ _ _ _ (Pad base) h₃ hl₃
  obtain ⟨t₅, hstoreR, h₅, hl₅⟩ := @exists_emitStoreR fp _ _ _ _ _ _ h₄ hl₄ haddr1
  obtain ⟨t₆, hxor, h₆⟩ := @exists_emitXorF fp _ _ _ _ (Pad base) h₅
  have hl₆ := hl₅.bodyKept (kept_of_straight hxor (fits_emitFor fun _ => fits_emitXorF).confined not_isBodyX_31)
  obtain ⟨t₇, hstoreF, h₇, hl₇⟩ := @exists_emitStoreF fp _ _ _ _ _ _ h₆ hl₆ haddr0
  obtain ⟨t₈, hblocks, h₈, hl₈⟩ := @exists_emitPrefetchBlocks fp _ _ _ _ _ _ (Pad base) h₇ hl₇ hconfig
  obtain ⟨t₉, hreset, h₉, hl₉⟩ := @exists_emitResetAddresses fp _ _ _ _ _ _ (Pad base) h₈ hl₈
  refine ⟨t₉, ?_, h₉, hl₉⟩
  rw [emitIterationPost_eq]
  have hquiet : NoPrefetch (emitReadPtr config) := (((noPrefetch_andBitmask _ _ _ _).append
    (noPrefetch_single rfl)).append (noPrefetch_single rfl)).append (noPrefetch_single rfl)
  have hquietF : NoPrefetch (emitFor 4 emitXorF) := by decide
  exact ((hreadPtr.mono fun _ => False.elim).emits hquiet).append ((hmix.emits (noPrefetch_emitXorR 2 0)).append
    ((hswap.emits (by decide)).append (hprefetch.append ((hstoreR.emits (by decide)).append ((hxor.emits hquietF).append
      ((hstoreF.emits (by decide)).append (hblocks.append (hreset.emits (by decide)))))))))

end RandomX
end MinerTim
