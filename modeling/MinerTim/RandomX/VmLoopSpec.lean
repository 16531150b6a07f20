import MinerTim.RandomX.ExecuteSpec
import MinerTim.RandomX.VmLoop

/-!
# `RandomX.VmLoopSpec` — what one iteration of the main loop does

The loops over registers inside an iteration are partial, register by register. Here each becomes one
total update of the whole register class (`mapR`, `mapF`, `mapE`) or one store of a 64-byte block
(`storeBlockR`, `storeBlockF`), and an iteration becomes `loopHead`, the body, and `loopTail`
(`iteration_eq`): the two halves that the native loop is compared with, and whose accesses all lie
inside the scratchpad.
-/

namespace MinerTim
namespace RandomX

/-! ## Register loops -/

/-- A loop whose `i`-th step takes `g i` to `g (i + 1)`. -/
theorem forRange_eq {f : Nat → VmState → Option VmState} (g : Nat → VmState) {n : Nat}
    (hstep : ∀ i < n, f i (g i) = some (g (i + 1))) : forRange n f (g 0) = some (g n) := by
  induction n with
  | zero => rfl
  | succ n ih =>
    have := ih fun i hi => hstep i (by omega)
    rw [forRange] at this ⊢
    rw [List.range_succ, List.foldlM_append, this]
    simp [hstep n (by omega)]

namespace VmState

/-- Update every integer register. -/
def mapR (s : VmState) (f : Nat → Word → Word) : VmState :=
  { s with nreg := { s.nreg with r := Vector.ofFn fun j => f j (s.rAt j) } }

/-- Update every `f` register. -/
def mapF (s : VmState) (f : Nat → F128 → F128) : VmState :=
  { s with nreg := { s.nreg with f := Vector.ofFn fun j => f j (s.fAt j) } }

/-- Update every `e` register. -/
def mapE (s : VmState) (f : Nat → F128 → F128) : VmState :=
  { s with nreg := { s.nreg with e := Vector.ofFn fun j => f j (s.eAt j) } }

variable {s : VmState} {i j : Nat}

theorem rAt_mapR (h : j < 8) (f : Nat → Word → Word) : (s.mapR f).rAt j = f j (s.rAt j) := by
  simp [mapR, rAt, h]
theorem fAt_mapF (h : j < 4) (f : Nat → F128 → F128) : (s.mapF f).fAt j = f j (s.fAt j) := by
  simp [mapF, fAt, h]
theorem eAt_mapE (h : j < 4) (f : Nat → F128 → F128) : (s.mapE f).eAt j = f j (s.eAt j) := by
  simp [mapE, eAt, h]

@[simp] theorem fAt_mapR (f : Nat → Word → Word) : (s.mapR f).fAt j = s.fAt j := (rfl)
@[simp] theorem eAt_mapR (f : Nat → Word → Word) : (s.mapR f).eAt j = s.eAt j := (rfl)
@[simp] theorem aAt_mapR (f : Nat → Word → Word) : (s.mapR f).aAt j = s.aAt j := (rfl)
@[simp] theorem rAt_mapF (f : Nat → F128 → F128) : (s.mapF f).rAt j = s.rAt j := (rfl)
@[simp] theorem eAt_mapF (f : Nat → F128 → F128) : (s.mapF f).eAt j = s.eAt j := (rfl)
@[simp] theorem aAt_mapF (f : Nat → F128 → F128) : (s.mapF f).aAt j = s.aAt j := (rfl)
@[simp] theorem rAt_mapE (f : Nat → F128 → F128) : (s.mapE f).rAt j = s.rAt j := (rfl)
@[simp] theorem fAt_mapE (f : Nat → F128 → F128) : (s.mapE f).fAt j = s.fAt j := (rfl)
@[simp] theorem aAt_mapE (f : Nat → F128 → F128) : (s.mapE f).aAt j = s.aAt j := (rfl)
@[simp] theorem scratchpad_mapR (f : Nat → Word → Word) : (s.mapR f).scratchpad = s.scratchpad := (rfl)
@[simp] theorem scratchpad_mapF (f : Nat → F128 → F128) : (s.mapF f).scratchpad = s.scratchpad := (rfl)
@[simp] theorem scratchpad_mapE (f : Nat → F128 → F128) : (s.mapE f).scratchpad = s.scratchpad := (rfl)
@[simp] theorem ctl_mapR (f : Nat → Word → Word) : (s.mapR f).ctl = s.ctl := (rfl)
@[simp] theorem ctl_mapF (f : Nat → F128 → F128) : (s.mapF f).ctl = s.ctl := (rfl)
@[simp] theorem ctl_mapE (f : Nat → F128 → F128) : (s.mapE f).ctl = s.ctl := (rfl)

/-- Machine states are equal when everything they hold is. -/
theorem ext_of {s s' : VmState} (hr : ∀ j < 8, s.rAt j = s'.rAt j)
    (hf : ∀ j < 4, s.fAt j = s'.fAt j) (he : ∀ j < 4, s.eAt j = s'.eAt j)
    (ha : ∀ j < 4, s.aAt j = s'.aAt j) (hsp : s.scratchpad = s'.scratchpad) (hctl : s.ctl = s'.ctl) :
    s = s' := by
  obtain ⟨⟨r, f, e, a⟩, sp, ctl⟩ := s
  obtain ⟨⟨r', f', e', a'⟩, sp', ctl'⟩ := s'
  have hr' : r = r' := Vector.ext fun j hj => by simpa [rAt, hj] using hr j hj
  have hf' : f = f' := Vector.ext fun j hj => by simpa [fAt, hj] using hf j hj
  have he' : e = e' := Vector.ext fun j hj => by simpa [eAt, hj] using he j hj
  have ha' : a = a' := Vector.ext fun j hj => by simpa [aAt, hj] using ha j hj
  obtain rfl : sp = sp' := hsp
  obtain rfl : ctl = ctl' := hctl
  rw [hr', hf', he', ha']

theorem mk_eq_putSp (sp : Scratchpad) : VmState.mk s.nreg sp s.ctl = s.putSp sp := (rfl)
@[simp] theorem nreg_putSp (sp : Scratchpad) : (s.putSp sp).nreg = s.nreg := (rfl)

/-- The first `k` integer registers updated. -/
def mapRTo (s : VmState) (f : Nat → Word → Word) (k : Nat) : VmState :=
  s.mapR fun j v => if j < k then f j v else v

/-- The first `k` `f` registers updated. -/
def mapFTo (s : VmState) (f : Nat → F128 → F128) (k : Nat) : VmState :=
  s.mapF fun j v => if j < k then f j v else v

/-- The first `k` `e` registers updated. -/
def mapETo (s : VmState) (f : Nat → F128 → F128) (k : Nat) : VmState :=
  s.mapE fun j v => if j < k then f j v else v

section

variable (f : Nat → Word → Word)

theorem mapRTo_zero : s.mapRTo f 0 = s :=
  ext_of (fun j hj => by rw [mapRTo, rAt_mapR hj, if_neg (Nat.not_lt_zero j)]) (fun _ _ => rfl)
    (fun _ _ => rfl) (fun _ _ => rfl) rfl rfl

/-- One more register. -/
theorem mapRTo_succ (h : i < 8) : (s.mapRTo f i).putR i (f i (s.rAt i)) = s.mapRTo f (i + 1) := by
  refine ext_of (fun j hj => ?_) (fun _ _ => fAt_putR _) (fun _ _ => eAt_putR _) (fun _ _ => aAt_putR _) rfl rfl
  rw [rAt_putR h, mapRTo, mapRTo, rAt_mapR hj, rAt_mapR hj]
  by_cases hji : j = i
  · rw [if_pos hji, if_pos (by omega), hji]
  · simp only [if_neg hji, show j < i + 1 ↔ j < i by omega]

theorem mapRTo_last : s.mapRTo f 8 = s.mapR f :=
  ext_of (fun j hj => by rw [mapRTo, rAt_mapR hj, rAt_mapR hj, if_pos hj]) (fun _ _ => rfl)
    (fun _ _ => rfl) (fun _ _ => rfl) rfl rfl

end

section

variable (f : Nat → F128 → F128)

theorem mapFTo_zero : s.mapFTo f 0 = s :=
  ext_of (fun _ _ => rfl) (fun j hj => by rw [mapFTo, fAt_mapF hj, if_neg (Nat.not_lt_zero j)])
    (fun _ _ => rfl) (fun _ _ => rfl) rfl rfl

theorem mapFTo_succ (h : i < 4) : (s.mapFTo f i).putF i (f i (s.fAt i)) = s.mapFTo f (i + 1) := by
  refine ext_of (fun _ _ => rfl) (fun j hj => ?_) (fun _ _ => rfl) (fun _ _ => rfl) rfl rfl
  rw [fAt_putF h, mapFTo, mapFTo, fAt_mapF hj, fAt_mapF hj]
  by_cases hji : j = i
  · rw [if_pos hji, if_pos (by omega), hji]
  · simp only [if_neg hji, show j < i + 1 ↔ j < i by omega]

theorem mapFTo_last : s.mapFTo f 4 = s.mapF f :=
  ext_of (fun _ _ => rfl) (fun j hj => by rw [mapFTo, fAt_mapF hj, fAt_mapF hj, if_pos hj])
    (fun _ _ => rfl) (fun _ _ => rfl) rfl rfl

theorem mapETo_zero : s.mapETo f 0 = s :=
  ext_of (fun _ _ => rfl) (fun _ _ => rfl)
    (fun j hj => by rw [mapETo, eAt_mapE hj, if_neg (Nat.not_lt_zero j)]) (fun _ _ => rfl) rfl rfl

theorem mapETo_succ (h : i < 4) : (s.mapETo f i).putE i (f i (s.eAt i)) = s.mapETo f (i + 1) := by
  refine ext_of (fun _ _ => rfl) (fun _ _ => rfl) (fun j hj => ?_) (fun _ _ => rfl) rfl rfl
  rw [eAt_putE h, mapETo, mapETo, eAt_mapE hj, eAt_mapE hj]
  by_cases hji : j = i
  · rw [if_pos hji, if_pos (by omega), hji]
  · simp only [if_neg hji, show j < i + 1 ↔ j < i by omega]

theorem mapETo_last : s.mapETo f 4 = s.mapE f :=
  ext_of (fun _ _ => rfl) (fun _ _ => rfl)
    (fun j hj => by rw [mapETo, eAt_mapE hj, eAt_mapE hj, if_pos hj]) (fun _ _ => rfl) rfl rfl

end

end VmState

open VmState

/-- A loop that updates the integer registers one by one. -/
theorem forRange_mapR {f : Nat → VmState → Option VmState} {s : VmState} (h : Nat → Word → Word)
    (hstep : ∀ i < 8, ∀ g : Nat → Word → Word, g i (s.rAt i) = s.rAt i →
      f i (s.mapR g) = some ((s.mapR g).putR i (h i (s.rAt i)))) :
    forRange REGISTERS_COUNT f s = some (s.mapR h) := by
  have hrun := forRange_eq (f := f) (n := 8) (s.mapRTo h) fun i hi =>
    (hstep i hi _ (if_neg (Nat.lt_irrefl i))).trans (congrArg some (mapRTo_succ h hi))
  rw [mapRTo_zero, mapRTo_last] at hrun
  exact hrun

/-- A loop that updates the `f` registers one by one. -/
theorem forRange_mapF {f : Nat → VmState → Option VmState} {s : VmState} (h : Nat → F128 → F128)
    (hstep : ∀ i < 4, ∀ g : Nat → F128 → F128, g i (s.fAt i) = s.fAt i →
      f i (s.mapF g) = some ((s.mapF g).putF i (h i (s.fAt i)))) :
    forRange REGISTER_COUNT_FLT f s = some (s.mapF h) := by
  have hrun := forRange_eq (f := f) (n := 4) (s.mapFTo h) fun i hi =>
    (hstep i hi _ (if_neg (Nat.lt_irrefl i))).trans (congrArg some (mapFTo_succ h hi))
  rw [mapFTo_zero, mapFTo_last] at hrun
  exact hrun

/-- A loop that updates the `e` registers one by one. -/
theorem forRange_mapE {f : Nat → VmState → Option VmState} {s : VmState} (h : Nat → F128 → F128)
    (hstep : ∀ i < 4, ∀ g : Nat → F128 → F128, g i (s.eAt i) = s.eAt i →
      f i (s.mapE g) = some ((s.mapE g).putE i (h i (s.eAt i)))) :
    forRange REGISTER_COUNT_FLT f s = some (s.mapE h) := by
  have hrun := forRange_eq (f := f) (n := 4) (s.mapETo h) fun i hi =>
    (hstep i hi _ (if_neg (Nat.lt_irrefl i))).trans (congrArg some (mapETo_succ h hi))
  rw [mapETo_zero, mapETo_last] at hrun
  exact hrun

/-! ## Stores of a block -/

/-- Doubleword `k` of the `f` registers. -/
def fWord (s : VmState) (k : Nat) : Word :=
  if k % 2 = 0 then (s.fAt (k / 2)).1 else (s.fAt (k / 2)).2

theorem storeR_eq (s : VmState) {addr : Nat} (h : addr + 64 ≤ SCRATCHPAD_L3_SIZE) :
    storeR s addr = some (s.putSp (store s.scratchpad addr 64 (blockByte s.rAt))) := by
  have hrun := forRange_eq (n := 8) (f := fun i s => do
      return { s with scratchpad := ← store64 s.scratchpad (addr + 8 * i) (← s.getR i) })
    (fun i => s.putSp (store s.scratchpad addr (8 * i) (blockByte s.rAt))) fun i hi => by
      simp only [getR_eq hi, Option.bind_eq_bind, Option.bind_some, scratchpad_putSp, rAt_putSp,
        store64_eq _ _ (show addr + 8 * i + 8 ≤ SCRATCHPAD_L3_SIZE by omega), store_blockByte,
        nreg_putSp, ctl_putSp, mk_eq_putSp, Option.pure_def]
  rw [store_zero] at hrun
  exact hrun

theorem storeF_eq (s : VmState) {addr : Nat} (h : addr + 64 ≤ SCRATCHPAD_L3_SIZE) :
    storeF s addr = some (s.putSp (store s.scratchpad addr 64 (blockByte (fWord s)))) := by
  have hrun := forRange_eq (n := 4) (f := fun i s => do
      return { s with scratchpad := ← storeF128 s.scratchpad (addr + 16 * i) (← s.nreg.getF i) })
    (fun i => s.putSp (store s.scratchpad addr (8 * (2 * i)) (blockByte (fWord s)))) fun i hi => by
      have hlo := store_blockByte s.scratchpad addr (2 * i) (fWord s)
      have hhi := store_blockByte s.scratchpad addr (2 * i + 1) (fWord s)
      rw [show 2 * i + 1 + 1 = 2 * (i + 1) by omega, ← hlo,
        show addr + 8 * (2 * i + 1) = addr + 16 * i + 8 by omega,
        show addr + 8 * (2 * i) = addr + 16 * i by omega] at hhi
      simp only [getF_eq hi, Option.bind_eq_bind, Option.bind_some, scratchpad_putSp, storeF128,
        store64_eq _ _ (show addr + 16 * i + 8 ≤ SCRATCHPAD_L3_SIZE by omega),
        store64_eq _ _ (show addr + 16 * i + 8 + 8 ≤ SCRATCHPAD_L3_SIZE by omega), nreg_putSp,
        ctl_putSp, mk_eq_putSp, Option.pure_def, ← hhi]
      simp only [fWord, Nat.mul_mod_right, if_true, show (2 * i + 1) % 2 ≠ 0 by omega, if_false,
        show 2 * i / 2 = i by omega, show (2 * i + 1) / 2 = i by omega]
  simp only [Nat.mul_zero, store_zero] at hrun
  exact hrun

/-! ## Loads -/

variable {fp : FpUnit} {aes : AesRounds} {version : RxVersion}

theorem loadR_eq (s : VmState) {addr : Nat} (h : addr + 64 ≤ SCRATCHPAD_L3_SIZE) :
    loadR s addr = some (s.mapR fun j v => v ^^^ spWord s.scratchpad (addr + 8 * j)) := by
  refine forRange_mapR _ fun i hi g hg => ?_
  simp only [getR_eq hi, Option.bind_eq_bind, Option.bind_some, scratchpad_mapR, rAt_mapR hi, hg,
    load64_eq _ (show addr + 8 * i + 8 ≤ SCRATCHPAD_L3_SIZE by omega), setR_eq hi]

theorem loadF_eq (s : VmState) {addr : Nat} (h : addr + 64 ≤ SCRATCHPAD_L3_SIZE) :
    loadF fp s addr = some (s.mapF fun j _ => spPair fp s.ctl s.scratchpad (addr + 8 * j)) := by
  refine forRange_mapF _ fun i hi g _ => ?_
  simp only [scratchpad_mapF, ctl_mapF, Option.bind_eq_bind, Option.bind_some, setF_eq hi,
    cvtPackedIntVecF128_eq _ _ (show addr + 8 * i + 8 ≤ SCRATCHPAD_L3_SIZE by omega)]

theorem loadE_eq (config : ProgramConfiguration) (s : VmState) {addr : Nat}
    (h : addr + 64 ≤ SCRATCHPAD_L3_SIZE) :
    loadE fp config s addr = some (s.mapE fun j _ =>
      maskRegisterExponentMantissa config (spPair fp s.ctl s.scratchpad (addr + 8 * (4 + j)))) := by
  refine forRange_mapE _ fun i hi g _ => ?_
  have hlt : REGISTER_COUNT_FLT = 4 := rfl
  simp only [scratchpad_mapE, ctl_mapE, Option.bind_eq_bind, Option.bind_some, setE_eq hi, hlt,
    cvtPackedIntVecF128_eq _ _ (show addr + 8 * (4 + i) + 8 ≤ SCRATCHPAD_L3_SIZE by omega)]

theorem mixDatasetLine_eq (s : VmState) (l : Line) :
    mixDatasetLine s l = some (s.mapR fun j v => v ^^^ l[j]?.getD 0) := by
  refine forRange_mapR _ fun i hi g hg => ?_
  have hl : l[i]? = some (l[i]?.getD 0) := by simp [hi]
  rw [hl]
  simp only [getR_eq hi, Option.bind_eq_bind, Option.bind_some, rAt_mapR hi, hg, setR_eq hi,
    Option.getD_some]

theorem xorFE_eq (s : VmState) : xorFE s = some (s.mapF fun j v => xorF128 v (s.eAt j)) := by
  refine forRange_mapF _ fun i hi g hg => ?_
  simp only [getF_eq hi, getE_eq hi, Option.bind_eq_bind, Option.bind_some, fAt_mapF hi, hg,
    setF_eq hi, eAt_mapF]

/-! ## One iteration -/

/-- The four address registers are integer registers. -/
def ProgramConfiguration.WellFormed (config : ProgramConfiguration) : Prop :=
  config.readReg0 < 8 ∧ config.readReg1 < 8 ∧ config.readReg2 < 8 ∧ config.readReg3 < 8

/-- The XOR of the two registers that pick the scratchpad blocks. -/
def spMix (config : ProgramConfiguration) (s : VmState) : Word :=
  s.rAt config.readReg0 ^^^ s.rAt config.readReg1

/-- The block the integer registers are loaded from and `f` is stored to. -/
def spAddr0 (config : ProgramConfiguration) (s : VmState) (l : LoopState) : BitVec 32 :=
  (l.spAddr0 ^^^ (spMix config s).setWidth 32) &&& SCRATCHPAD_L3_MASK64

/-- The block `f` and `e` are loaded from and the integer registers are stored to. -/
def spAddr1 (config : ProgramConfiguration) (s : VmState) (l : LoopState) : BitVec 32 :=
  (l.spAddr1 ^^^ (spMix config s >>> 32).setWidth 32) &&& SCRATCHPAD_L3_MASK64

/-- The dataset item of an iteration. -/
def itemNumber (datasetOffset : Word) (memMa : BitVec 32) : Word :=
  readPtr datasetOffset memMa / BitVec.ofNat 64 CACHE_LINE_SIZE

/-- The state in which the body is executed. -/
def loopHead (fp : FpUnit) (config : ProgramConfiguration) (addr0 addr1 : Nat) (s : VmState) :
    VmState :=
  ((s.mapR fun j v => v ^^^ spWord s.scratchpad (addr0 + 8 * j)).mapF fun j _ =>
    spPair fp s.ctl s.scratchpad (addr1 + 8 * j)).mapE fun j _ =>
      maskRegisterExponentMantissa config (spPair fp s.ctl s.scratchpad (addr1 + 8 * (4 + j)))

/-- The registers after f and e are combined. -/
def combined (aes : AesRounds) (version : RxVersion) (s : VmState) : VmState :=
  match version with
  | .V1 => s.mapF fun j v => xorF128 v (s.eAt j)
  | .V2 => { s with nreg := aesMixFE aes s.nreg }

/-- What an iteration does after the body. -/
def loopTail (aes : AesRounds) (version : RxVersion) (addr0 addr1 : Nat) (l : Line) (s : VmState) :
    VmState :=
  let s := s.mapR fun j v => v ^^^ l[j]?.getD 0
  let s := s.putSp (store s.scratchpad addr1 64 (blockByte s.rAt))
  let s := combined aes version s
  s.putSp (store s.scratchpad addr0 64 (blockByte (fWord s)))

/-- The loop-carried state after an iteration whose body ended in `s`. -/
def nextLoopState (config : ProgramConfiguration) (version : RxVersion) (s : VmState)
    (l : LoopState) : LoopState :=
  let spMix2 := (s.rAt config.readReg2 ^^^ s.rAt config.readReg3).setWidth 32
  match version with
  | .V1 => { ma := l.mx ^^^ spMix2, mx := l.ma, spAddr0 := 0, spAddr1 := 0 }
  | .V2 => { ma := l.mx, mx := l.ma ^^^ spMix2, spAddr0 := 0, spAddr1 := 0 }

/-- A block selected by the 64-byte mask lies inside the scratchpad. -/
theorem and_mask64_le (x : BitVec 32) :
    (x &&& SCRATCHPAD_L3_MASK64).toNat + 64 ≤ SCRATCHPAD_L3_SIZE := by
  have hmask : SCRATCHPAD_L3_MASK64.toNat = 2097088 := by decide
  have hle : (x &&& SCRATCHPAD_L3_MASK64).toNat ≤ 2097088 := by
    rw [BitVec.toNat_and, ← hmask]
    exact Nat.and_le_right
  have hsize : SCRATCHPAD_L3_SIZE = 2097152 := rfl
  omega

theorem combineFE_eq (s : VmState) : combineFE aes version s = some (combined aes version s) := by
  cases version with
  | V1 => exact xorFE_eq s
  | V2 => rfl

/-- An iteration is its head, the body, the dataset item and its tail, whether they exist or not. -/
theorem iteration_eq_bind {params : ProgramParams} {body : VmState → Option VmState} {line : Word → Option Line}
    (hconfig : params.config.WellFormed) (s : VmState) (l : LoopState) :
    iteration fp aes version params body line s l
      = (body (loopHead fp params.config (spAddr0 params.config s l).toNat (spAddr1 params.config s l).toNat s)).bind
          fun s' => (line (itemNumber params.datasetOffset l.ma)).map fun dataLine =>
            (loopTail aes version (spAddr0 params.config s l).toNat (spAddr1 params.config s l).toNat dataLine s',
              nextLoopState params.config version s' l) := by
  obtain ⟨h0, h1, h2, h3⟩ := hconfig
  have ha0 := and_mask64_le (l.spAddr0 ^^^ (spMix params.config s).setWidth 32)
  have ha1 := and_mask64_le (l.spAddr1 ^^^ (spMix params.config s >>> 32).setWidth 32)
  unfold iteration loopHead spAddr0 spAddr1 itemNumber
  simp only [VmState.getR_eq h0, VmState.getR_eq h1, Option.bind_eq_bind, Option.bind_some]
  rw [← spMix, loadR_eq s ha0, Option.bind_some, loadF_eq _ ha1, Option.bind_some, loadE_eq _ _ ha1, Option.bind_some]
  simp only [VmState.scratchpad_mapF, VmState.scratchpad_mapR, VmState.ctl_mapF, VmState.ctl_mapR]
  congr 1
  funext s'
  simp only [VmState.getR_eq h2, VmState.getR_eq h3, Option.bind_some]
  cases version <;>
    cases line (readPtr params.datasetOffset l.ma / BitVec.ofNat 64 CACHE_LINE_SIZE) with
    | none => rfl
    | some dataLine =>
      simp only [Option.bind_some, mixDatasetLine_eq, storeR_eq _ ha1, combineFE_eq, storeF_eq _ ha0]
      rfl

/-- **An iteration is its head, the body and its tail**, as long as the body runs to its end and the
    dataset has the item. -/
theorem iteration_eq {params : ProgramParams} {body : VmState → Option VmState}
    {line : Word → Option Line} (hconfig : params.config.WellFormed) {s s' : VmState} {l : LoopState}
    {dataLine : Line}
    (hbody : body (loopHead fp params.config (spAddr0 params.config s l).toNat
      (spAddr1 params.config s l).toNat s) = some s')
    (hline : line (itemNumber params.datasetOffset l.ma) = some dataLine) :
    iteration fp aes version params body line s l
      = some (loopTail aes version (spAddr0 params.config s l).toNat
          (spAddr1 params.config s l).toNat dataLine s',
          nextLoopState params.config version s' l) := by
  rw [iteration_eq_bind hconfig, hbody, Option.bind_some, hline]
  rfl

end RandomX
end MinerTim
