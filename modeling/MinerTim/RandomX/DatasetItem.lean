import MinerTim.RandomX.IsaSpec
import MinerTim.RandomX.SuperscalarSpec

/-!
# `RandomX.DatasetItem` — what a dataset item is

An item is eight registers, mixed eight times: a program of SuperscalarHash runs on them, and a line of the cache is
taken in. The instructions are operations of the machine of `RandomX.Isa` on registers and constants (`Instr`), the
cache is an array of lines, and the register that a program names picks the next line (`access`).

`init_dataset_item` computes the item (`initDatasetItem_eq`), for a full cache and programs as `generate_superscalar`
makes them: an instruction of the source does what the instruction it stands for does (`execute_eq`), and so on up.
-/

namespace MinerTim
namespace RandomX
namespace DatasetItem

open Isa Superscalar

/-! ## Programs -/

/-- The eight registers. -/
abbrev Registers := Fin 8 → Word

/-- An instruction of SuperscalarHash. -/
inductive Instr where
  | int (op : IntOp) (dst src : Fin 8)
  | const (op : IntOp) (dst : Fin 8) (c : Word)
  /-- Add a shifted register. -/
  | lea (dst src : Fin 8) (shift : Nat)
deriving DecidableEq, Repr

/-- The registers after an instruction. -/
def Instr.exec (r : Registers) : Instr → Registers
  | .int op dst src => Function.update r dst (op.denote (r dst) (r src))
  | .const op dst c => Function.update r dst (op.denote (r dst) c)
  | .lea dst src shift => Function.update r dst (r dst + r src <<< shift)

/-- A program, and the register that picks the next line of the cache. -/
structure Program where
  instructions : List Instr
  address : Fin 8

/-- The instruction that the fields of an instruction encode. -/
def decode (inst : SuperscalarInstruction) : Instr :=
  let dst : Fin 8 := ⟨inst.dst.toNat % 8, Nat.mod_lt _ (by decide)⟩
  let src : Fin 8 := ⟨inst.src.toNat % 8, Nat.mod_lt _ (by decide)⟩
  let imm := inst.imm32.signExtend 64
  match inst.opcode.toNat with
  | 0 => .int .sub dst src
  | 1 => .int .xor dst src
  | 2 => .lea dst src (inst.mod_.toNat / 4 % 4)
  | 3 => .int .mul dst src
  | 4 => .const .ror dst (inst.imm32.setWidth 64)
  | 5 | 7 | 9 => .const .add dst imm
  | 6 | 8 | 10 => .const .xor dst imm
  | 11 => .int .mulh dst src
  | 12 => .int .smulh dst src
  | _ => .const .mul dst (Isa.reciprocal inst.imm32.toNat)

/-- The program that the bytes of a program stand for. -/
def programOf (prog : SuperscalarProgram) : Program where
  instructions := prog.instructions.map decode
  address := ⟨prog.addressRegister % 8, Nat.mod_lt _ (by decide)⟩

/-! ## Items -/

/-- The number of lines of the cache. -/
abbrev CACHE_LINES : Nat := CACHE_SIZE / 64

/-- The lines of a cache. -/
def cacheLines (memory : List Byte) (i : Fin CACHE_LINES) : Registers :=
  fun q => leWord fun k => memory.getD (64 * i + 8 * q + k) 0

/-- The line a register picks: numbers wrap around. -/
def lineAt (v : Word) : Fin CACHE_LINES := ⟨v.toNat % CACHE_LINES, Nat.mod_lt _ (by decide)⟩

/-- The registers of an item before the first program. -/
def start (k : Nat) : Registers := fun q =>
  let first := BitVec.ofNat 64 (k + 1) * SUPERSCALAR_MUL0
  if q.val = 0 then first else first ^^^ SUPERSCALAR_ADD.toList.getD (q - 1) 0

/-- One access to the cache: run a program, take a line in, and pick the next one. -/
def access (cache : Fin CACHE_LINES → Registers) (c : Registers × Word) (prog : Program) : Registers × Word :=
  let r := prog.instructions.foldl Instr.exec c.1
  let r : Registers := fun q => r q ^^^ cache (lineAt c.2) q
  (r, r prog.address)

/-- **Item `k` of the dataset.** -/
def item (cache : Fin CACHE_LINES → Registers) (programs : List Program) (k : Nat) : Registers :=
  (programs.foldl (access cache) (start k, BitVec.ofNat 64 k)).1

/-! ## The source computes the items -/

/-- The registers of a line. -/
def registers (r : Line) : Registers := r.get

theorem registers_mk (r : Line) {q : Nat} (hq : q < 8) : registers r ⟨q, hq⟩ = r[q] := rfl

theorem registers_injective : Function.Injective registers := by
  intro r r' h
  apply Vector.ext
  intro q hq
  exact congrFun h ⟨q, hq⟩

theorem registers_set (r : Line) (dst : Fin 8) (v : Word) :
    registers (r.set dst v dst.isLt) = Function.update (registers r) dst v := by
  funext ⟨q, hq⟩
  rw [Function.update_apply, registers_mk, Vector.getElem_set]
  simp only [Fin.ext_iff, eq_comm (a := q), registers_mk]

theorem modify_eq (r : Line) {dst : Nat} (h : dst < 8) (f : Word → Word) :
    (r.modify dst f).map registers
      = some (Function.update (registers r) ⟨dst, h⟩ (f (registers r ⟨dst, h⟩))) := by
  simp only [Line.modify, Line.put, Vector.getElem?_eq_getElem h, Option.bind_eq_bind, Option.bind_some, dif_pos h,
    Option.map_some]
  exact congrArg some (registers_set r ⟨dst, h⟩ _)

/-- **An instruction** does what the instruction it stands for does. -/
theorem execute_eq {inst : SuperscalarInstruction} (h : WellFormed inst) (r : Line) :
    (executeSuperscalarInstruction r inst).map registers = some ((decode inst).exec (registers r)) := by
  have hdst : inst.dst.toNat % 8 = inst.dst.toNat := Nat.mod_eq_of_lt h.dst
  have hsrc : inst.src.toNat % 8 = inst.src.toNat := Nat.mod_eq_of_lt h.src
  have hs : r[inst.src.toNat]? = some (registers r ⟨inst.src.toNat, h.src⟩) := Vector.getElem?_eq_getElem h.src
  have hshift : (inst.mod_ >>> 2).toNat % 4 = inst.mod_.toNat / 4 % 4 := by
    rw [BitVec.toNat_ushiftRight, Nat.shiftRight_eq_div_pow]
  have hrotate : inst.opcode.toNat = 4 → ∀ x : Word, x.rotateRight inst.imm32.toNat
      = IntOp.ror.denote x (inst.imm32.setWidth 64) := by
    intro hop x
    have hcount := (h.rotateCount hop).2
    rw [IntOp.denote, BitVec.toNat_setWidth, Nat.mod_eq_of_lt (a := inst.imm32.toNat) (by omega),
      Nat.mod_eq_of_lt (by omega)]
  have hreciprocal : inst.opcode.toNat = 13 →
      inst.imm32 ≠ 0 ∧ randomxReciprocal inst.imm32 = Isa.reciprocal inst.imm32.toNat := by
    intro hop
    obtain ⟨hne, hpow⟩ := h.divisor hop
    exact ⟨hne, randomxReciprocal_of_exact (randomxReciprocalExact_eq ⟨hne, hpow⟩)⟩
  have hmodify := fun f => modify_eq r h.dst f
  have hopcode := h.opcode
  unfold executeSuperscalarInstruction decode
  simp only [hdst, hsrc, hs, hshift, Option.bind_eq_bind, Option.bind_some]
  generalize inst.opcode.toNat = op at hopcode hrotate hreciprocal ⊢
  -- one case for each opcode
  interval_cases op
  case «4» =>
    refine (hmodify fun x => x.rotateRight inst.imm32.toNat).trans ?_
    rw [hrotate rfl]
    rfl
  case «11» =>
    refine (hmodify fun x => mulh x _).trans ?_
    rw [mulh_eq]
    rfl
  case «12» =>
    refine (hmodify fun x => smulh x _).trans ?_
    rw [smulh_eq]
    rfl
  case «13» =>
    obtain ⟨hne, hvalue⟩ := hreciprocal rfl
    show Option.map registers (if inst.imm32 = 0 then none else r.modify _ (· * randomxReciprocal inst.imm32)) = _
    rw [if_neg hne, hmodify, hvalue]
    rfl
  all_goals exact hmodify _

/-- A fold of steps that return what a total step computes. -/
theorem foldlM_map_eq {α β γ : Type} {f : β → α → Option β} {π : β → γ} {g : γ → α → γ} {l : List α}
    (h : ∀ a ∈ l, ∀ b, (f b a).map π = some (g (π b) a)) (b : β) : (l.foldlM f b).map π = some (l.foldl g (π b)) := by
  induction l generalizing b with
  | nil => rfl
  | cons a l ih =>
    obtain ⟨b', hb', heq⟩ := Option.map_eq_some_iff.mp (h a List.mem_cons_self b)
    rw [List.foldlM_cons, List.foldl_cons, hb', ← heq]
    exact ih (fun a ha => h a (List.mem_cons_of_mem _ ha)) b'

/-- **A program.** -/
theorem executeSuperscalar_eq {prog : SuperscalarProgram} (h : ProgramWellFormed prog) (r : Line) :
    (executeSuperscalar r prog).map registers =
      some ((programOf prog).instructions.foldl Instr.exec (registers r)) := by
  rw [programOf, List.foldl_map]
  exact foldlM_map_eq (fun inst hinst r => execute_eq (h.instructions inst hinst) r) r

/-- The line that a register picks starts at a multiple of 64. -/
theorem getMixBlockOffset_eq (v : Word) : getMixBlockOffset v = 64 * (lineAt v).val := by
  have hmask : CACHE_LINE_MASK.toNat = 2 ^ 22 - 1 := by decide
  rw [getMixBlockOffset, BitVec.toNat_and, hmask, Nat.and_two_pow_sub_one_eq_mod, Nat.mul_comm]
  rfl

/-- The registers after the first `n` doublewords of a cache line are taken in. -/
theorem foldlM_mix_eq {memory : List Byte} (hmemory : CACHE_SIZE ≤ memory.length) (v : Word) (r : Line) {n : Nat}
    (hn : n ≤ 8) :
    ((List.range n).foldlM (fun rl q => do
        let w ← load64Native memory (getMixBlockOffset v + 8 * q)
        Line.modify rl q (· ^^^ w)) r).map registers
      = some fun q => if q.val < n then registers r q ^^^ cacheLines memory (lineAt v) q else registers r q := by
  induction n with
  | zero => simp
  | succ n ih =>
    obtain ⟨r', hr', hregs⟩ := Option.map_eq_some_iff.mp (ih (by omega))
    have hload : load64Native memory (getMixBlockOffset v + 8 * n)
        = some (cacheLines memory (lineAt v) ⟨n, by omega⟩) := by
      have hline := getMixBlockOffset_le v
      rw [load64Native, if_pos (by omega), getMixBlockOffset_eq]
      rfl
    rw [List.range_succ, List.foldlM_append, hr']
    simp only [List.foldlM_cons, List.foldlM_nil, hload, Option.bind_eq_bind, Option.bind_some]
    refine (congrArg (Option.map registers) (Option.bind_fun_some _)).trans ?_
    rw [modify_eq r' (show n < 8 by omega), hregs]
    refine congrArg some (funext fun q => ?_)
    rw [Function.update_apply]
    by_cases hq : q.val = n
    · have heq : q = ⟨n, by omega⟩ := Fin.ext hq
      rw [if_pos heq, heq]
      simp
    · rw [if_neg fun heq => hq (congrArg Fin.val heq)]
      simp only [show q.val < n + 1 ↔ q.val < n by omega]

theorem mixCacheLine_eq {memory : List Byte} (hmemory : CACHE_SIZE ≤ memory.length) (v : Word) (r : Line) :
    (mixCacheLine memory (getMixBlockOffset v) r).map registers
      = some fun q => registers r q ^^^ cacheLines memory (lineAt v) q := by
  have hlast := foldlM_mix_eq hmemory v r (le_refl 8)
  simp only [Fin.isLt, if_true] at hlast
  exact hlast

/-- **An access to the cache.** -/
theorem cacheAccess_eq {memory : List Byte} (hmemory : CACHE_SIZE ≤ memory.length) {prog : SuperscalarProgram}
    (h : ProgramWellFormed prog) (c : Line × Word) :
    (cacheAccess memory c prog).map (fun c => (registers c.1, c.2))
      = some (access (cacheLines memory) (registers c.1, c.2) (programOf prog)) := by
  obtain ⟨r₁, hr₁, hregs₁⟩ := Option.map_eq_some_iff.mp (executeSuperscalar_eq h c.1)
  obtain ⟨r₂, hr₂, hregs₂⟩ := Option.map_eq_some_iff.mp (mixCacheLine_eq hmemory c.2 r₁)
  have haddress : r₂[prog.addressRegister]? = some (registers r₂ ⟨prog.addressRegister, h.address⟩) :=
    Vector.getElem?_eq_getElem h.address
  have hpicked : (programOf prog).address = ⟨prog.addressRegister, h.address⟩ :=
    Fin.ext (Nat.mod_eq_of_lt h.address)
  simp only [cacheAccess, hr₁, hr₂, haddress, Option.bind_eq_bind, Option.bind_some, Option.pure_def, Option.map_some,
    access, ← hregs₁, hpicked]
  rw [hregs₂]

theorem registers_initialLine (k : Nat) : registers (initialLine (BitVec.ofNat 64 k)) = start k := by
  have hsucc : BitVec.ofNat 64 k + 1 = BitVec.ofNat 64 (k + 1) := (BitVec.ofNat_add k 1).symm
  funext ⟨q, hq⟩
  simp only [registers_mk, initialLine, Vector.getElem_ofFn, start, hsucc]

/-- **`init_dataset_item` computes the item.** -/
theorem initDatasetItem_eq {memory : List Byte} (hmemory : CACHE_SIZE ≤ memory.length)
    {programs : Vector SuperscalarProgram 8} (hprograms : ∀ prog ∈ programs.toList, ProgramWellFormed prog) (k : Nat) :
    initDatasetItem memory programs (BitVec.ofNat 64 k)
      = some (Vector.ofFn (item (cacheLines memory) (programs.toList.map programOf) k)) := by
  have hfold := foldlM_map_eq (π := fun c : Line × Word => (registers c.1, c.2))
    (g := fun c prog => access (cacheLines memory) c (programOf prog))
    (fun prog hprog c => cacheAccess_eq hmemory (hprograms prog hprog) c)
    (initialLine (BitVec.ofNat 64 k), BitVec.ofNat 64 k)
  obtain ⟨c, hc, heq⟩ := Option.map_eq_some_iff.mp hfold
  have hline : c.1 = Vector.ofFn (item (cacheLines memory) (programs.toList.map programOf) k) := by
    apply registers_injective
    have hregs := congrArg Prod.fst heq
    dsimp only at hregs
    rw [hregs, item, List.foldl_map, registers_initialLine]
    funext ⟨q, hq⟩
    simp [registers_mk]
  rw [initDatasetItem, hc, ← hline]
  rfl

end DatasetItem
end RandomX
end MinerTim
