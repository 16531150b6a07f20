import MinerTim.Lib.Arm64.Exec

/-!
# `Lib.Arm64.Prefetch` — the addresses a run prefetches

A prefetch changes nothing, so no statement about final states can see one. Here it is an observation: every
step emits the addresses its instruction prefetches, and `prefetched` is what the first `n` steps emit.

* `Traced` is `Steps` with the addresses collected on the way. A branch emits nothing (`traced_bCond`,
  `traced_cbz`), and a fragment what `fragmentPrefetches` reads off it (`Straight.traced`).
* `Emits` is `Straight` with the addresses: fragments compose (`Emits.append`), and one without a prefetch emits
  nothing (`Straight.emits`).
* `NoPrefetch` is read off the code, instruction by instruction.
-/

namespace MinerTim
namespace Arm64

/-- The addresses an instruction prefetches. -/
def Inst.prefetches (i : Inst) (s : State) : List Word :=
  match i with
  | .prfmReg rn rm => [s.getXSp rn + s.getX rm]
  | _ => []

/-- Whether an instruction is a prefetch. -/
def Inst.isPrefetch : Inst → Bool
  | .prfmReg _ _ => true
  | _ => false

/-- A fragment that prefetches nothing. -/
def NoPrefetch (is : Code) : Prop := ∀ i ∈ is, i.isPrefetch = false

instance (is : Code) : Decidable (NoPrefetch is) := inferInstanceAs (Decidable (∀ i ∈ is, i.isPrefetch = false))

/-- The addresses prefetched by the first `n` steps from word offset `pc`. -/
def prefetched (fp : FpOps) (code : Code) : (n pc : Nat) → State → List Word
  | 0, _, _ => []
  | n + 1, pc, s =>
    (match code[pc]? with
      | some i => i.prefetches s
      | none => []) ++
    match step fp code pc s with
    | .running pc' s' => prefetched fp code n pc' s'
    | _ => []

variable {fp : FpOps} {code code' : Code} {W W' : Word → Prop} {i : Inst} {is js : Code} {s s' s'' : State}
  {pc pc' pc'' : Nat} {log log' : List Word}

theorem Inst.prefetches_of_not (h : i.isPrefetch = false) (s : State) : i.prefetches s = [] := by
  cases i <;> first | rfl | cases h

/-! ## Fragments -/

/-- What a fragment prefetches when it is run from `s`. -/
def fragmentPrefetches (fp : FpOps) : Code → State → List Word
  | [], _ => []
  | i :: is, s => i.prefetches s ++ fragmentPrefetches fp is (exec fp i s)

theorem fragmentPrefetches_append (h : Straight fp W is s s') :
    fragmentPrefetches fp (is ++ js) s = fragmentPrefetches fp is s ++ fragmentPrefetches fp js s' := by
  induction h with
  | nil => rfl
  | cons _ _ _ _ ih => rw [List.cons_append, fragmentPrefetches, fragmentPrefetches, ih, List.append_assoc]

theorem noPrefetch_nil : NoPrefetch [] := fun _ h => absurd h List.not_mem_nil

theorem noPrefetch_single (h : i.isPrefetch = false) : NoPrefetch [i] :=
  fun _ hj => by rw [List.mem_singleton.mp hj, h]

theorem NoPrefetch.append (h : NoPrefetch is) (h' : NoPrefetch js) : NoPrefetch (is ++ js) :=
  fun i hi => (List.mem_append.mp hi).elim (h i) (h' i)

theorem NoPrefetch.ite {c : Prop} [Decidable c] (h : NoPrefetch is) (h' : NoPrefetch js) :
    NoPrefetch (if c then is else js) := by
  split
  · exact h
  · exact h'

theorem NoPrefetch.fragmentPrefetches (h : NoPrefetch is) (s : State) : fragmentPrefetches fp is s = [] := by
  induction is generalizing s with
  | nil => rfl
  | cons i is ih =>
    have hrest : NoPrefetch is := fun j hj => h j (List.mem_cons_of_mem i hj)
    rw [Arm64.fragmentPrefetches, i.prefetches_of_not (h i List.mem_cons_self), ih hrest, List.nil_append]

/-- A fragment, with the addresses it prefetches. -/
structure Emits (fp : FpOps) (W : Word → Prop) (is : Code) (s : State) (log : List Word) (s' : State) :
    Prop where
  straight : Straight fp W is s s'
  log : fragmentPrefetches fp is s = log

theorem Emits.append (h : Emits fp W is s log s') (h' : Emits fp W js s' log' s'') :
    Emits fp W (is ++ js) s (log ++ log') s'' :=
  ⟨h.straight.append h'.straight, by rw [fragmentPrefetches_append h.straight, h.log, h'.log]⟩

/-- **A fragment without a prefetch emits nothing.** -/
theorem Straight.emits (h : Straight fp W is s s') (hno : NoPrefetch is) : Emits fp W is s [] s' :=
  ⟨h, hno.fragmentPrefetches s⟩

/-! ## Runs -/

/-- Machine steps from one word offset to another that prefetch these addresses, storing inside `W` only. -/
inductive Traced (fp : FpOps) (code : Code) (W : Word → Prop) :
    Nat → State → List Word → Nat → State → Prop where
  | refl {pc : Nat} {s : State} : Traced fp code W pc s [] pc s
  | head {pc pc₁ pc' : Nat} {s s₁ s' : State} {i : Inst} {log : List Word} : code[pc]? = some i →
      StoresIn W i s → step fp code pc s = .running pc₁ s₁ → Traced fp code W pc₁ s₁ log pc' s' →
      Traced fp code W pc s (i.prefetches s ++ log) pc' s'

theorem Traced.steps (h : Traced fp code W pc s log pc' s') : Steps fp code W pc s pc' s' := by
  induction h with
  | refl => exact .refl
  | head hi hstores hstep _ ih => exact .head hi hstores hstep ih

theorem Traced.trans (h : Traced fp code W pc s log pc' s') (h' : Traced fp code W pc' s' log' pc'' s'') :
    Traced fp code W pc s (log ++ log') pc'' s'' := by
  induction h with
  | refl => exact h'
  | head hi hstores hstep _ ih =>
    rw [List.append_assoc]
    exact .head hi hstores hstep (ih h')

theorem Traced.mono (h : Traced fp code W pc s log pc' s') (hW : ∀ a, W a → W' a) :
    Traced fp code W' pc s log pc' s' := by
  induction h with
  | refl => exact .refl
  | head hi hstores hstep _ ih => exact .head hi (hstores.mono hW) hstep ih

theorem Straight.traced (h : Straight fp W is s s') (hemb : Embeds code pc is) :
    Traced fp code W pc s (fragmentPrefetches fp is s) (pc + is.length) s' := by
  induction h generalizing pc with
  | nil => exact .refl
  | @cons i is s s' hbranch hdefined hstores _ ih =>
    have hrest := ih (@Embeds.right [i] is code pc hemb)
    rw [List.length_cons, Nat.add_comm is.length, ← Nat.add_assoc]
    exact .head hemb.head hstores (step_of_not_branch hemb.head hbranch hdefined) hrest

/-- **An embedded fragment runs**, and emits what it prefetches. -/
theorem Emits.traced (h : Emits fp W is s log s') (hemb : Embeds code pc is) :
    Traced fp code W pc s log (pc + is.length) s' := by
  have htraced := h.straight.traced hemb
  rwa [h.log] at htraced

/-- A conditional branch whose target is word offset `t`. -/
theorem traced_bCond {cond : BitVec 4} {imm19 : BitVec 19} {t : Nat}
    (hi : code[pc]? = some (.bCond cond imm19)) (ht : (pc : Int) + imm19.toInt = t) :
    Traced fp code W pc s [] (if condHolds cond s.flags then t else pc + 1) s := by
  refine .head hi (storesIn_nil rfl) ?_ .refl
  simp only [step, hi, Inst.isDefined, if_true]
  split
  · rw [jump, ht]
    exact if_pos (Int.natCast_nonneg t)
  · rfl

theorem traced_cbz {rt : Nat} {imm19 : BitVec 19} {t : Nat}
    (hi : code[pc]? = some (.cbz rt imm19)) (ht : (pc : Int) + imm19.toInt = t) :
    Traced fp code W pc s [] (if s.getX rt = 0 then t else pc + 1) s := by
  refine .head hi (storesIn_nil rfl) ?_ .refl
  simp only [step, hi, Inst.isDefined, if_true]
  split
  · rw [jump, ht]
    exact if_pos (Int.natCast_nonneg t)
  · rfl

/-- **What a run that returns has prefetched.** -/
theorem Traced.prefetched (h : Traced fp code W pc s log pc' s') (hret : code[pc']? = some .ret) :
    ∃ n, ∀ m, n ≤ m → prefetched fp code m pc s = log := by
  induction h with
  | @refl pc s =>
    refine ⟨0, fun m _ => ?_⟩
    cases m with
    | zero => rfl
    | succ m => simp [Arm64.prefetched, step, hret, Inst.isDefined, Inst.prefetches]
  | @head pc pc₁ pc' s s₁ s' i log hi hstores hstep _ ih =>
    obtain ⟨n, hn⟩ := ih hret
    refine ⟨n + 1, fun m hm => ?_⟩
    obtain ⟨m, rfl⟩ := Nat.exists_eq_add_of_le' (show 1 ≤ m by omega)
    simp only [Arm64.prefetched, hi, hstep]
    rw [hn m (by omega)]

end Arm64
end MinerTim
