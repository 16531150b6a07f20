import MinerTim.Lib.Arm64.State

/-!
# `Lib.Arm64.Exec` — straight-line fragments and runs

* **Fragments** (`Straight`): a list of instructions with no branch and none undefined, whose stores stay
  inside a set of addresses `W`, from one state to another. Fragments compose (`Straight.append`).
* **Runs** (`Steps`): machine steps inside a whole program, with the same condition on the stores. A fragment
  that is embedded in the program runs (`Straight.steps`). A run that reaches `ret` is what `run` computes,
  and up to there the stores stay inside `W` (`Steps.returned`).

What an instruction may change is read off its fields: `Inst.destX`, `Inst.destD`, `Inst.stores`.
-/

namespace MinerTim
namespace Arm64

/-! ## What an instruction may change -/

/-- Register numbers that name the zero register when they are 31. -/
def nonZero (rs : List Nat) : List Nat := rs.filter (· ≠ 31)

/-- The general-purpose registers an instruction writes; 31 is the stack pointer. -/
def Inst.destX : Inst → List Nat
  | .addReg rd _ _ _ | .subReg rd _ _ | .subsImm rd _ _ | .madd rd _ _ _ | .umulh rd _ _
  | .smulh rd _ _ | .andReg rd _ _ | .andsReg rd _ _ | .orrReg rd _ _ | .eorReg rd _ _
  | .eorRegW rd _ _ | .andsImm rd _ _ _ _ | .rorv rd _ _ | .extr rd _ _ _ | .ubfm rd _ _ _
  | .movz rd _ _ | .movk rd _ _ | .movn rd _ _ | .ldrReg rd _ _ | .ldrImm rd _ _
  | .ldrswImm rd _ _ | .fmovXD rd _ => nonZero [rd]
  | .addImm rd _ _ | .subImm rd _ _ | .andImm rd _ _ _ _ => [rd]
  | .stpPre _ _ rn _ | .stpFpPre _ _ rn _ | .ldpFpPost _ _ rn _ => [rn]
  | .ldpPost rt1 rt2 rn _ => nonZero [rt1, rt2] ++ [rn]
  | _ => []

/-- The floating-point registers an instruction writes. -/
def Inst.destD : Inst → List Nat
  | .ldrFpImm dd _ _ | .fadd dd _ _ | .fsub dd _ _ | .fmul dd _ _ | .fdiv dd _ _ | .fsqrt dd _
  | .fmovDD dd _ | .fmovDX dd _ | .scvtfDX dd _ | .eorV8b dd _ _ => [dd]
  | .ldpFpPost dt1 dt2 _ _ => [dt1, dt2]
  | _ => []

/-- The doublewords an instruction stores, by address. -/
def Inst.stores (i : Inst) (s : State) : List Word :=
  match i with
  | .strReg _ rn rm => [s.getXSp rn + s.getX rm]
  | .strImm _ rn imm | .strFpImm _ rn imm => [s.getXSp rn + scaledOffset imm]
  | .stpPre _ _ rn imm | .stpFpPre _ _ rn imm | .stpFpImm _ _ rn imm =>
    [s.getXSp rn + pairOffset imm, s.getXSp rn + pairOffset imm + 8]
  | _ => []

variable {fp : FpOps} {i : Inst} {s s' s'' : State}

theorem State.x_setXSp_of_ne {n m : Nat} {v : Word} (h : m ≠ n) : (s.setXSp n v).x m = s.x m := by
  unfold setXSp
  split
  · rfl
  · exact if_neg h

@[simp] theorem State.d_setXSp {n : Nat} {v : Word} : (s.setXSp n v).d = s.d := by
  unfold setXSp; split <;> rfl

@[simp] theorem State.mem_setXSp {n : Nat} {v : Word} : (s.setXSp n v).mem = s.mem := by
  unfold setXSp; split <;> rfl

theorem mem_nonZero {n : Nat} {rs : List Nat} : n ∈ nonZero rs ↔ n ∈ rs ∧ n ≠ 31 := by
  simp [nonZero]

theorem State.x_setX_of_not {n m : Nat} {v : Word} (h : ¬ (m = n ∧ m ≠ 31)) :
    (s.setX n v).x m = s.x m := by
  unfold setX
  split
  · rfl
  next hn =>
    refine if_neg ?_
    rintro rfl
    exact h ⟨rfl, hn⟩

theorem x_exec {n : Nat} (h : n ∉ i.destX) : (exec fp i s).x n = s.x n := by
  cases i <;> simp only [Inst.destX, mem_nonZero, List.mem_append, List.mem_cons, List.not_mem_nil,
      or_false, not_or] at h <;>
    simp_all [exec, State.x_setX_of_not, State.x_setXSp_of_ne]

@[simp] theorem State.sp_setXSp_of_ne {n : Nat} {v : Word} (h : n ≠ 31) : (s.setXSp n v).sp = s.sp := by
  rw [setXSp, if_neg h]

theorem sp_exec (h : 31 ∉ i.destX) : (exec fp i s).sp = s.sp := by
  cases i <;> simp only [Inst.destX, mem_nonZero, List.mem_append, List.mem_cons, List.not_mem_nil,
      or_false, not_or] at h <;>
    simp_all [exec, Ne.symm]

theorem d_exec {n : Nat} (h : n ∉ i.destD) : (exec fp i s).d n = s.d n := by
  cases i <;> simp only [Inst.destD, List.mem_cons, List.not_mem_nil, or_false, not_or] at h <;>
    simp_all [exec, State.d_setD_of_ne]

theorem mem_exec {a : Word} (h : ∀ b ∈ i.stores s, ¬ InRegion b 8 a) :
    (exec fp i s).mem a = s.mem a := by
  cases i <;> simp only [Inst.stores, List.mem_cons, List.not_mem_nil, or_false, forall_eq_or_imp,
      forall_eq] at h <;>
    simp_all [exec, State.mem_write_of_not]

/-! ## Straight-line fragments -/

/-- The stores of an instruction stay inside `W`. -/
def StoresIn (W : Word → Prop) (i : Inst) (s : State) : Prop :=
  ∀ b ∈ i.stores s, ∀ a, InRegion b 8 a → W a

variable {W W' : Word → Prop}

theorem storesIn_nil (h : i.stores s = []) : StoresIn W i s := by
  intro b hb
  rw [h] at hb
  exact absurd hb List.not_mem_nil

theorem StoresIn.mono (h : StoresIn W i s) (hW : ∀ a, W a → W' a) : StoresIn W' i s :=
  fun b hb a ha => hW a (h b hb a ha)

/-- A fragment that runs from its first instruction to its last, storing inside `W` only. -/
inductive Straight (fp : FpOps) (W : Word → Prop) : Code → State → State → Prop where
  | nil {s : State} : Straight fp W [] s s
  | cons {i : Inst} {is : Code} {s s' : State} : i.isBranch = false → i.isDefined = true →
      StoresIn W i s → Straight fp W is (exec fp i s) s' → Straight fp W (i :: is) s s'

variable {is js : Code}

theorem Straight.append (h : Straight fp W is s s') (h' : Straight fp W js s' s'') :
    Straight fp W (is ++ js) s s'' := by
  induction h with
  | nil => exact h'
  | cons hbranch hdefined hstores _ ih => exact .cons hbranch hdefined hstores (ih h')

theorem Straight.mono (h : Straight fp W is s s') (hW : ∀ a, W a → W' a) :
    Straight fp W' is s s' := by
  induction h with
  | nil => exact .nil
  | cons hbranch hdefined hstores _ ih => exact .cons hbranch hdefined (hstores.mono hW) ih

/-- One instruction that stores nothing. -/
theorem straight_single (hbranch : i.isBranch = false) (hdefined : i.isDefined = true)
    (hstores : i.stores s = []) (heq : exec fp i s = s') : Straight fp W [i] s s' :=
  .cons hbranch hdefined (storesIn_nil hstores) (heq ▸ .nil)

/-- One instruction that stores. -/
theorem straight_store (hbranch : i.isBranch = false) (hdefined : i.isDefined = true)
    (hstores : StoresIn W i s) (heq : exec fp i s = s') : Straight fp W [i] s s' :=
  .cons hbranch hdefined hstores (heq ▸ .nil)

/-- A fragment stores inside `W` only. -/
theorem Straight.mem_eq (h : Straight fp W is s s') {a : Word} (ha : ¬ W a) : s'.mem a = s.mem a := by
  induction h with
  | nil => rfl
  | cons _ _ hstores _ ih => rw [ih, mem_exec fun b hb hab => ha (hstores b hb a hab)]

theorem Straight.x_eq (h : Straight fp W is s s') {n : Nat} (hn : ∀ i ∈ is, n ∉ i.destX) :
    s'.x n = s.x n := by
  induction h with
  | nil => rfl
  | @cons i is _ _ _ _ _ _ ih =>
    rw [ih fun j hj => hn j (List.mem_cons_of_mem i hj), x_exec (hn i List.mem_cons_self)]

theorem Straight.sp_eq (h : Straight fp W is s s') (hn : ∀ i ∈ is, 31 ∉ i.destX) : s'.sp = s.sp := by
  induction h with
  | nil => rfl
  | @cons i is _ _ _ _ _ _ ih =>
    rw [ih fun j hj => hn j (List.mem_cons_of_mem i hj), sp_exec (hn i List.mem_cons_self)]

theorem Straight.d_eq (h : Straight fp W is s s') {n : Nat} (hn : ∀ i ∈ is, n ∉ i.destD) :
    s'.d n = s.d n := by
  induction h with
  | nil => rfl
  | @cons i is _ _ _ _ _ _ ih =>
    rw [ih fun j hj => hn j (List.mem_cons_of_mem i hj), d_exec (hn i List.mem_cons_self)]

/-- The end of a fragment, given by an equal state. -/
theorem Straight.eq (h : Straight fp W is s s') (heq : s' = s'') : Straight fp W is s s'' := heq ▸ h

/-- A loop that is unrolled into `n` fragments: fragment `k` takes the `k`-th state to the next. -/
theorem straight_flatMap {f : Nat → Code} (g : Nat → State) {n : Nat}
    (h : ∀ k < n, Straight fp W (f k) (g k) (g (k + 1))) :
    Straight fp W ((List.range n).flatMap f) (g 0) (g n) := by
  induction n with
  | zero => exact .nil
  | succ n ih =>
    rw [List.range_succ, List.flatMap_append, List.flatMap_singleton]
    exact (ih fun k hk => h k (by omega)).append (h n (by omega))

/-- A loop that is unrolled into `n` fragments, with an invariant. -/
theorem exists_straight_flatMap {f : Nat → Code} {n : Nat} (P : Nat → State → Prop) (h : P 0 s)
    (hstep : ∀ k < n, ∀ s, P k s → ∃ s', Straight fp W (f k) s s' ∧ P (k + 1) s') :
    ∃ s', Straight fp W ((List.range n).flatMap f) s s' ∧ P n s' := by
  induction n with
  | zero => exact ⟨s, .nil, h⟩
  | succ n ih =>
    obtain ⟨s₁, hcode, hP⟩ := ih fun k hk => hstep k (by omega)
    obtain ⟨s', hcode', hP'⟩ := hstep n (by omega) s₁ hP
    refine ⟨s', ?_, hP'⟩
    rw [List.range_succ, List.flatMap_append, List.flatMap_singleton]
    exact hcode.append hcode'

/-! ## Runs inside a program -/

/-- The fragment stands at word offset `pc` of the program. -/
def Embeds (code : Code) (pc : Nat) (is : Code) : Prop :=
  ∀ k i, is[k]? = some i → code[pc + k]? = some i

variable {code : Code} {pc pc' pc'' : Nat}

theorem embeds_append (pre is post : Code) : Embeds (pre ++ is ++ post) pre.length is := by
  intro k i hk
  have hlt : k < is.length := (List.getElem?_eq_some_iff.mp hk).1
  rw [List.append_assoc, List.getElem?_append_right (by omega), Nat.add_sub_cancel_left,
    List.getElem?_append_left hlt, hk]

theorem Embeds.left (h : Embeds code pc (is ++ js)) : Embeds code pc is := by
  intro k i hk
  have hlt : k < is.length := (List.getElem?_eq_some_iff.mp hk).1
  exact h k i (by rw [List.getElem?_append_left hlt, hk])

theorem Embeds.right (h : Embeds code pc (is ++ js)) : Embeds code (pc + is.length) js := by
  intro k i hk
  rw [Nat.add_assoc]
  exact h (is.length + k) i (by
    rw [List.getElem?_append_right (by omega), Nat.add_sub_cancel_left, hk])

theorem Embeds.head (h : Embeds code pc (i :: is)) : code[pc]? = some i := h 0 i rfl

/-- Machine steps from one word offset to another, storing inside `W` only. -/
inductive Steps (fp : FpOps) (code : Code) (W : Word → Prop) :
    Nat → State → Nat → State → Prop where
  | refl {pc : Nat} {s : State} : Steps fp code W pc s pc s
  | head {pc pc₁ pc' : Nat} {s s₁ s' : State} {i : Inst} : code[pc]? = some i → StoresIn W i s →
      step fp code pc s = .running pc₁ s₁ → Steps fp code W pc₁ s₁ pc' s' →
      Steps fp code W pc s pc' s'

theorem Steps.trans (h : Steps fp code W pc s pc' s') (h' : Steps fp code W pc' s' pc'' s'') :
    Steps fp code W pc s pc'' s'' := by
  induction h with
  | refl => exact h'
  | head hi hstores hstep _ ih => exact .head hi hstores hstep (ih h')

theorem Steps.mono (h : Steps fp code W pc s pc' s') (hW : ∀ a, W a → W' a) :
    Steps fp code W' pc s pc' s' := by
  induction h with
  | refl => exact .refl
  | head hi hstores hstep _ ih => exact .head hi (hstores.mono hW) hstep ih

/-- A step that goes on executes its instruction, or branches and changes nothing. -/
theorem step_running {pc₁ : Nat} {s₁ : State} (hi : code[pc]? = some i)
    (hstep : step fp code pc s = .running pc₁ s₁) : s₁ = exec fp i s ∨ s₁ = s := by
  unfold step jump at hstep
  rw [hi] at hstep
  cases i <;> simp only at hstep <;> split at hstep <;> grind

/-- What a step leaves in memory outside the stores of its instruction. -/
theorem step_mem {pc₁ : Nat} {s₁ : State} {a : Word} (hi : code[pc]? = some i)
    (hstep : step fp code pc s = .running pc₁ s₁) (h : ∀ b ∈ i.stores s, ¬ InRegion b 8 a) :
    s₁.mem a = s.mem a := by
  rcases step_running hi hstep with rfl | rfl
  · exact mem_exec h
  · rfl

/-- Machine steps from one word offset to another that execute the words from `lo` up to `hi` only. -/
inductive Inside (fp : FpOps) (code : Code) (lo hi : Nat) : Nat → State → Nat → State → Prop where
  | refl {pc : Nat} {s : State} : Inside fp code lo hi pc s pc s
  | head {pc pc₁ pc' : Nat} {s s₁ s' : State} {i : Inst} : lo ≤ pc → pc < hi → code[pc]? = some i →
      step fp code pc s = .running pc₁ s₁ → Inside fp code lo hi pc₁ s₁ pc' s' →
      Inside fp code lo hi pc s pc' s'

/-- A run stores inside `W` only. -/
theorem Steps.mem_eq (h : Steps fp code W pc s pc' s') {a : Word} (ha : ¬ W a) : s'.mem a = s.mem a := by
  induction h with
  | refl => rfl
  | head hi hstores hstep _ ih =>
    rw [ih, step_mem hi hstep fun b hb hab => ha (hstores b hb a hab)]

/-- A step of an instruction that does not branch. -/
theorem step_of_not_branch (hi : code[pc]? = some i) (hbranch : i.isBranch = false)
    (hdefined : i.isDefined = true) : step fp code pc s = .running (pc + 1) (exec fp i s) := by
  unfold step
  rw [hi]
  refine (if_pos hdefined).trans ?_
  cases i <;> first | rfl | cases hbranch

/-- **An embedded fragment runs.** -/
theorem Straight.steps (h : Straight fp W is s s') (hemb : Embeds code pc is) :
    Steps fp code W pc s (pc + is.length) s' := by
  induction h generalizing pc with
  | nil => exact .refl
  | @cons i is s s' hbranch hdefined hstores _ ih =>
    have hrest : Steps fp code W (pc + 1) (exec fp i s) (pc + 1 + is.length) s' :=
      ih (@Embeds.right [i] is code pc hemb)
    rw [List.length_cons, Nat.add_comm is.length, ← Nat.add_assoc]
    exact .head hemb.head hstores (step_of_not_branch hemb.head hbranch hdefined) hrest

/-- As many machine steps as an embedded fragment has words. -/
theorem Straight.run (h : Straight fp W is s s') (hemb : Embeds code pc is) :
    run fp code is.length pc s = .running (pc + is.length) s' := by
  induction h generalizing pc with
  | nil => rfl
  | @cons i is s s' hbranch hdefined _ _ ih =>
    have hrest := ih (@Embeds.right [i] is code pc hemb)
    rw [List.length_singleton] at hrest
    rw [List.length_cons, Arm64.run, step_of_not_branch hemb.head hbranch hdefined, Nat.add_comm is.length,
      ← Nat.add_assoc]
    exact hrest

/-- The machine starts at word offset `pc`, returns in state `s'`, and stores inside `W` only on the way. -/
def Returns (fp : FpOps) (code : Code) (W : Word → Prop) (pc : Nat) (s s' : State) : Prop :=
  (∃ n, ∀ m, n ≤ m → run fp code m pc s = .returned s') ∧
    ∀ m pc₁ s₁ i, run fp code m pc s = .running pc₁ s₁ → code[pc₁]? = some i → StoresIn W i s₁

/-- **A run that reaches `ret` returns.** -/
theorem Steps.returned (h : Steps fp code W pc s pc' s') (hret : code[pc']? = some .ret) :
    Returns fp code W pc s s' := by
  induction h with
  | @refl pc s =>
    have hstep : step fp code pc s = .returned s := by
      simp only [step, hret, Inst.isDefined, if_true]
    refine ⟨⟨1, ?_⟩, ?_⟩
    · intro m hm
      obtain ⟨m, rfl⟩ := Nat.exists_eq_add_of_le' hm
      simp only [run, hstep]
    · intro m pc₁ s₁ i hrun hi
      cases m with
      | zero =>
        obtain ⟨rfl, rfl⟩ := Outcome.running.inj hrun
        obtain rfl := Option.some.inj (hret.symm.trans hi)
        exact storesIn_nil rfl
      | succ m => simp [run, hstep] at hrun
  | @head pc pc₁ pc' s s₁ s' i hi hstores hstep _ ih =>
    obtain ⟨⟨n, hn⟩, hall⟩ := ih hret
    refine ⟨⟨n + 1, ?_⟩, ?_⟩
    · intro m hm
      obtain ⟨m, rfl⟩ := Nat.exists_eq_add_of_le' (show 1 ≤ m by omega)
      simp only [run, hstep]
      exact hn m (by omega)
    · intro m pc₂ s₂ i' hrun hi'
      cases m with
      | zero =>
        obtain ⟨rfl, rfl⟩ := Outcome.running.inj hrun
        obtain rfl := Option.some.inj (hi.symm.trans hi')
        exact hstores
      | succ m =>
        simp only [run, hstep] at hrun
        exact hall m pc₂ s₂ i' hrun hi'

end Arm64
end MinerTim
