import MinerTim.RandomX.SuperscalarPorts

/-!
# `RandomX.SuperscalarSchedule` — what the parts of the generator do, and what a sound schedule is

First one specification for each function that `generate_superscalar` calls: `create` fills an instruction in from its
row (`Created`), a source is ready (`selectSource_spec`), a destination is ready and may be written
(`selectDestination_spec`). What the generator needs of the instruction table is `InstructionInfo.Ok`, which every row
meets.

Then the log. `ScheduleSound` is a property of the macro-ops that have been committed; the registers of a commit are
those that the results before it make, so that nothing but the list of commits is in it. `Stretch` bounds what is
thrown away between two commits. `Trace` connects the log with the port map and the registers of the generator;
`Trace.snoc_commit` is one more commit.
-/

namespace MinerTim
namespace RandomX
namespace Superscalar

open Fuelled (Ends)

/-! ## The instruction table -/

/-- Whether an instruction may write the register that it reads. -/
def SsType.reuses : SsType → Bool
  | IMULH_R | ISMULH_R => true
  | _ => false

/-- Whether the group parameter of an instruction is its source. -/
def SsType.parIsSource : SsType → Bool
  | ISUB_R | IXOR_R | IADD_RS | IMUL_R => true
  | _ => false

/-- The rows that `select_for_slot` selects from. -/
def infos : List InstructionInfo :=
  [INFO_ISUB_R, INFO_IXOR_R, INFO_IADD_RS, INFO_IMUL_R, INFO_IROR_C, INFO_IADD_C7, INFO_IXOR_C7, INFO_IADD_C8,
    INFO_IXOR_C8, INFO_IADD_C9, INFO_IXOR_C9, INFO_IMULH_R, INFO_ISMULH_R, INFO_IMUL_RCP]

/-- What the generator needs of a row. A destination that is selected before the result is known is selected by a
    macro-op that is eliminated, and the result takes longer than the look-forward. -/
structure InstructionInfo.Ok (info : InstructionInfo) : Prop where
  code : info.instType.code.toNat ≤ 13
  dstOp : info.dstOp ≤ info.resultOp
  resultOp : info.resultOp < info.ops.length
  srcOp : ∀ k ∈ info.srcOp, k < info.ops.length
  disjoint : ∀ mop ∈ info.ops, mop.Disjoint
  latency : ∀ mop ∈ info.ops[info.resultOp]?, 1 ≤ mop.latency ∧
    (info.dstOp ≠ info.resultOp → LOOK_FORWARD_CYCLES ≤ mop.latency)
  early : info.dstOp ≠ info.resultOp → info.srcOp ≠ some info.dstOp ∧
    ∀ mop ∈ info.ops[info.dstOp]?, mop.isEliminated = true ∧ mop.dependent = false
  sourced : info.instType.parIsSource = true → info.srcOp.isSome = true
  sourceFirst : info.instType.reuses = false → ∀ k ∈ info.srcOp, k ≤ info.dstOp

theorem ok_of_mem {info : InstructionInfo} (h : info ∈ infos) : info.Ok where
  code := (by decide : ∀ info ∈ infos, info.instType.code.toNat ≤ 13) info h
  dstOp := (by decide : ∀ info ∈ infos, info.dstOp ≤ info.resultOp) info h
  resultOp := (by decide : ∀ info ∈ infos, info.resultOp < info.ops.length) info h
  srcOp := (by decide : ∀ info ∈ infos, ∀ k ∈ info.srcOp, k < info.ops.length) info h
  disjoint := (by decide : ∀ info ∈ infos, ∀ mop ∈ info.ops, mop.Disjoint) info h
  latency := (by decide : ∀ info ∈ infos, ∀ mop ∈ info.ops[info.resultOp]?, 1 ≤ mop.latency ∧
    (info.dstOp ≠ info.resultOp → LOOK_FORWARD_CYCLES ≤ mop.latency)) info h
  early := (by decide : ∀ info ∈ infos, info.dstOp ≠ info.resultOp → info.srcOp ≠ some info.dstOp ∧
    ∀ mop ∈ info.ops[info.dstOp]?, mop.isEliminated = true ∧ mop.dependent = false) info h
  sourced := (by decide : ∀ info ∈ infos, info.instType.parIsSource = true → info.srcOp.isSome = true) info h
  sourceFirst := (by decide : ∀ info ∈ infos, info.instType.reuses = false → ∀ k ∈ info.srcOp, k ≤ info.dstOp) info h

/-! ## Decode buffers and new instructions -/

section

variable {G : Type} {gen : ByteGenerator G}

theorem and_three_lt (byte : Byte) : (byte &&& 3).toNat < 4 := by
  rw [BitVec.toNat_and]
  exact Nat.lt_of_le_of_lt Nat.and_le_right (by decide)

/-- The buffers that `fetch_next` returns. -/
def buffers : List DecodeBuffer := [BUF_484, BUF_7333, BUF_3733, BUF_493, BUF_4444, BUF_3310]

theorem fetchNext_spec (prevType : SsType) (decodeCycle mulCount : Nat) (g : G) :
    ∃ res, fetchNext gen prevType decodeCycle mulCount g = some res ∧ res.1 ∈ buffers := by
  have hdefault : ∀ i : Fin 4, DEFAULT_BUFFERS[i] ∈ buffers := by decide
  unfold fetchNext
  split
  · exact ⟨_, rfl, (by decide : BUF_3310 ∈ buffers)⟩
  · split
    · exact ⟨_, rfl, (by decide : BUF_4444 ∈ buffers)⟩
    · split
      · dsimp only
        split
        · exact ⟨_, rfl, by simp [buffers]⟩
        · exact ⟨_, rfl, by simp [buffers]⟩
      · have hlt := and_three_lt (gen.getByte g).1
        dsimp only
        rw [Vector.getElem?_eq_getElem hlt]
        exact ⟨_, rfl, hdefault ⟨_, hlt⟩⟩

/-- Every slot of a buffer has an instruction. -/
theorem selectForSlot_spec {buffer : DecodeBuffer} (hbuffer : buffer ∈ buffers) {slotSize : Nat}
    (hslot : slotSize ∈ buffer.slots) (g : G) (isLast : Bool) :
    ∃ res, selectForSlot gen g slotSize buffer.index isLast = some res ∧ res.1 ∈ infos := by
  have hsize : slotSize ∈ [3, 4, 7, 8, 9, 10] :=
    (by decide : ∀ buffer ∈ buffers, ∀ size ∈ buffer.slots, size ∈ [3, 4, 7, 8, 9, 10]) buffer hbuffer slotSize hslot
  have heven : ∀ {info info' : InstructionInfo} (byte : Byte), info ∈ infos → info' ∈ infos →
      (if byte &&& 1 = 0 then info else info') ∈ infos := by
    intro info info' byte h h'
    split
    · exact h
    · exact h'
  unfold selectForSlot
  simp only [List.mem_cons, List.not_mem_nil, or_false] at hsize
  rcases hsize with rfl | rfl | rfl | rfl | rfl | rfl
  · dsimp only
    cases isLast with
    | true =>
      have hlt := and_three_lt (gen.getByte g).1
      rw [if_pos rfl]
      generalize ((gen.getByte g).1 &&& 3).toNat = i at hlt
      interval_cases i
      · exact ⟨_, rfl, (by decide : INFO_ISUB_R ∈ infos)⟩
      · exact ⟨_, rfl, (by decide : INFO_IXOR_R ∈ infos)⟩
      · exact ⟨_, rfl, (by decide : INFO_IMULH_R ∈ infos)⟩
      · exact ⟨_, rfl, (by decide : INFO_ISMULH_R ∈ infos)⟩
    | false => exact ⟨_, rfl, heven _ (by decide) (by decide)⟩
  · by_cases hmul : buffer.index = 4 ∧ !isLast
    · exact ⟨_, if_pos hmul, (by decide : INFO_IMUL_R ∈ infos)⟩
    · exact ⟨_, if_neg hmul, heven _ (by decide) (by decide)⟩
  · exact ⟨_, rfl, heven _ (by decide) (by decide)⟩
  · exact ⟨_, rfl, heven _ (by decide) (by decide)⟩
  · exact ⟨_, rfl, heven _ (by decide) (by decide)⟩
  · exact ⟨_, rfl, (by decide : INFO_IMUL_RCP ∈ infos)⟩

variable (gen) in
/-- The loops that do not end: a rejection loop that never accepts. -/
def Endless : Site G → Prop
  | .buffer => False
  | .rejection loop g => ∀ k, loop.accepts (loop.next gen (Fuelled.drawn (loop.next gen) k g)).1 = false

/-- What `create` makes. -/
structure Created (inst : WorkingInstruction) : Prop where
  info : inst.info ∈ infos
  canReuse : inst.canReuse = inst.info.instType.reuses
  groupParIsSource : inst.groupParIsSource = inst.info.instType.parIsSource
  rotateCount : inst.info.instType = .IROR_C → 1 ≤ inst.imm32.toNat ∧ inst.imm32.toNat ≤ 63
  divisor : inst.info.instType = .IMUL_RCP → isZeroOrPowerOf2 inst.imm32 = false

theorem rejectionLoop_spec (loop : RejectionLoop) (g : G) :
    Ends (Endless gen) (fun res : BitVec 32 × G => loop.accepts res.1 = true ∧ ∃ g', res = loop.next gen g')
      (rejectionLoop gen loop g) :=
  Ends.drawUntil id

theorem create_spec {info : InstructionInfo} (h : info ∈ infos) (g : G) :
    Ends (Endless gen) (fun res : WorkingInstruction × G => res.1.info = info ∧ Created res.1) (create gen info g) := by
  have hinfo := h
  simp only [infos, List.mem_cons, List.not_mem_nil, or_false] at hinfo
  rcases hinfo with rfl | rfl | rfl | rfl | rfl | rfl | rfl | rfl | rfl | rfl | rfl | rfl | rfl | rfl
  case inr.inr.inr.inr.inl =>
    refine Ends.bind (rejectionLoop_spec .rotateCount g) ?_
    rintro ⟨imm32, g'⟩ ⟨haccepts, g'', heq⟩
    refine Ends.pure ⟨rfl, h, rfl, rfl, fun _ => ⟨?_, ?_⟩, nofun⟩
    · have hne : imm32 ≠ 0 := by simpa [RejectionLoop.accepts] using haccepts
      exact Nat.pos_of_ne_zero fun hzero => hne (BitVec.eq_of_toNat_eq hzero)
    · obtain rfl := congrArg Prod.fst heq
      show (BitVec.setWidth 32 ((gen.getByte g'').1 &&& 63)).toNat ≤ 63
      rw [BitVec.toNat_setWidth, BitVec.toNat_and]
      exact (Nat.mod_le _ _).trans Nat.and_le_right
  case inr.inr.inr.inr.inr.inr.inr.inr.inr.inr.inr.inr.inr =>
    refine Ends.bind (rejectionLoop_spec .divisor g) ?_
    rintro ⟨imm32, g'⟩ ⟨haccepts, _⟩
    refine Ends.pure ⟨rfl, h, rfl, rfl, nofun, fun _ => ?_⟩
    simpa [RejectionLoop.accepts] using haccepts
  all_goals exact Ends.pure ⟨rfl, h, rfl, rfl, nofun, nofun⟩

/-! ## Operands -/

theorem mem_of_selectRegister {available : List (Fin 8)} {g : G} {res : Fin 8 × G}
    (h : selectRegister gen available g = some res) : res.1 ∈ available := by
  unfold selectRegister at h
  split at h
  · cases h
  · obtain rfl := Option.some.inj h
    exact List.mem_singleton_self _
  · obtain rfl := Option.some.inj h
    exact List.get_mem _ _

/-- **A source** is ready. It is what the parameter of the group becomes, if at all. -/
theorem selectSource_spec {inst : WorkingInstruction} {cycle : Nat} {registers : Registers} {g : G}
    {res : WorkingInstruction × G} (h : selectSource gen inst cycle registers g = some res) :
    ∃ src opGroupPar, res.1 = { inst with src := some src, opGroupPar } ∧ (registers.get src).latency ≤ cycle ∧
      (inst.groupParIsSource = false → inst.info.instType ≠ .IADD_RS → opGroupPar = inst.opGroupPar) := by
  have hready : ∀ src : Fin 8, src ∈ (List.finRange 8).filter (fun i => (registers.get i).latency ≤ cycle) →
      (registers.get src).latency ≤ cycle := fun src hsrc => by simpa using (List.mem_filter.mp hsrc).2
  unfold selectSource at h
  dsimp only at h
  split at h
  next hspecial =>
    obtain rfl := Option.some.inj h
    refine ⟨REGISTER_NEEDS_DISPLACEMENT, _, rfl, hready _ ?_, fun _ htype => absurd hspecial.2.1 htype⟩
    rcases hspecial.2.2 with hmem | hmem
    · exact List.mem_of_getElem? hmem
    · exact List.mem_of_getElem? hmem
  next =>
    obtain ⟨⟨src, g'⟩, hselect, hres⟩ := Option.bind_eq_some_iff.mp h
    have hmem := hready src (mem_of_selectRegister hselect)
    obtain rfl := Option.some.inj hres
    dsimp only
    cases hpar : inst.groupParIsSource with
    | true => exact ⟨src, _, rfl, hmem, nofun⟩
    | false => exact ⟨src, _, rfl, hmem, fun _ _ => rfl⟩

/-- A register that an instruction may write. -/
structure Target (inst : WorkingInstruction) (dst : Fin 8) : Prop where
  displacement : inst.info.instType = .IADD_RS → dst ≠ REGISTER_NEEDS_DISPLACEMENT
  distinct : inst.canReuse = false → inst.src ≠ some dst

/-- The last result is of another group, or has another parameter. -/
def Fresh (inst : WorkingInstruction) (info : RegisterInfo) : Prop :=
  (info.lastOpGroup, info.lastOpPar) ≠ (inst.opGroup, inst.opGroupPar)

/-- **A destination** is ready, and may be written. -/
theorem selectDestination_spec {inst : WorkingInstruction} {cycle : Nat} {allowChainedMul : Bool}
    {registers : Registers} {g : G} {res : WorkingInstruction × G}
    (h : selectDestination gen inst cycle allowChainedMul registers g = some res) :
    ∃ dst, res.1 = { inst with dst := some dst } ∧ (registers.get dst).latency ≤ cycle ∧ Target inst dst ∧
      Fresh inst (registers.get dst) := by
  obtain ⟨⟨dst, g'⟩, hselect, hres⟩ := Option.bind_eq_some_iff.mp h
  obtain rfl := Option.some.inj hres
  have havailable := (List.mem_filter.mp (mem_of_selectRegister hselect)).2
  simp only [destinationAvailable, Bool.and_eq_true, Bool.or_eq_true, decide_eq_true_eq] at havailable
  obtain ⟨⟨⟨⟨hready, hsrc⟩, _⟩, hfresh⟩, hdisplacement⟩ := havailable
  refine ⟨dst, rfl, hready, ⟨fun htype => ?_, fun hreuse heq => ?_⟩, fun heq => ?_⟩
  · rcases hdisplacement with hne | hne
    · exact absurd htype hne
    · exact hne
  · rcases hsrc with htrue | hne
    · rw [hreuse] at htrue
      cases htrue
    · exact hne heq.symm
  · obtain ⟨hgroup, hpar⟩ := Prod.mk.inj heq
    rcases hfresh with hne | hne
    · exact hne hgroup
    · exact hne hpar

theorem lookForward_spec {α : Type} {select : Nat → Option α} {scheduleCycle : Nat} {a : α} {forward : Nat}
    (h : lookForward select scheduleCycle = some (a, forward)) :
    forward < LOOK_FORWARD_CYCLES ∧ select (scheduleCycle + forward) = some a := by
  obtain ⟨k, hk, hselect⟩ := List.exists_of_findSome?_eq_some h
  obtain ⟨a', ha', heq⟩ := Option.map_eq_some_iff.mp hselect
  obtain ⟨rfl, rfl⟩ := Prod.mk.inj heq
  exact ⟨List.mem_range.mp hk, ha'⟩

/-- What the selection of an operand ends in. -/
inductive OperandSelected (selects : Bool) (select : Nat → Option (WorkingInstruction × G)) (st : State G)
    (scheduleCycle : Nat) : Except (Pass G) (State G × Nat) → Prop where
  | skipped (h : selects = false) : OperandSelected selects select st scheduleCycle (.ok (st, scheduleCycle))
  | selected {current : WorkingInstruction} {generator : G} {forward : Nat} (h : selects = true)
      (hforward : forward < LOOK_FORWARD_CYCLES)
      (hselect : select (scheduleCycle + forward) = some (current, generator)) :
      OperandSelected selects select st scheduleCycle
        (.ok ({ st with current, generator, cycle := st.cycle + forward }, scheduleCycle + forward))
  | failed : OperandSelected selects select st scheduleCycle
      (.error (throwAway { st with cycle := st.cycle + LOOK_FORWARD_CYCLES }))

theorem selectOperand_spec (selects : Bool) (select : Nat → Option (WorkingInstruction × G)) (st : State G)
    (scheduleCycle : Nat) :
    OperandSelected selects select st scheduleCycle (selectOperand selects select st scheduleCycle) := by
  unfold selectOperand
  cases selects with
  | false => exact .skipped rfl
  | true =>
    rw [if_pos rfl]
    cases hlook : lookForward select scheduleCycle with
    | none => exact .failed
    | some res =>
      obtain ⟨⟨current, generator⟩, forward⟩ := res
      obtain ⟨hforward, hselect⟩ := lookForward_spec hlook
      exact .selected rfl hforward hselect

end

/-! ## The schedule -/

/-- The macro-op that an event commits. -/
def Event.commit? : Event → Option Commit
  | .commit c => some c
  | _ => none

/-- Whether an instruction is thrown away. -/
def Event.isThrowAway : Event → Bool
  | .throwAway => true
  | _ => false

/-- Whether a decode cycle starts. -/
def Event.isDecode : Event → Bool
  | .decode => true
  | _ => false

/-- What has been committed. -/
def commitsOf (log : List Event) : List Commit := log.filterMap Event.commit?

/-- The result of a commit on a register: its group and its parameter. -/
def Commit.resultOn (reg : Fin 8) (c : Commit) : Option (SsType × BitVec 32) :=
  if c.macroOpIndex = c.current.info.resultOp ∧ c.current.dst = some reg then
    some (c.current.opGroup, c.current.opGroupPar)
  else none

/-- The registers after a commit. -/
def Commit.apply (registers : Registers) (c : Commit) : Registers :=
  if c.macroOpIndex = c.current.info.resultOp then
    match c.current.dst with
    | some dst => registers.setIfInBounds dst
        { latency := c.cycle + c.mop.latency, lastOpGroup := c.current.opGroup, lastOpPar := c.current.opGroupPar }
    | none => registers
  else registers

/-- The registers after some commits. -/
def registersAfter (commits : List Commit) : Registers := commits.foldl Commit.apply (Vector.replicate 8 .new)

/-- **A macro-op that is committed as it should be**: each of its micro-ops has a slot, in the one cycle of the
    macro-op; the registers that it selects are ready; its result makes the register ready later than it was. -/
structure Commit.Sound (c : Commit) : Prop where
  mop : c.current.info.ops[c.macroOpIndex]? = some c.mop
  uops : c.slots.map Slot.uop = c.mop.uops
  cycle : ∀ slot ∈ c.slots, slot.cycle = c.cycle
  source : c.current.info.srcOp = some c.macroOpIndex →
    ∃ src, c.current.src = some src ∧ (c.registers.get src).latency ≤ c.cycle
  destination : c.macroOpIndex = c.current.info.dstOp →
    ∃ dst, c.current.dst = some dst ∧ (c.registers.get dst).latency ≤ c.cycle
  result : c.macroOpIndex = c.current.info.resultOp →
    ∃ dst, c.current.dst = some dst ∧ (c.registers.get dst).latency < c.cycle + c.mop.latency

/-- **A sound schedule.** -/
structure ScheduleSound (commits : List Commit) : Prop where
  commit : ∀ c ∈ commits, c.Sound
  /-- The registers of a commit are what the results before it made them. -/
  registers : ∀ before c after, commits = before ++ c :: after → c.registers = registersAfter before
  /-- No two micro-ops have one place. -/
  distinct : ((commits.flatMap Commit.slots).map Slot.place).Nodup
  allowed : ∀ slot ∈ commits.flatMap Commit.slots,
    slot.cycle < CYCLE_MAP_SIZE ∧ slot.uop &&& portMask slot.port ≠ 0
  /-- Two results on a register, one after the other, differ. -/
  results : ∀ reg, (commits.filterMap (Commit.resultOn reg)).IsChain (· ≠ ·)

theorem registersAfter_snoc (commits : List Commit) (c : Commit) :
    registersAfter (commits ++ [c]) = c.apply (registersAfter commits) := List.foldl_append

theorem get_setIfInBounds (registers : Registers) (dst reg : Fin 8) (info : RegisterInfo) :
    (registers.setIfInBounds dst info).get reg = if dst = reg then info else registers.get reg := by
  refine (Vector.getElem_setIfInBounds reg.isLt).trans ?_
  simp only [Fin.val_inj]
  rfl

/-- The last result on a register is what the registers say. -/
theorem registersAfter_last (commits : List Commit) (reg : Fin 8) :
    ∀ res ∈ (commits.filterMap (Commit.resultOn reg)).getLast?,
      res = (((registersAfter commits).get reg).lastOpGroup, ((registersAfter commits).get reg).lastOpPar) := by
  induction commits using List.reverseRecOn with
  | nil => exact nofun
  | append_singleton commits c ih =>
    rw [registersAfter_snoc, List.filterMap_append]
    generalize registersAfter commits = registers at ih
    unfold Commit.apply
    -- only the macro-op that holds the result writes, and only to its destination
    by_cases hindex : c.macroOpIndex = c.current.info.resultOp
    · rw [if_pos hindex]
      cases hdst : c.current.dst with
      | none =>
        have hnone : [c].filterMap (Commit.resultOn reg) = [] := by simp [Commit.resultOn, hdst]
        rw [hnone, List.append_nil]
        exact ih
      | some dst =>
        by_cases hreg : dst = reg
        · subst hreg
          have hsome : [c].filterMap (Commit.resultOn dst) = [(c.current.opGroup, c.current.opGroupPar)] := by
            simp [Commit.resultOn, hdst, hindex]
          rw [hsome, List.getLast?_append, get_setIfInBounds, if_pos rfl]
          rintro res ⟨⟩
          rfl
        · have hnone : [c].filterMap (Commit.resultOn reg) = [] := by simp [Commit.resultOn, hdst, hreg]
          rw [hnone, List.append_nil]
          rw [get_setIfInBounds, if_neg hreg]
          exact ih
    · have hnone : [c].filterMap (Commit.resultOn reg) = [] := by simp [Commit.resultOn, hindex]
      rw [if_neg hindex, hnone, List.append_nil]
      exact ih

/-- **One more commit.** -/
theorem ScheduleSound.snoc {commits : List Commit} (h : ScheduleSound commits) {c : Commit} (hc : c.Sound)
    (hregisters : c.registers = registersAfter commits) {start portBusy : PortBusy}
    (hplaced : Placed start portBusy ((commits ++ [c]).flatMap Commit.slots))
    (hfresh : c.macroOpIndex = c.current.info.resultOp → ∀ dst, c.current.dst = some dst →
      Fresh c.current (c.registers.get dst)) : ScheduleSound (commits ++ [c]) where
  commit c' hc' := by
    rcases List.mem_append.mp hc' with hmem | hmem
    · exact h.commit c' hmem
    · rw [List.mem_singleton.mp hmem]
      exact hc
  registers before c' after heq := by
    rcases List.eq_nil_or_concat after with rfl | ⟨after', last, rfl⟩
    · obtain ⟨rfl, hlast⟩ := List.append_inj' heq rfl
      rw [← List.singleton_inj.mp hlast]
      exact hregisters
    · rw [List.concat_eq_append, ← List.cons_append, ← List.append_assoc] at heq
      obtain ⟨hinit, -⟩ := List.append_inj' heq rfl
      exact h.registers before c' after' hinit
  distinct := hplaced.distinct
  allowed slot hslot := ⟨lt_of_entry (hplaced.taken slot hslot), (hplaced.free slot hslot).allowed⟩
  results reg := by
    rw [List.filterMap_append, List.isChain_append]
    refine ⟨h.results reg, ?_, ?_⟩
    · rw [List.filterMap_cons]
      split
      · exact .nil
      · exact .singleton _
    · -- the new result on `reg` differs from the last one there, since the destination was fresh for it
      intro res hres res' hres' heq
      obtain ⟨_, _, hsome⟩ := List.mem_filterMap.mp (List.mem_of_mem_head? hres')
      obtain rfl := List.mem_singleton.mp ‹_›
      unfold Commit.resultOn at hsome
      split at hsome
      next hon =>
        refine hfresh hon.1 reg hon.2 ?_
        rw [Option.some.inj hsome, ← heq, hregisters]
        exact (registersAfter_last commits reg res hres).symm
      next => cases hsome

/-! ## Throwing away -/

/-- No more than so many instructions are thrown away between two commits. -/
def Stretch (log : List Event) : Prop :=
  ∀ stretch, stretch <:+: log → commitsOf stretch = [] → stretch.countP Event.isThrowAway ≤ MAX_THROWAWAY_COUNT

/-- ... and `count` of them after the last one. -/
def Tail (log : List Event) (count : Nat) : Prop :=
  ∀ tail, tail <:+ log → commitsOf tail = [] → tail.countP Event.isThrowAway ≤ count

theorem commitsOf_append (log log' : List Event) : commitsOf (log ++ log') = commitsOf log ++ commitsOf log' :=
  List.filterMap_append

theorem Tail.snoc {log : List Event} {count : Nat} (h : Tail log count) (e : Event) :
    Tail (log ++ [e]) (count + [e].countP Event.isThrowAway) := by
  intro tail htail hquiet
  rcases List.suffix_concat_iff.mp htail with rfl | ⟨init, rfl, hinit⟩
  · exact Nat.zero_le _
  · rw [commitsOf_append, List.append_eq_nil_iff] at hquiet
    rw [List.countP_append]
    exact Nat.add_le_add_right (h init hinit hquiet.1) _

theorem Tail.snoc_commit (log : List Event) (c : Commit) : Tail (log ++ [.commit c]) 0 := by
  intro tail htail hquiet
  rcases List.suffix_concat_iff.mp htail with rfl | ⟨init, rfl, -⟩
  · exact le_rfl
  · rw [commitsOf_append, List.append_eq_nil_iff] at hquiet
    cases hquiet.2

theorem Stretch.snoc {log : List Event} {count : Nat} {e : Event} (h : Stretch log) (htail : Tail (log ++ [e]) count)
    (hcount : count ≤ MAX_THROWAWAY_COUNT) : Stretch (log ++ [e]) := by
  intro stretch hstretch hquiet
  rcases List.infix_concat_iff.mp hstretch with hsuffix | hinfix
  · exact (htail stretch hsuffix hquiet).trans hcount
  · exact h stretch hinfix hquiet

/-! ## The invariant -/

/-- What the log says, and how the port map and the registers come from it; after `n` decode cycles. -/
structure Trace (n : Nat) (log : List Event) (portBusy : PortBusy) (registers : Registers) : Prop where
  schedule : ScheduleSound (commitsOf log)
  placed : Placed (Vector.replicate _ (Vector.replicate 3 0)) portBusy ((commitsOf log).flatMap Commit.slots)
  registers : registers = registersAfter (commitsOf log)
  stretch : Stretch log
  decodes : log.countP Event.isDecode = n

/-- An event that commits nothing. -/
theorem Trace.snoc {n : Nat} {log : List Event} {portBusy : PortBusy} {registers : Registers}
    (h : Trace n log portBusy registers) {e : Event} (he : e.commit? = none) {count : Nat}
    (htail : Tail (log ++ [e]) count) (hcount : count ≤ MAX_THROWAWAY_COUNT) :
    Trace (n + [e].countP Event.isDecode) (log ++ [e]) portBusy registers := by
  have hcommits : commitsOf (log ++ [e]) = commitsOf log := by
    rw [commitsOf_append, commitsOf, commitsOf, List.filterMap_cons, he, List.filterMap_nil, List.append_nil]
  refine ⟨?_, ?_, ?_, h.stretch.snoc htail hcount, ?_⟩
  · rw [hcommits]
    exact h.schedule
  · rw [hcommits]
    exact h.placed
  · rw [hcommits]
    exact h.registers
  · rw [List.countP_append, h.decodes]

/-- A commit. -/
theorem Trace.snoc_commit {n : Nat} {log : List Event} {portBusy portBusy' : PortBusy} {registers : Registers}
    (h : Trace n log portBusy registers) {c : Commit} (hc : c.Sound) (hregisters : c.registers = registers)
    (hplaced : Placed portBusy portBusy' c.slots)
    (hfresh : c.macroOpIndex = c.current.info.resultOp → ∀ dst, c.current.dst = some dst →
      Fresh c.current (c.registers.get dst)) : Trace n (log ++ [.commit c]) portBusy' (c.apply registers) := by
  have hcommits : commitsOf (log ++ [.commit c]) = commitsOf log ++ [c] := commitsOf_append _ _
  have hplaced' : Placed (Vector.replicate _ (Vector.replicate 3 0)) portBusy'
      ((commitsOf log ++ [c]).flatMap Commit.slots) := by
    rw [List.flatMap_append, List.flatMap_singleton]
    exact h.placed.append hplaced
  refine ⟨?_, ?_, ?_, h.stretch.snoc (Tail.snoc_commit log c) (Nat.zero_le _), ?_⟩
  · rw [hcommits]
    exact h.schedule.snoc hc (hregisters.trans h.registers) hplaced' hfresh
  · rw [hcommits]
    exact hplaced'
  · rw [hcommits, h.registers, registersAfter_snoc]
  · rw [List.countP_append, h.decodes]
    rfl

end Superscalar
end RandomX
end MinerTim
