import MinerTim.RandomX.SuperscalarSchedule

/-!
# `RandomX.SuperscalarSpec` — the programs that `generate_superscalar` generates

`Inv` is the invariant of the generator. Its part for the current instruction is `InProgress`: which operands have been
selected before the macro-op at an index, and that a destination whose result is still to come is ready at most
`LOOK_FORWARD_CYCLES - 1` cycles after the current one. That margin is what the look-forward costs, as the cycle is
set back after each macro-op; the latency of a multiplication covers it. `Selected` is the same after the selections of
a pass, when the macro-op is about to be committed.

One pass of the loop keeps the invariant, and goes on to the next slot or throws an instruction away
(`bufferPass_spec`), so that the loop ends; the generator then ends unless a rejection loop does not
(`schedule_spec`).
-/

namespace MinerTim
namespace RandomX
namespace Superscalar

open Fuelled (Ends)

/-! ## Well-formed instructions -/

/-- **A well-formed instruction.** -/
structure WellFormed (inst : SuperscalarInstruction) : Prop where
  opcode : inst.opcode.toNat ≤ 13
  dst : inst.dst.toNat < 8
  src : inst.src.toNat < 8
  /-- `IMUL_RCP`. -/
  divisor : inst.opcode.toNat = 13 → inst.imm32 ≠ 0 ∧ ∀ k, inst.imm32.toNat ≠ 2 ^ k
  /-- `IROR_C`. -/
  rotateCount : inst.opcode.toNat = 4 → 1 ≤ inst.imm32.toNat ∧ inst.imm32.toNat ≤ 63
  /-- `IADD_RS`. -/
  displacement : inst.opcode.toNat = 2 → inst.dst.toNat ≠ 5
  /-- `ISUB_R`, `IXOR_R`, `IADD_RS` and `IMUL_R`. -/
  distinct : inst.opcode.toNat < 4 → inst.src ≠ inst.dst

/-- A working instruction with all of its operands. -/
structure Complete (inst : WorkingInstruction) : Prop where
  created : Created inst
  source : inst.info.srcOp.isSome = true → inst.src.isSome = true
  destination : ∃ dst, inst.dst = some dst ∧ Target inst dst

theorem isZeroOrPowerOf2_two_pow {x : BitVec 32} {k : Nat} (h : x.toNat = 2 ^ k) : isZeroOrPowerOf2 x = true := by
  have hpos : 1 ≤ 2 ^ k := Nat.one_le_two_pow
  have hsub : (x - 1).toNat = 2 ^ k - 1 := by
    have hlt := x.isLt
    rw [BitVec.toNat_sub, show (1 : BitVec 32).toNat = 1 from rfl]
    omega
  have hzero : x &&& (x - 1) = 0 := by
    apply BitVec.eq_of_toNat_eq
    rw [BitVec.toNat_and, hsub, h, Nat.and_two_pow_sub_one_eq_mod, Nat.mod_self]
    rfl
  rw [isZeroOrPowerOf2, hzero]
  simp

theorem code_eq_13 {t : SsType} (h : t.code.toNat = 13) : t = .IMUL_RCP := by
  cases t <;> first | rfl | exact absurd h (by decide)

theorem code_eq_4 {t : SsType} (h : t.code.toNat = 4) : t = .IROR_C := by
  cases t <;> first | rfl | exact absurd h (by decide)

theorem code_eq_2 {t : SsType} (h : t.code.toNat = 2) : t = .IADD_RS := by
  cases t <;> first | rfl | exact absurd h (by decide)

theorem code_lt_4 {t : SsType} (h : t.code.toNat < 4) : t.parIsSource = true ∧ t.reuses = false := by
  cases t <;> first | exact ⟨rfl, rfl⟩ | exact absurd h (by decide)

theorem toNat_register (reg : Fin 8) : (BitVec.ofNat 8 reg).toNat = reg := by
  rw [BitVec.toNat_ofNat]
  omega

/-- **`to_output` of a complete instruction is well-formed.** -/
theorem Complete.toOutput {inst : WorkingInstruction} (h : Complete inst) : WellFormed inst.toOutput := by
  obtain ⟨dst, hdst, htarget⟩ := h.destination
  have hok := ok_of_mem h.created.info
  have hdst' : inst.toOutput.dst = BitVec.ofNat 8 dst := by
    unfold WorkingInstruction.toOutput
    rw [hdst]
    rfl
  have hsrc' : inst.toOutput.src = BitVec.ofNat 8 (inst.src.getD dst) := by
    unfold WorkingInstruction.toOutput
    rw [hdst]
    cases inst.src with
    | none => rfl
    | some src => rfl
  refine ⟨hok.code, ?_, ?_, fun hcode => ?_, fun hcode => ?_, fun hcode => ?_, fun hcode => ?_⟩
  · rw [hdst', toNat_register]
    exact dst.isLt
  · rw [hsrc', toNat_register]
    exact Fin.isLt _
  · have hpower := h.created.divisor (code_eq_13 hcode)
    -- IMUL_RCP draws its divisor again until it is neither zero nor a power of two
    refine ⟨fun hzero => ?_, fun k hk => ?_⟩
    · rw [show inst.imm32 = 0 from hzero] at hpower
      exact absurd hpower (by decide)
    · rw [isZeroOrPowerOf2_two_pow (show inst.imm32.toNat = 2 ^ k from hk)] at hpower
      cases hpower
  · exact h.created.rotateCount (code_eq_4 hcode)
  · rw [hdst', toNat_register]
    exact fun heq => htarget.displacement (code_eq_2 hcode) (Fin.ext heq)
  · -- the four instructions that may not have their destination as source
    obtain ⟨hpar, hreuses⟩ := code_lt_4 hcode
    obtain ⟨src, hsrc⟩ := Option.isSome_iff_exists.mp (h.source (hok.sourced hpar))
    rw [hsrc', hdst', hsrc, Option.getD_some]
    intro heq
    have heq' := congrArg BitVec.toNat heq
    rw [toNat_register, toNat_register] at heq'
    refine htarget.distinct (h.created.canReuse.trans hreuses) ?_
    rw [hsrc, Fin.ext heq']

/-! ## The current instruction -/

/-- **An instruction before the macro-op at `index`.** -/
structure InProgress (inst : WorkingInstruction) (index : Nat) (registers : Registers) (cycle : Nat) : Prop where
  created : Created inst
  source : ∀ k ∈ inst.info.srcOp, k < index → inst.src.isSome = true
  destination : inst.info.dstOp < index → ∃ dst, inst.dst = some dst ∧ Target inst dst ∧
    (index ≤ inst.info.resultOp → Fresh inst (registers.get dst) ∧
      (registers.get dst).latency + 1 ≤ cycle + LOOK_FORWARD_CYCLES)

/-- The source of the macro-op at `index`, if it selects one, is ready at `scheduleCycle`. -/
def SourceReady (inst : WorkingInstruction) (index : Nat) (registers : Registers) (scheduleCycle : Nat) : Prop :=
  ∀ k ∈ inst.info.srcOp, k ≤ index →
    ∃ src, inst.src = some src ∧ (k = index → (registers.get src).latency ≤ scheduleCycle)

/-- **An instruction whose macro-op at `index` is about to be committed.** -/
structure Selected (inst : WorkingInstruction) (index : Nat) (registers : Registers) (topCycle scheduleCycle : Nat) :
    Prop where
  created : Created inst
  source : SourceReady inst index registers scheduleCycle
  destination : inst.info.dstOp ≤ index → ∃ dst, inst.dst = some dst ∧ Target inst dst ∧
    (inst.info.dstOp = index → (registers.get dst).latency ≤ scheduleCycle) ∧
    (index ≤ inst.info.resultOp → Fresh inst (registers.get dst) ∧
      (inst.info.dstOp ≠ inst.info.resultOp → (registers.get dst).latency + 1 ≤ topCycle + LOOK_FORWARD_CYCLES))

/-- A new instruction. -/
theorem Created.inProgress {inst : WorkingInstruction} (h : Created inst) (registers : Registers) (cycle : Nat) :
    InProgress inst 0 registers cycle :=
  ⟨h, fun _ _ hk => absurd hk (Nat.not_lt_zero _), fun hk => absurd hk (Nat.not_lt_zero _)⟩

/-- After the last macro-op. -/
theorem Selected.complete {inst : WorkingInstruction} {index : Nat} {registers : Registers}
    {topCycle scheduleCycle : Nat} (h : Selected inst index registers topCycle scheduleCycle)
    (hlast : inst.info.ops.length ≤ index + 1) :
    Complete inst := by
  have hok := ok_of_mem h.created.info
  have hresult := hok.resultOp
  have hdst := hok.dstOp
  refine ⟨h.created, fun hsome => ?_, ?_⟩
  · obtain ⟨k, hk⟩ := Option.isSome_iff_exists.mp hsome
    have hlt := hok.srcOp k hk
    obtain ⟨src, hsrc, _⟩ := h.source k hk (by omega)
    rw [hsrc]
    rfl
  · obtain ⟨dst, hdst, htarget, _⟩ := h.destination (by omega)
    exact ⟨dst, hdst, htarget⟩

theorem reuses_spec {t : SsType} (h : t.reuses = true) : t.parIsSource = false ∧ t ≠ .IADD_RS := by
  cases t <;> first | exact ⟨rfl, nofun⟩ | cases h

section

variable {inst : WorkingInstruction} {index : Nat} {registers : Registers} {topCycle scheduleCycle : Nat}

/-- A source that has been selected. -/
theorem InProgress.select_source (h : InProgress inst index registers topCycle) {src : Fin 8} {opGroupPar : BitVec 32}
    (hop : inst.info.srcOp = some index) (hready : (registers.get src).latency ≤ scheduleCycle)
    (hpar : inst.groupParIsSource = false → inst.info.instType ≠ .IADD_RS → opGroupPar = inst.opGroupPar) :
    InProgress { inst with src := some src, opGroupPar } index registers topCycle ∧
      SourceReady { inst with src := some src, opGroupPar } index registers scheduleCycle := by
  have hcreated : Created { inst with src := some src, opGroupPar } :=
    ⟨h.created.info, h.created.canReuse, h.created.groupParIsSource, h.created.rotateCount, h.created.divisor⟩
  refine ⟨⟨hcreated, fun _ _ _ => rfl, fun hlt => ?_⟩, fun k _ _ => ⟨src, rfl, fun _ => hready⟩⟩
  obtain ⟨dst, hdst, htarget, hpending⟩ := h.destination hlt
  -- the destination came first, so the instruction is one that may reuse its source
  have hreuses : inst.info.instType.reuses = true := by
    by_contra hfalse
    have hfirst := (ok_of_mem h.created.info).sourceFirst (by simpa using hfalse) index hop
    exact absurd hlt (Nat.not_lt.mpr hfirst)
  obtain ⟨hnotPar, htype⟩ := reuses_spec hreuses
  refine ⟨dst, hdst, ⟨htarget.displacement, fun hreuse => ?_⟩, fun hle => ?_⟩
  · rw [h.created.canReuse.trans hreuses] at hreuse
    cases hreuse
  · obtain rfl := hpar (h.created.groupParIsSource.trans hnotPar) htype
    exact hpending hle

/-- A macro-op that selects no source. -/
theorem InProgress.sourceReady (h : InProgress inst index registers topCycle) (hop : inst.info.srcOp ≠ some index) :
    SourceReady inst index registers scheduleCycle := by
  intro k hk hle
  have hne : k ≠ index := fun heq => hop (heq ▸ hk)
  obtain ⟨src, hsrc⟩ := Option.isSome_iff_exists.mp (h.source k hk (by omega))
  exact ⟨src, hsrc, fun heq => absurd heq hne⟩

/-- A destination that has been selected. -/
theorem InProgress.select_destination (h : InProgress inst index registers topCycle)
    (hsource : SourceReady inst index registers scheduleCycle) {forward : Nat}
    (hforward : forward < LOOK_FORWARD_CYCLES) {dst : Fin 8}
    (hready : (registers.get dst).latency ≤ scheduleCycle + forward) (htarget : Target inst dst)
    (hfresh : Fresh inst (registers.get dst))
    (hearly : inst.info.dstOp ≠ inst.info.resultOp → scheduleCycle = topCycle) :
    Selected { inst with dst := some dst } index registers topCycle (scheduleCycle + forward) := by
  refine ⟨⟨h.created.info, h.created.canReuse, h.created.groupParIsSource, h.created.rotateCount, h.created.divisor⟩,
    fun k hk hle => ?_, fun _ => ⟨dst, rfl, ⟨htarget.displacement, htarget.distinct⟩, fun _ => hready,
      fun _ => ⟨hfresh, fun hne => ?_⟩⟩⟩
  · obtain ⟨src, hsrc, hle'⟩ := hsource k hk hle
    exact ⟨src, hsrc, fun heq => (hle' heq).trans (Nat.le_add_right _ _)⟩
  · have := hearly hne
    omega

/-- A macro-op that selects no destination. -/
theorem InProgress.selected (h : InProgress inst index registers topCycle)
    (hsource : SourceReady inst index registers scheduleCycle) (hop : index ≠ inst.info.dstOp) :
    Selected inst index registers topCycle scheduleCycle := by
  refine ⟨h.created, hsource, fun hle => ?_⟩
  obtain ⟨dst, hdst, htarget, hpending⟩ := h.destination (by omega)
  exact ⟨dst, hdst, htarget, fun heq => absurd heq.symm hop, fun hle => (hpending hle).imp_right fun hlt _ => hlt⟩

/-- **The result comes late enough.** -/
theorem Selected.result_lt (h : Selected inst index registers topCycle scheduleCycle) (hle : topCycle ≤ scheduleCycle)
    (hindex : index = inst.info.resultOp) {mop : MacroOp} (hmop : inst.info.ops[index]? = some mop) {cycle : Nat}
    (hcycle : scheduleCycle ≤ cycle) : ∃ dst, inst.dst = some dst ∧ (registers.get dst).latency < cycle + mop.latency ∧
      Fresh inst (registers.get dst) := by
  have hok := ok_of_mem h.created.info
  have hdstOp := hok.dstOp
  obtain ⟨dst, hdst, _, hready, hpending⟩ := h.destination (by omega)
  obtain ⟨hfresh, hlate⟩ := hpending (by omega)
  rw [hindex] at hmop
  obtain ⟨hpos, hlatency⟩ := hok.latency mop hmop
  refine ⟨dst, hdst, ?_, hfresh⟩
  by_cases hsame : inst.info.dstOp = inst.info.resultOp
  · have := hready (hsame.trans hindex.symm)
    omega
  · have := hlate hsame
    have := hlatency hsame
    omega

/-- **The next macro-op**, after a commit that is not the last. -/
theorem Selected.next (h : Selected inst index registers topCycle scheduleCycle) {registers' : Registers}
    (hregisters : index ≠ inst.info.resultOp → registers' = registers) :
    InProgress inst (index + 1) registers' topCycle := by
  refine ⟨h.created, fun k hk hlt => ?_, fun hlt => ?_⟩
  · obtain ⟨src, hsrc, _⟩ := h.source k hk (by omega)
    rw [hsrc]
    rfl
  · obtain ⟨dst, hdst, htarget, _, hpending⟩ := h.destination (by omega)
    refine ⟨dst, hdst, htarget, fun hle => ?_⟩
    obtain rfl := hregisters (by omega)
    obtain ⟨hfresh, hlate⟩ := hpending (by omega)
    exact ⟨hfresh, hlate (by omega)⟩

end

/-! ## The invariant -/

section

variable {G : Type} {gen : ByteGenerator G} {n : Nat} {st : State G} {topCycle scheduleCycle : Nat} {mop : MacroOp}

/-- What holds of the output and of the log, also after the ports are saturated. -/
structure Sound (n : Nat) (st : State G) : Prop where
  output : ∀ inst ∈ st.outputInstructions, WellFormed inst
  size : st.outputInstructions.length = st.programSize
  bound : st.programSize ≤ SUPERSCALAR_MAX_SIZE
  trace : Trace n st.log st.portBusy st.registers

/-- **The invariant of the generator**, after `n` decode cycles. -/
structure Inv (n : Nat) (st : State G) : Prop extends Sound n st where
  progress : st.macroOpIndex < st.current.info.ops.length →
    InProgress st.current st.macroOpIndex st.registers st.cycle ∧ st.programSize < SUPERSCALAR_MAX_SIZE
  tail : Tail st.log st.throwAwayCount
  count : st.throwAwayCount ≤ MAX_THROWAWAY_COUNT

/-- When the loop over a buffer is left. -/
def Left (n : Nat) (st : State G) : Prop := Sound n st ∧ (st.portsSaturated = false → Inv n st)

/-- **A pass** goes to the next slot, or throws an instruction away, or leaves the loop. -/
def PassSpec (n : Nat) (st : State G) : Pass G → Prop :=
  Sum.elim (fun st' => Inv n st' ∧ (st'.bufferIndex = st.bufferIndex + 1 ∨
    (st'.bufferIndex = st.bufferIndex ∧ st'.throwAwayCount = st.throwAwayCount + 1))) (Left n)

theorem Sound.saturated (h : Sound n st) (hsat : st.portsSaturated = true) : Left n st :=
  ⟨h, fun hfalse => absurd (hsat.symm.trans hfalse) nofun⟩

/-- **Throwing away** an instruction, or abandoning the buffer. -/
theorem throwAway_spec (h : Sound n st) (htail : Tail st.log st.throwAwayCount)
    (hcount : st.throwAwayCount ≤ MAX_THROWAWAY_COUNT) : PassSpec n st (throwAway st) := by
  unfold throwAway
  split
  next hlt =>
    have htail' : Tail (st.log ++ [.throwAway]) (st.throwAwayCount + 1) := htail.snoc .throwAway
    exact ⟨⟨⟨h.output, h.size, h.bound, h.trace.snoc rfl htail' hlt⟩, fun hlt' => absurd hlt' (Nat.lt_irrefl _), htail',
      hlt⟩, .inr ⟨rfl, rfl⟩⟩
  next =>
    have htail' : Tail (st.log ++ [.abandon]) st.throwAwayCount := htail.snoc .abandon
    have hsound : Sound n { st with current := .null, log := st.log ++ [.abandon] } :=
      ⟨h.output, h.size, h.bound, h.trace.snoc rfl htail' hcount⟩
    exact ⟨hsound, fun _ => ⟨hsound, fun hlt => absurd hlt (Nat.not_lt_zero _), htail', hcount⟩⟩

theorem earliest_self (mop : MacroOp) (cycle : Nat) : mop.earliest cycle cycle = cycle := by
  unfold MacroOp.earliest
  split
  · exact Nat.max_self cycle
  · rfl

theorem le_earliest (mop : MacroOp) (cycle depCycle : Nat) : cycle ≤ mop.earliest cycle depCycle := by
  unfold MacroOp.earliest
  split
  · exact Nat.le_max_left cycle depCycle
  · exact le_rfl

/-- The registers after the result of a macro-op are those that the log gives. -/
theorem recordResult_spec {c : Commit} (hcurrent : c.current = st.current) (hindex : c.macroOpIndex = st.macroOpIndex)
    (hdep : st.depCycle = c.cycle + c.mop.latency)
    (hdst : st.macroOpIndex = st.current.info.resultOp → ∃ dst, st.current.dst = some dst) :
    recordResult st = some { st with registers := c.apply st.registers } := by
  unfold recordResult Commit.apply
  rw [hcurrent, hindex]
  by_cases hresult : st.macroOpIndex = st.current.info.resultOp
  · obtain ⟨dst, heq⟩ := hdst hresult
    rw [if_pos hresult, if_pos hresult, heq, hdep]
    rfl
  · rw [if_neg hresult, if_neg hresult]

/-- The end of a pass: the instruction is emitted after its last macro-op. -/
theorem emitInstruction_spec (h : Sound n st) (hsize : st.programSize < SUPERSCALAR_MAX_SIZE)
    (hcomplete : st.current.info.ops.length ≤ st.macroOpIndex → Complete st.current)
    (hprogress : InProgress st.current st.macroOpIndex st.registers st.cycle) (htail : Tail st.log st.throwAwayCount)
    (hcount : st.throwAwayCount ≤ MAX_THROWAWAY_COUNT) :
    Inv n (emitInstruction st) ∧ (emitInstruction st).bufferIndex = st.bufferIndex := by
  unfold emitInstruction
  split
  next hlast =>
    refine ⟨⟨⟨fun inst hinst => ?_, ?_, hsize, h.trace⟩, fun hlt => absurd hlt (Nat.not_lt.mpr hlast), htail, hcount⟩,
      rfl⟩
    · rcases List.mem_append.mp hinst with hmem | hmem
      · exact h.output inst hmem
      · rw [List.mem_singleton.mp hmem]
        exact (hcomplete hlast).toOutput
    · show (st.outputInstructions ++ [_]).length = st.programSize + 1
      rw [List.length_append, h.size]
      rfl
  next => exact ⟨⟨h, fun _ => ⟨hprogress, hsize⟩, htail, hcount⟩, rfl⟩

/-- **A pass, from the commit on.** -/
theorem commitMacroOp_spec (h : Sound n st)
    (hsel : Selected st.current st.macroOpIndex st.registers topCycle scheduleCycle) (hle : topCycle ≤ scheduleCycle)
    (hmop : st.current.info.ops[st.macroOpIndex]? = some mop) (hsize : st.programSize < SUPERSCALAR_MAX_SIZE)
    (hcount : st.throwAwayCount = 0) :
    ∃ pass, commitMacroOp topCycle mop st scheduleCycle = some pass ∧
      Sum.elim (fun st' => Inv n st' ∧ st'.bufferIndex = st.bufferIndex + 1) (Left n) pass := by
  have hok := ok_of_mem hsel.created.info
  obtain ⟨found, portBusy', heq, hnone, hfound⟩ := scheduleMop_commit (hok.disjoint mop (List.mem_of_getElem? hmop))
    st.portBusy scheduleCycle scheduleCycle
  unfold commitMacroOp
  rw [heq, Option.bind_eq_bind, Option.bind_some]
  cases found with
  | none =>
    -- no free slot: the schedule ends, with nothing taken
    rw [hnone rfl]
    have hsound : Sound n { st with portsSaturated := true } := ⟨h.output, h.size, h.bound, h.trace⟩
    exact ⟨_, rfl, hsound.saturated rfl⟩
  | some res =>
    obtain ⟨⟨hstart, _⟩, hplaced, huops, hcycle⟩ := hfound res rfl
    rw [earliest_self] at hstart
    dsimp only
    generalize hc : ({ current := st.current, macroOpIndex := st.macroOpIndex, mop, cycle := res.cycle
                       slots := res.slots, registers := st.registers } : Commit) = c
    have hsound : c.Sound := by
      rw [← hc]
      refine ⟨hmop, huops, hcycle, fun hop => ?_, fun hop => ?_, fun hop => ?_⟩
      · obtain ⟨src, hsrc, hready⟩ := hsel.source _ hop le_rfl
        exact ⟨src, hsrc, (hready rfl).trans hstart⟩
      · obtain ⟨dst, hdst, _, hready, _⟩ := hsel.destination hop.symm.le
        exact ⟨dst, hdst, (hready hop.symm).trans hstart⟩
      · obtain ⟨dst, hdst, hlt, _⟩ := hsel.result_lt hle hop hmop hstart
        exact ⟨dst, hdst, hlt⟩
    -- the trace takes the commit, and the result is recorded after it
    have htrace : Trace n (st.log ++ [.commit c]) portBusy' (c.apply st.registers) := by
      refine h.trace.snoc_commit hsound (by rw [← hc]) (by rw [← hc]; exact hplaced) ?_
      rw [← hc]
      intro hop dst hdst
      obtain ⟨dst', hdst', _, hfresh⟩ := hsel.result_lt hle hop hmop hstart
      obtain rfl := Option.some.inj (hdst'.symm.trans hdst)
      exact hfresh
    have hregisters : st.macroOpIndex ≠ st.current.info.resultOp → c.apply st.registers = st.registers := by
      rw [← hc]
      exact fun hne => if_neg hne
    have hrecord : recordResult { st with
        portBusy := portBusy', depCycle := res.cycle + mop.latency, log := st.log ++ [.commit c] } = some { st with
        portBusy := portBusy', depCycle := res.cycle + mop.latency, log := st.log ++ [.commit c]
        registers := c.apply st.registers } := by
      refine recordResult_spec (by rw [← hc]) (by rw [← hc]) (by rw [← hc]) fun hop => ?_
      obtain ⟨dst, hdst, _⟩ := hsel.result_lt hle hop hmop hstart
      exact ⟨dst, hdst⟩
    rw [hrecord]
    refine ⟨_, rfl, ?_⟩
    refine emitInstruction_spec ⟨h.output, h.size, h.bound, htrace⟩ hsize hsel.complete (hsel.next hregisters) ?_ ?_
    · show Tail (st.log ++ [.commit c]) st.throwAwayCount
      rw [hcount]
      exact Tail.snoc_commit st.log c
    · show st.throwAwayCount ≤ _
      rw [hcount]
      exact Nat.zero_le _

/-- **A pass, from the selection of the destination on.** -/
theorem issueFromDestination_spec (h : Sound n st)
    (hprogress : InProgress st.current st.macroOpIndex st.registers topCycle)
    (hsource : SourceReady st.current st.macroOpIndex st.registers scheduleCycle) (hle : topCycle ≤ scheduleCycle)
    (hearly : st.macroOpIndex = st.current.info.dstOp → st.current.info.dstOp ≠ st.current.info.resultOp →
      scheduleCycle = topCycle)
    (hmop : st.current.info.ops[st.macroOpIndex]? = some mop) (hsize : st.programSize < SUPERSCALAR_MAX_SIZE)
    (htail : Tail st.log st.throwAwayCount) (hcount : st.throwAwayCount ≤ MAX_THROWAWAY_COUNT) :
    ∃ pass, issueFromDestination gen topCycle mop st scheduleCycle = some pass ∧ PassSpec n st pass := by
  -- whichever way the destination is found, the pass ends in the commit
  have hcommit : ∀ (st' : State G) (sc : Nat), (∃ pass, commitMacroOp topCycle mop st' sc = some pass ∧
      Sum.elim (fun st'' => Inv n st'' ∧ st''.bufferIndex = st.bufferIndex + 1) (Left n) pass) →
      ∃ pass, commitMacroOp topCycle mop st' sc = some pass ∧ PassSpec n st pass := by
    rintro st' sc ⟨st'' | st'', heq, hspec⟩
    · exact ⟨_, heq, hspec.1, .inl hspec.2⟩
    · exact ⟨_, heq, hspec⟩
  unfold issueFromDestination
  have hselect := selectOperand_spec (decide (st.macroOpIndex = st.current.info.dstOp))
    (fun cycle => selectDestination gen st.current cycle (0 < st.throwAwayCount) st.registers st.generator)
    st scheduleCycle
  generalize selectOperand (decide (st.macroOpIndex = st.current.info.dstOp)) _ st scheduleCycle = res at hselect ⊢
  cases hselect with
  | skipped hop =>
    exact hcommit { st with throwAwayCount := 0 } _ (commitMacroOp_spec ⟨h.output, h.size, h.bound, h.trace⟩
      (hprogress.selected hsource (of_decide_eq_false hop)) hle hmop hsize rfl)
  | @selected current generator forward hop hforward hres =>
    obtain ⟨dst, hcurrent, hready, htarget, hfresh⟩ := selectDestination_spec hres
    obtain rfl : current = { st.current with dst := some dst } := hcurrent
    exact hcommit { st with
      current := { st.current with dst := some dst }, generator, cycle := st.cycle + forward, throwAwayCount := 0 } _
      (commitMacroOp_spec ⟨h.output, h.size, h.bound, h.trace⟩
        (hprogress.select_destination hsource hforward hready htarget hfresh (hearly (of_decide_eq_true hop)))
        (hle.trans (Nat.le_add_right _ _)) hmop hsize rfl)
  | failed =>
    exact ⟨_, rfl, @throwAway_spec G n { st with cycle := st.cycle + LOOK_FORWARD_CYCLES }
      ⟨h.output, h.size, h.bound, h.trace⟩ htail hcount⟩

/-- **A pass, from the dry run on.** -/
theorem issueMacroOp_spec (h : Inv n st) (hmop : st.current.info.ops[st.macroOpIndex]? = some mop) :
    ∃ pass, issueMacroOp gen st.cycle mop st = some pass ∧ PassSpec n st pass := by
  obtain ⟨hprogress, hsize⟩ := h.progress (List.getElem?_eq_some_iff.mp hmop).1
  have hok := ok_of_mem hprogress.created.info
  obtain ⟨found, portBusy', heq, hfound⟩ := scheduleMop_dry mop st.portBusy st.cycle st.depCycle
  unfold issueMacroOp
  rw [heq, Option.bind_eq_bind, Option.bind_some]
  cases found with
  | none =>
    have hsound : Sound n { st with portsSaturated := true } := ⟨h.output, h.size, h.bound, h.trace⟩
    exact ⟨_, rfl, hsound.saturated rfl⟩
  | some scheduled =>
    obtain ⟨hstart, heliminated⟩ := hfound scheduled rfl
    have hle : st.cycle ≤ scheduled.cycle := (le_earliest _ _ _).trans hstart
    -- a destination that is selected before the result: no source, and no port to wait for
    have hearly : st.macroOpIndex = st.current.info.dstOp → st.current.info.dstOp ≠ st.current.info.resultOp →
        st.current.info.srcOp ≠ some st.macroOpIndex ∧ scheduled.cycle = st.cycle := by
      intro hop hne
      obtain ⟨hsrc, hmops⟩ := hok.early hne
      rw [← hop] at hsrc hmops
      obtain ⟨helim, hdependent⟩ := hmops mop hmop
      refine ⟨hsrc, ?_⟩
      rw [heliminated helim, MacroOp.earliest, hdependent, if_neg Bool.false_ne_true]
    dsimp only
    have hselect := selectOperand_spec (decide (st.current.info.srcOp = some st.macroOpIndex))
      (fun cycle => selectSource gen st.current cycle st.registers st.generator) st scheduled.cycle
    generalize selectOperand (decide (st.current.info.srcOp = some st.macroOpIndex)) _ st scheduled.cycle = res
      at hselect ⊢
    cases hselect with
    | skipped hop =>
      exact issueFromDestination_spec h.toSound hprogress (hprogress.sourceReady (of_decide_eq_false hop)) hle
        (fun hop hne => (hearly hop hne).2) hmop hsize h.tail h.count
    | @selected current generator forward hop hforward hres =>
      obtain ⟨src, opGroupPar, hcurrent, hready, hpar⟩ := selectSource_spec hres
      obtain rfl : current = { st.current with src := some src, opGroupPar } := hcurrent
      obtain ⟨hprogress', hsource⟩ := hprogress.select_source (of_decide_eq_true hop) hready hpar
      have hsound : Sound n { st with
          current := { st.current with src := some src, opGroupPar }, generator, cycle := st.cycle + forward } :=
        ⟨h.output, h.size, h.bound, h.trace⟩
      exact issueFromDestination_spec hsound hprogress' hsource (hle.trans (Nat.le_add_right _ _))
        (fun hop' hne => absurd (of_decide_eq_true hop) (hearly hop' hne).1) hmop hsize h.tail h.count
    | failed =>
      exact ⟨_, rfl, @throwAway_spec G n { st with cycle := st.cycle + LOOK_FORWARD_CYCLES }
        ⟨h.output, h.size, h.bound, h.trace⟩ h.tail h.count⟩

/-- The rest of a pass, with an instruction in progress. -/
theorem issue_spec (h : Inv n st) (hlt : st.macroOpIndex < st.current.info.ops.length) :
    Ends (Endless gen) (PassSpec n st) (issue gen st.cycle st) := by
  obtain ⟨pass, heq, hpass⟩ := @issueMacroOp_spec G gen n st _ h (List.getElem?_eq_getElem hlt)
  exact Ends.bind (Ends.ofOption ⟨_, List.getElem?_eq_getElem hlt, rfl⟩) fun _ hmop =>
    Ends.ofOption ⟨pass, hmop ▸ heq, hpass⟩

/-- A new instruction. -/
theorem newInstruction_spec (h : Inv n st) {buffer : DecodeBuffer} (hbuffer : buffer ∈ buffers)
    (hslot : st.bufferIndex < buffer.slots.length) (hsize : st.programSize < SUPERSCALAR_MAX_SIZE) :
    Ends (Endless gen) (fun st' : State G => Inv n st' ∧ st'.macroOpIndex < st'.current.info.ops.length ∧
      st'.bufferIndex = st.bufferIndex ∧ st'.throwAwayCount = st.throwAwayCount ∧ st'.cycle = st.cycle)
      (newInstruction gen buffer st) := by
  obtain ⟨⟨info, g⟩, heq, hinfo⟩ := @selectForSlot_spec G gen buffer hbuffer _ (List.getElem_mem hslot)
    st.generator (st.bufferIndex + 1 == buffer.slots.length)
  refine Ends.bind (Ends.ofOption ⟨_, List.getElem?_eq_getElem hslot, rfl⟩) ?_
  rintro _ rfl
  refine Ends.bind (Ends.ofOption ⟨_, heq, rfl⟩) ?_
  rintro _ rfl
  refine Ends.bind (create_spec hinfo g) ?_
  rintro ⟨current, generator⟩ ⟨hcurrent, hcreated⟩
  refine Ends.pure ⟨⟨⟨h.output, h.size, h.bound, h.trace⟩, fun _ => ⟨hcreated.inProgress _ _, hsize⟩, h.tail, h.count⟩,
    ?_, rfl, rfl, rfl⟩
  exact Nat.lt_of_le_of_lt (Nat.zero_le _) (ok_of_mem hcreated.info).resultOp

/-- **A pass of the loop over a buffer.** -/
theorem bufferPass_spec (h : Inv n st) {buffer : DecodeBuffer} (hbuffer : buffer ∈ buffers) :
    Ends (Endless gen) (Sum.elim (fun st' => Inv n st' ∧
      (buffer.slots.length - st'.bufferIndex) * (MAX_THROWAWAY_COUNT + 1) + (MAX_THROWAWAY_COUNT - st'.throwAwayCount)
        < (buffer.slots.length - st.bufferIndex) * (MAX_THROWAWAY_COUNT + 1)
          + (MAX_THROWAWAY_COUNT - st.throwAwayCount)) (Left n)) (bufferPass gen buffer st) := by
  -- the measure: slots left, and for each of them the instructions that may still be thrown away
  unfold bufferPass
  have hcount := h.count
  split
  next hslot =>
    have hpass : ∀ {pass : Pass G}, PassSpec n st pass → Sum.elim (fun st' => Inv n st' ∧
        (buffer.slots.length - st'.bufferIndex) * (MAX_THROWAWAY_COUNT + 1)
          + (MAX_THROWAWAY_COUNT - st'.throwAwayCount)
          < (buffer.slots.length - st.bufferIndex) * (MAX_THROWAWAY_COUNT + 1)
            + (MAX_THROWAWAY_COUNT - st.throwAwayCount)) (Left n) pass := by
      rintro (st' | st') hspec
      · obtain ⟨hinv, hnext⟩ := hspec
        have hcount' := hinv.count
        refine ⟨hinv, ?_⟩
        unfold MAX_THROWAWAY_COUNT at *
        rcases hnext with hnext | ⟨hsame, hmore⟩
        · rw [hnext]
          omega
        · rw [hsame]
          omega
      · exact hspec
    split
    next hdone =>
      split
      next => exact Ends.pure ⟨h.toSound, fun _ => h⟩
      next hfull =>
        -- a new instruction is made before anything is issued
        rw [not_or, not_le] at hfull
        refine Ends.bind (newInstruction_spec h hbuffer hslot hfull.2) ?_
        rintro st' ⟨hinv, hlt, hindex, hthrown, hcycle⟩
        rw [← hcycle]
        refine (issue_spec hinv hlt).mono fun pass hspec => hpass ?_
        cases pass with
        | inl st'' =>
          rw [PassSpec, hindex, hthrown] at hspec
          exact hspec
        | inr st'' => exact hspec
    next hmore => exact (issue_spec h (not_le.mp hmore)).mono fun pass => hpass
  next => exact Ends.pure ⟨h.toSound, fun _ => h⟩

/-! ## Runs -/

theorem InProgress.mono {inst : WorkingInstruction} {index : Nat} {registers : Registers} {cycle cycle' : Nat}
    (h : InProgress inst index registers cycle) (hle : cycle ≤ cycle') : InProgress inst index registers cycle' := by
  refine ⟨h.created, h.source, fun hlt => ?_⟩
  obtain ⟨dst, hdst, htarget, hpending⟩ := h.destination hlt
  exact ⟨dst, hdst, htarget, fun hle' => (hpending hle').imp_right fun hready => by omega⟩

/-- **A decode cycle.** -/
theorem decode_spec (h : Inv n st) (decodeCycle : Nat) :
    Ends (Endless gen) (Left (n + 1)) (decode gen decodeCycle st) := by
  obtain ⟨⟨buffer, generator⟩, heq, hbuffer⟩ := @fetchNext_spec G gen st.current.info.instType decodeCycle st.mulCount
    st.generator
  refine Ends.bind (Ends.ofOption ⟨_, heq, rfl⟩) ?_
  rintro _ rfl
  have htail : Tail (st.log ++ [.decode]) st.throwAwayCount := h.tail.snoc .decode
  have hstart : Inv (n + 1) { st with generator, bufferIndex := 0, log := st.log ++ [.decode] } :=
    ⟨⟨h.output, h.size, h.bound, h.trace.snoc rfl htail h.count⟩, h.progress, htail, h.count⟩
  refine Ends.bind (Ends.loop (Inv (n + 1)) (fun st => (buffer.slots.length - st.bufferIndex) *
    (MAX_THROWAWAY_COUNT + 1) + (MAX_THROWAWAY_COUNT - st.throwAwayCount)) (fun st hst => bufferPass_spec hst hbuffer)
    hstart) ?_
  rintro st' ⟨hsound, hinv⟩
  have hsound' : Sound (n + 1) { st' with cycle := st'.cycle + 1 } :=
    ⟨hsound.output, hsound.size, hsound.bound, hsound.trace⟩
  refine Ends.pure ⟨hsound', fun hsat => ⟨hsound', fun hlt => ?_, (hinv hsat).tail, (hinv hsat).count⟩⟩
  exact ((hinv hsat).progress hlt).imp_left fun hprogress => hprogress.mono (Nat.le_succ _)

/-- **The decode cycles.** -/
theorem decodeCycles_spec (l : List Nat) (h : Left n st) :
    Ends (Endless gen) (fun st' => ∃ m ≤ n + l.length, Sound m st') (decodeCycles gen l st) := by
  induction l generalizing n st with
  | nil => exact Ends.pure ⟨n, le_rfl, h.1⟩
  | cons decodeCycle l ih =>
    rw [decodeCycles]
    split
    next => exact Ends.pure ⟨n, Nat.le_add_right _ _, h.1⟩
    next hgo =>
      rw [not_or, Bool.not_eq_true] at hgo
      refine Ends.bind (decode_spec (h.2 hgo.1) decodeCycle) fun st' hst' => (ih hst').mono ?_
      rintro st'' ⟨m, hm, hsound⟩
      exact ⟨m, by rw [List.length_cons]; omega, hsound⟩

theorem scheduleSound_nil : ScheduleSound [] where
  commit _ h := absurd h List.not_mem_nil
  registers _ c after heq := absurd (List.append_eq_nil_iff.mp heq.symm).2 (List.cons_ne_nil c after)
  distinct := List.nodup_nil
  allowed _ h := absurd h List.not_mem_nil
  results _ := .nil

theorem stretch_nil : Stretch [] := by
  intro stretch hstretch _
  rw [List.infix_nil.mp hstretch]
  exact Nat.zero_le _

theorem initial_spec (g : G) : Left 0 (State.initial g) := by
  have hsound : Sound 0 (State.initial g) :=
    ⟨fun _ h => absurd h List.not_mem_nil, rfl, Nat.zero_le _, ⟨scheduleSound_nil, .nil _, rfl, stretch_nil, rfl⟩⟩
  refine ⟨hsound, fun _ => ⟨hsound, fun hlt => absurd hlt (Nat.not_lt_zero _), fun tail htail _ => ?_, Nat.zero_le _⟩⟩
  rw [List.suffix_nil.mp htail]
  exact le_rfl

/-- **The main loop.** -/
theorem schedule_spec (g : G) : Ends (Endless gen) (fun st => ∃ m ≤ RANDOMX_SUPERSCALAR_LATENCY, Sound m st)
    (schedule gen g) := by
  refine (decodeCycles_spec (List.range RANDOMX_SUPERSCALAR_LATENCY) (initial_spec g)).mono ?_
  rintro st ⟨m, hm, hsound⟩
  rw [List.length_range, Nat.zero_add] at hm
  exact ⟨m, hm, hsound⟩

/-- The address register is found. -/
theorem exists_asicLatencies {instructions : List SuperscalarInstruction} (h : ∀ inst ∈ instructions, WellFormed inst) :
    ∃ latencies, asicLatencies instructions = some latencies := by
  refine exists_foldlM_eq_some (fun inst hinst latencies => ?_) _
  obtain ⟨latDst, hdst⟩ : ∃ latDst, latencies[inst.dst.toNat]? = some latDst :=
    ⟨_, Vector.getElem?_eq_getElem (h inst hinst).dst⟩
  obtain ⟨latSrc, hsrc⟩ : ∃ latSrc, latencies[inst.src.toNat]? = some latSrc :=
    ⟨_, Vector.getElem?_eq_getElem (h inst hinst).src⟩
  dsimp only
  rw [hdst, hsrc]
  by_cases hne : inst.dst.toNat ≠ inst.src.toNat
  · rw [if_pos hne]
    exact ⟨_, rfl⟩
  · rw [if_neg hne]
    exact ⟨_, rfl⟩

/-- The output of a run of the main loop. -/
def State.program (st : State G) (latencies : Vector Nat 8) : SuperscalarProgram :=
  { instructions := st.outputInstructions, addressRegister := findAddressRegister latencies }

/-- **The generator** ends when its main loop does. -/
theorem generateSuperscalar_of_schedule {g : G} {fuel : Nat} (h : schedule gen g fuel = .ok st)
    {latencies : Vector Nat 8} (hlatencies : asicLatencies st.outputInstructions = some latencies) :
    generateSuperscalar gen g fuel = .ok (st.program latencies, st.generator) := by
  show (schedule gen g fuel >>= fun st => _) = _
  rw [h]
  show (Fuelled.ofOption (asicLatencies st.outputInstructions) fuel >>= fun latencies => _) = _
  rw [hlatencies]
  rfl

theorem schedule_of_generateSuperscalar {g : G} {fuel : Nat} {res : SuperscalarProgram × G}
    (h : generateSuperscalar gen g fuel = .ok res) : ∃ st latencies, schedule gen g fuel = .ok st ∧
      res = (st.program latencies, st.generator) := by
  cases hrun : schedule gen g fuel with
  | ok st =>
    obtain ⟨m, _, hsound⟩ := (schedule_spec g).post hrun
    obtain ⟨latencies, hlatencies⟩ := exists_asicLatencies hsound.output
    have heq := generateSuperscalar_of_schedule hrun hlatencies
    rw [h] at heq
    cases heq
    exact ⟨st, latencies, rfl, rfl⟩
  | error e =>
    have herror : generateSuperscalar gen g fuel = .error e := by
      show (schedule gen g fuel >>= fun st => _) = _
      rw [hrun]
      rfl
    rw [h] at herror
    cases herror

end

/-! ## Termination -/

section

variable {G : Type}

/-- A run that is in a rejection loop, which it has entered with the generator in state `g'`. -/
def InRejectionLoop (gen : ByteGenerator G) (g : G) (loop : RejectionLoop) (g' : G) : Prop :=
  ∃ fuel, schedule gen g fuel = .error (.unfinished (.rejection loop g'))

/-- A rejection loop draws an acceptable value, some time. -/
def Accepts (gen : ByteGenerator G) (loop : RejectionLoop) (g' : G) : Prop :=
  ∃ k, loop.accepts (loop.next gen (Fuelled.drawn (loop.next gen) k g')).1 = true

/-- The main loop ends if the rejection loops do. -/
theorem exists_schedule {gen : ByteGenerator G} {g : G}
    (h : ∀ loop g', InRejectionLoop gen g loop g' → Accepts gen loop g') :
    ∃ st, (∃ m ≤ RANDOMX_SUPERSCALAR_LATENCY, Sound m st) ∧
      ∃ enough, ∀ fuel ≥ enough, schedule gen g fuel = .ok st := by
  refine (schedule_spec g).exists_result fun fuel site hrun hendless => ?_
  cases site with
  | buffer => exact hendless
  | rejection loop g' =>
    obtain ⟨k, hk⟩ := h loop g' ⟨fuel, hrun⟩
    rw [hendless k] at hk
    cases hk

/-- A generator that always returns the same. -/
def fixedGenerator : ByteGenerator Unit := { getByte := fun g => (1, g), getU32 := fun g => (3, g) }

theorem accepts_fixedGenerator (loop : RejectionLoop) (g : Unit) : Accepts fixedGenerator loop g := by
  cases g
  cases loop with
  | rotateCount => exact ⟨0, by decide⟩
  | divisor => exact ⟨0, by decide⟩

theorem returns_fixedGenerator : ∃ fuel st latencies, schedule fixedGenerator () fuel = .ok st ∧
    generateSuperscalar fixedGenerator () fuel = .ok (st.program latencies, ()) := by
  obtain ⟨st, ⟨m, _, hsound⟩, fuel, hrun⟩ :=
    exists_schedule (g := ()) fun loop g' _ => accepts_fixedGenerator loop g'
  obtain ⟨latencies, hlatencies⟩ := exists_asicLatencies hsound.output
  exact ⟨fuel, st, latencies, hrun fuel le_rfl, generateSuperscalar_of_schedule (hrun fuel le_rfl) hlatencies⟩

/-- **`generate_superscalar` ends**, if its rejection loops do: within 170 decode cycles, and with no more than 256
    instructions thrown away between two macro-ops. With no fuel does it index out of range. -/
theorem generate_superscalar_terminates (gen : ByteGenerator G) (g : G)
    (h : ∀ loop g', InRejectionLoop gen g loop g' → Accepts gen loop g') :
    ∃ st latencies, (∃ enough, ∀ fuel ≥ enough, schedule gen g fuel = .ok st ∧
        generateSuperscalar gen g fuel = .ok (st.program latencies, st.generator)) ∧
      st.log.countP Event.isDecode ≤ 170 ∧
      (∀ stretch, stretch <:+: st.log → commitsOf stretch = [] → stretch.countP Event.isThrowAway ≤ 256) ∧
      ∀ fuel, schedule gen g fuel ≠ .error .panic := by
  obtain ⟨st, ⟨m, hm, hsound⟩, enough, hrun⟩ := exists_schedule h
  obtain ⟨latencies, hlatencies⟩ := exists_asicLatencies hsound.output
  refine ⟨st, latencies, ⟨enough, fun fuel hfuel => ⟨hrun fuel hfuel, ?_⟩⟩, ?_, hsound.trace.stretch,
    (schedule_spec g).ne_panic⟩
  · exact generateSuperscalar_of_schedule (hrun fuel hfuel) hlatencies
  · rw [hsound.trace.decodes]
    exact hm

theorem generate_superscalar_terminates_fixed : ∃ st latencies, (∃ enough, ∀ fuel ≥ enough,
      schedule fixedGenerator () fuel = .ok st ∧
        generateSuperscalar fixedGenerator () fuel = .ok (st.program latencies, st.generator)) ∧
    st.log.countP Event.isDecode ≤ 170 ∧
    (∀ stretch, stretch <:+: st.log → commitsOf stretch = [] → stretch.countP Event.isThrowAway ≤ 256) ∧
    ∀ fuel, schedule fixedGenerator () fuel ≠ .error .panic :=
  generate_superscalar_terminates fixedGenerator () fun loop g _ => accepts_fixedGenerator loop g

end

/-! ## Generated programs -/

/-- A program that the generator returns, with some stream of random bytes. -/
def Generated (prog : SuperscalarProgram) : Prop :=
  ∃ (G : Type) (gen : ByteGenerator G) (g g' : G) (fuel : Nat), generateSuperscalar gen g fuel = .ok (prog, g')

/-- What `generate_superscalar` guarantees of its programs. -/
structure ProgramWellFormed (prog : SuperscalarProgram) : Prop where
  length : prog.instructions.length ≤ SUPERSCALAR_MAX_SIZE
  instructions : ∀ inst ∈ prog.instructions, WellFormed inst
  address : prog.addressRegister < 8

theorem Generated.wellFormed {prog : SuperscalarProgram} (h : Generated prog) : ProgramWellFormed prog := by
  obtain ⟨G, gen, g, g', fuel, hrun⟩ := h
  obtain ⟨st, latencies, hschedule, hres⟩ := schedule_of_generateSuperscalar hrun
  obtain ⟨m, _, hsound⟩ := (schedule_spec g).post hschedule
  obtain ⟨rfl, _⟩ := Prod.mk.inj hres
  exact ⟨hsound.size.le.trans hsound.bound, hsound.output, Fin.isLt _⟩

/-- Such a program runs without a panic. -/
theorem ProgramWellFormed.runs {prog : SuperscalarProgram} (h : ProgramWellFormed prog) : prog.WellFormed :=
  ⟨fun inst hinst => (h.instructions inst hinst).dst, fun inst hinst => (h.instructions inst hinst).src,
    fun inst hinst hopcode => ((h.instructions inst hinst).divisor hopcode).1, h.address⟩

/-- **Generated programs are well-formed**, and neither a program nor a dataset item made with such programs panics. -/
theorem generated_programs_are_well_formed :
    (∀ prog, Generated prog → ProgramWellFormed prog ∧ ∀ r, ∃ r', executeSuperscalar r prog = some r') ∧
    ∀ (cacheMemory : List Byte) (programs : Vector SuperscalarProgram 8) (itemNumber : Word),
      cacheMemory.length = CACHE_SIZE → (∀ prog ∈ programs.toList, Generated prog) →
        ∃ line, initDatasetItem cacheMemory programs itemNumber = some line := by
  constructor
  · intro prog h
    exact ⟨h.wellFormed, fun r => exists_executeSuperscalar r h.wellFormed.runs⟩
  · intro cacheMemory programs itemNumber hcache hprograms
    exact exists_initDatasetItem hcache.ge (fun prog hprog => (hprograms prog hprog).wellFormed.runs) itemNumber

theorem generated_programs_are_well_formed_fixed : ∃ prog, Generated prog ∧ ProgramWellFormed prog := by
  obtain ⟨fuel, st, latencies, _, hrun⟩ := returns_fixedGenerator
  have hgenerated : Generated (st.program latencies) := ⟨Unit, fixedGenerator, (), (), fuel, hrun⟩
  exact ⟨_, hgenerated, (generated_programs_are_well_formed.1 _ hgenerated).1⟩

/-! ## The schedule of a generated program -/

/-- **The schedule of a generated program is sound**, and the port map and the registers are what it says. -/
theorem generated_schedule_is_sound {G : Type} (gen : ByteGenerator G) (g : G) (fuel : Nat)
    (res : SuperscalarProgram × G) (h : generateSuperscalar gen g fuel = .ok res) :
    ∃ st latencies, schedule gen g fuel = .ok st ∧ res = (st.program latencies, st.generator) ∧
      ScheduleSound (commitsOf st.log) ∧
      (∀ slot ∈ (commitsOf st.log).flatMap Commit.slots, entry st.portBusy slot.cycle slot.port = some slot.uop) ∧
      st.registers = registersAfter (commitsOf st.log) := by
  obtain ⟨st, latencies, hrun, hres⟩ := schedule_of_generateSuperscalar h
  obtain ⟨m, _, hsound⟩ := (schedule_spec g).post hrun
  exact ⟨st, latencies, hrun, hres, hsound.trace.schedule, hsound.trace.placed.taken, hsound.trace.registers⟩

theorem generated_schedule_is_sound_fixed : ∃ fuel st, schedule fixedGenerator () fuel = .ok st ∧
    ScheduleSound (commitsOf st.log) := by
  obtain ⟨fuel, st, latencies, _, hrun⟩ := returns_fixedGenerator
  obtain ⟨st', _, hrun', _, hschedule, _⟩ := generated_schedule_is_sound fixedGenerator () fuel _ hrun
  exact ⟨fuel, st', hrun', hschedule⟩

end Superscalar
end RandomX
end MinerTim
