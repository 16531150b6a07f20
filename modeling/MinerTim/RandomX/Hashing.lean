import MinerTim.RandomX.ControlWord

/-!
# `RandomX.Hashing` — pipelining, history and mode do not change a hash

Three results about a whole VM, each read off `hashOf`:

* `hashPipelined_transparent` — the pipelined calls return the hashes of the preceding inputs;
* `calculateHash_history_free` — after any sequence of calls a hash is the one-shot hash of the last key;
* `fullMode_eq_lightMode` — a generated dataset holds the items that light mode computes.

What a run of calls preserves is `KeyedTo`: the VM reads the dataset items of its key.
-/

namespace MinerTim
namespace RandomX

variable {p : Platform} {version : RxVersion}

/-- A platform for closed instances: constant hashes, a cache of zeros, programs that do nothing. -/
def nullPlatform : Platform where
  fp :=
    { fadd := fun _ a _ => a, fsub := fun _ a _ => a, fmul := fun _ a _ => a, fdiv := fun _ a _ => a
      fsqrt := fun _ a => a, ofI32 := fun _ v => v.signExtend 64
      setRoundingMode := setRoundingModeAarch64 }
  aes := { enc := fun s _ => s, dec := fun s _ => s }
  blake2b512 := fun _ => Vector.replicate 64 0
  blake2b256 := fun _ => Vector.replicate 32 0
  argon2dCache := fun _ => List.replicate CACHE_SIZE 0
  superscalarPrograms := fun _ => Vector.replicate 8 { instructions := [], addressRegister := 0 }

namespace RandomXVm

/-! ## Pipelining -/

theorem map_fst_calculateHash (vm : RandomXVm version) (ctl : BitVec 32) (input : List Byte) :
    (vm.calculateHash p ctl input).map (·.1) = hashOf p vm.context version ctl input := by
  have h := congrArg (Option.map Prod.fst) (vm.calculateHash_eq p ctl input).1
  rw [Option.map_map, Option.map_map] at h
  exact h.trans (by rw [show Prod.fst ∘ (fun x : Vector Byte 32 => (x, ctl)) = id from rfl,
    Option.map_id, id])

/-- A prepared VM returns the hash of its input and of all later ones but the last. -/
theorem hashPipelined_eq {vm : RandomXVm version} {input : List Byte} (h : vm.Prepared p input)
    (ctl : BitVec 32) (inputs : List (List Byte)) :
    (vm.hashPipelined p ctl inputs).map (·.1)
      = ((input :: inputs).dropLast).mapM (hashOf p vm.context version ctl) := by
  induction inputs generalizing vm input with
  | nil => rfl
  | cons nextInput inputs ih =>
    -- a call hashes what was prepared and prepares the next input
    obtain ⟨hhash, hnext⟩ := calculateHashPipelined_eq p h ctl nextInput
    rw [hashPipelined, List.dropLast_cons_of_ne_nil (List.cons_ne_nil _ _), List.mapM_cons]
    cases hcall : vm.calculateHashPipelined p ctl nextInput with
    | none =>
      rw [hcall] at hhash
      cases hof : hashOf p vm.context version ctl input with
      | none => rfl
      | some hash => simp [hof] at hhash
    | some r =>
      obtain ⟨hash, vm', ctl'⟩ := r
      rw [hcall] at hhash
      obtain ⟨hprep, hctx⟩ := hnext _ hcall
      cases hof : hashOf p vm.context version ctl input with
      | none => simp [hof] at hhash
      | some hash' =>
        simp only [hof, Option.map_some, Option.some.injEq, Prod.mk.injEq] at hhash
        obtain ⟨rfl, rfl⟩ := hhash
        have hrest := ih hprep
        rw [hctx] at hrest
        simp only [Option.bind_eq_bind, Option.bind_some, ← hrest]
        cases hashPipelined p vm' ctl' inputs with
        | none => rfl
        | some rest => rfl

/-- **Pipelining is transparent.** From any state, `prepare_scratchpad(b0)` and then
    `calculate_hash_pipelined` on each later input return the hashes that `calculate_hash` returns for
    all inputs but the last, on any VM that runs every program the same way: one with the same key or
    dataset and the same execution path, or one that reads the same dataset items where neither calls
    native code that does anything else than the interpreter. Then every call returns, when the dataset
    items exist. -/
theorem hashPipelined_transparent (vm vm' : RandomXVm version)
    (hsame : vm.context.Same vm'.context p.fp p.aes version) (ctl : BitVec 32) (b0 : List Byte)
    (inputs : List (List Byte)) :
    ((vm.prepareScratchpad p b0).hashPipelined p ctl inputs).map (·.1)
        = ((b0 :: inputs).dropLast).mapM (fun b => (vm'.calculateHash p ctl b).map (·.1)) ∧
      (vm.context.Ready p.fp p.aes version →
        ∃ hashes, ((vm.prepareScratchpad p b0).hashPipelined p ctl inputs).map (·.1)
          = some hashes) := by
  have hprep : (vm.prepareScratchpad p b0).Prepared p b0 := by
    rw [prepareScratchpad_eq]
    exact withFill_prepared p vm _ b0 rfl
  have hctx : (vm.prepareScratchpad p b0).context = vm.context := by
    rw [prepareScratchpad_eq, context_withFill]
  have hrun := hashPipelined_eq hprep ctl inputs
  rw [hctx] at hrun
  refine ⟨?_, fun hready => ?_⟩
  · rw [hrun]
    congr 1
    funext b
    rw [map_fst_calculateHash, hashOf_congr hsame]
  · rw [hrun]
    generalize (b0 :: inputs).dropLast = bs
    induction bs with
    | nil => exact ⟨[], rfl⟩
    | cons b bs ih =>
      obtain ⟨hash, hhash⟩ := exists_hashOf hready ctl b
      obtain ⟨hashes, hhashes⟩ := ih
      exact ⟨hash :: hashes, by rw [List.mapM_cons, hhash, hhashes]; rfl⟩

/-- A light-mode V2 VM against the same VM with the native loop switched off. -/
theorem hashPipelined_transparent_light :
    (((newVersioned nullPlatform [1] .V2 none).prepareScratchpad nullPlatform [2]).hashPipelined
        nullPlatform 0 [[3], [4]]).map (·.1)
      = [[2], [3]].mapM fun b =>
        (((newVersioned nullPlatform [1] .V2 none).setNativeLoop false).calculateHash
          nullPlatform 0 b).map (·.1) :=
  (hashPipelined_transparent (newVersioned nullPlatform [1] .V2 none)
    ((newVersioned nullPlatform [1] .V2 none).setNativeLoop false)
    (Or.inr ⟨VmContext.interprets_of_jit rfl, VmContext.interprets_of_jit rfl, fun _ _ => rfl⟩) 0 [2] [[3], [4]]).1

end RandomXVm

/-! ## History -/

/-- A generated dataset holds the items that light mode computes. -/
theorem line_of_isDatasetFor {key : List Byte} {ds : RandomXDataset} (h : IsDatasetFor p key ds)
    {k : Word} (hk : k.toNat < DATASET_ITEM_COUNT) :
    ds.getItem k = initDatasetItem (p.argon2dCache key) (p.superscalarPrograms key) k := by
  obtain ⟨_, hgen⟩ := h
  rw [RandomXDataset.getItem, hgen.getElem hk, BitVec.ofNat_toNat, BitVec.setWidth_eq]

namespace RandomXVm

/-- The VM reads the dataset items of this key, and its native code does what the interpreter does. -/
structure KeyedTo (p : Platform) (vm : RandomXVm version) (key : List Byte) : Prop where
  jit : JitInterprets p vm.jit
  line : ∀ k, k.toNat < DATASET_ITEM_COUNT → vm.context.line k = (lightContext p key).line k

/-- A VM as the constructors return it. -/
inductive CreatedFor (p : Platform) (key : List Byte) : RandomXVm version → Prop where
  | light (jit : Option NativeCode) : CreatedFor p key (newVersioned p key version jit)
  | full (jit : Option NativeCode) (ds : RandomXDataset) : IsDatasetFor p key ds →
      CreatedFor p key (newFullVersioned p key ds version jit)

theorem CreatedFor.keyedTo {key : List Byte} {vm : RandomXVm version} (h : CreatedFor p key vm)
    (hnative : JitInterprets p vm.jit) : vm.KeyedTo p key := by
  refine ⟨hnative, ?_⟩
  cases h with
  | light jit => intro k _; rfl
  | full jit ds hds => intro k hk; exact line_of_isDatasetFor hds hk

theorem KeyedTo.of_context {key : List Byte} {vm vm' : RandomXVm version} (h : vm.KeyedTo p key)
    (hctx : vm'.context = vm.context) : vm'.KeyedTo p key := by
  have hjit : vm'.jit = vm.jit := congrArg VmContext.jit hctx
  refine ⟨?_, ?_⟩
  · rw [hjit]
    exact h.jit
  · rw [hctx]
    exact h.line

theorem KeyedTo.reinit {key key' : List Byte} {dataset : Option RandomXDataset}
    {vm : RandomXVm version} (h : vm.KeyedTo p key)
    (hds : ∀ ds, dataset = some ds → IsDatasetFor p key' ds) :
    (vm.reinit p key' dataset).KeyedTo p key' := by
  refine ⟨h.jit, ?_⟩
  intro k hk
  cases dataset with
  | none => rfl
  | some ds => exact line_of_isDatasetFor (hds ds rfl) hk

theorem KeyedTo.setNativeLoop {key : List Byte} {vm : RandomXVm version} (h : vm.KeyedTo p key)
    (enabled : Bool) : (vm.setNativeLoop enabled).KeyedTo p key :=
  ⟨h.jit, h.line⟩

/-- Every dataset supplied by a call is the one generated for the key it is supplied with. -/
def Op.DatasetOk (p : Platform) : Op → Prop
  | .reinit key (some ds) => IsDatasetFor p key ds
  | _ => True

/-- What one call preserves. -/
theorem KeyedTo.apply {key : List Byte} {vm vm' : RandomXVm version} {ctl : BitVec 32} {op : Op}
    (h : vm.KeyedTo p key) (hop : op.DatasetOk p) (hrun : vm.apply p ctl op = some vm') :
    vm'.KeyedTo p (lastKey key [(ctl, op)]) := by
  cases op with
  | calculateHash input =>
    obtain ⟨r, hr, rfl⟩ := Option.map_eq_some_iff.mp hrun
    exact h.of_context ((vm.calculateHash_eq p ctl input).2 r hr)
  | prepareScratchpad input =>
    obtain rfl := Option.some.inj hrun
    refine h.of_context ?_
    rw [prepareScratchpad_eq, context_withFill]
  | calculateHashPipelined nextInput =>
    obtain ⟨r, hr, rfl⟩ := Option.map_eq_some_iff.mp hrun
    exact h.of_context (context_calculateHashPipelined p vm ctl nextInput hr)
  | reinit key' dataset =>
    obtain rfl := Option.some.inj hrun
    refine h.reinit ?_
    rintro ds rfl
    exact hop
  | setNativeLoop enabled =>
    obtain rfl := Option.some.inj hrun
    exact h.setNativeLoop enabled

/-- What a sequence of calls preserves. -/
theorem KeyedTo.applyAll {key : List Byte} {vm vm' : RandomXVm version}
    {ops : List (BitVec 32 × Op)} (h : vm.KeyedTo p key) (hops : ∀ o ∈ ops, o.2.DatasetOk p)
    (hrun : vm.applyAll p ops = some vm') : vm'.KeyedTo p (lastKey key ops) := by
  induction ops generalizing vm key with
  | nil =>
    obtain rfl := Option.some.inj hrun
    exact h
  | cons o ops ih =>
    obtain ⟨ctl, op⟩ := o
    obtain ⟨vm₁, hstep, hrest⟩ := Option.bind_eq_some_iff.mp hrun
    have hkeyed := h.apply (hops (ctl, op) (by simp)) hstep
    have htail := ih hkeyed (fun o ho => hops o (by simp [ho])) hrest
    cases op <;> exact htail

/-- The hash of a keyed VM is the one-shot hash of its key. -/
theorem KeyedTo.hashOf_eq {key : List Byte} {vm : RandomXVm version} (h : vm.KeyedTo p key)
    (ctl : BitVec 32) (input : List Byte) :
    (hashOf p vm.context version ctl input).map (·, ctl)
      = calculateHashVersioned p key input version ctl := by
  have hlight : (lightContext p key).Interprets p.fp p.aes version := VmContext.interprets_of_jit rfl
  rw [calculateHashVersioned_eq, hashOf_congr (Or.inr ⟨h.jit.context, hlight, h.line⟩) ctl input]

/-- Where every dataset item exists, no call panics. -/
theorem KeyedTo.exists_apply {key : List Byte} {vm : RandomXVm version} (h : vm.KeyedTo p key)
    (hline : ∀ k, k.toNat < DATASET_ITEM_COUNT → ∃ l, (lightContext p key).line k = some l) (ctl : BitVec 32)
    (op : Op) : ∃ vm', vm.apply p ctl op = some vm' := by
  have hready : vm.context.Ready p.fp p.aes version := by
    refine ⟨JitInterprets.context h.jit, ?_⟩
    intro k hk
    rw [h.line k hk]
    exact hline k hk
  cases op with
  | prepareScratchpad _ | reinit _ _ | setNativeLoop _ => exact ⟨_, rfl⟩
  | calculateHash input =>
    obtain ⟨c, hc⟩ := exists_runChains hready
      { s := startState p (fillAes1Rx4 p.aes (p.blake2b512 input) vm.scratchpad).2 ctl
        tempHash := (fillAes1Rx4 p.aes (p.blake2b512 input) vm.scratchpad).1
        programBytes := vm.programBytes, bytecode := vm.bytecode }
    unfold RandomXVm.apply calculateHash
    simp only [hc, Option.bind_eq_bind, Option.bind_some]
    exact ⟨_, rfl⟩
  | calculateHashPipelined nextInput =>
    obtain ⟨c, hc⟩ := exists_runChains hready
      { s := startState p vm.scratchpad ctl, tempHash := vm.pipelineState
        programBytes := vm.programBytes, bytecode := vm.bytecode }
    unfold RandomXVm.apply calculateHashPipelined
    simp only [hc, Option.bind_eq_bind, Option.bind_some]
    exact ⟨_, rfl⟩

/-- Nor does a sequence of calls. -/
theorem KeyedTo.exists_applyAll {key : List Byte} {vm : RandomXVm version} {ops : List (BitVec 32 × Op)}
    (h : vm.KeyedTo p key)
    (hline : ∀ key k, k.toNat < DATASET_ITEM_COUNT → ∃ l, (lightContext p key).line k = some l)
    (hops : ∀ o ∈ ops, o.2.DatasetOk p) : ∃ vm', vm.applyAll p ops = some vm' := by
  induction ops generalizing vm key with
  | nil => exact ⟨vm, rfl⟩
  | cons o ops ih =>
    obtain ⟨ctl, op⟩ := o
    obtain ⟨vm₁, hstep⟩ := h.exists_apply (hline key) ctl op
    obtain ⟨vm', hrest⟩ := ih (h.apply (hops (ctl, op) (by simp)) hstep) fun o ho => hops o (by simp [ho])
    exact ⟨vm', by rw [RandomXVm.applyAll, hstep, Option.bind_eq_bind, Option.bind_some, hrest]⟩

/-- **History independence.** After any sequence of calls on a VM, each under a control word of its own,
    `calculate_hash` returns what the one-shot hash returns for the key of the last `new` or `reinit`,
    and restores the control word of its caller, when native code does what the interpreter does. -/
theorem calculateHash_history_free {key : List Byte} {vm vm' : RandomXVm version}
    {ops : List (BitVec 32 × Op)} (hcreated : CreatedFor p key vm)
    (hnative : JitInterprets p vm.jit) (hops : ∀ o ∈ ops, o.2.DatasetOk p)
    (hrun : vm.applyAll p ops = some vm') (ctl : BitVec 32) (input : List Byte) :
    ((vm'.calculateHash p ctl input).map fun r => (r.1, r.2.2))
        = calculateHashVersioned p (lastKey key ops) input version ctl ∧
      ∀ r, vm'.calculateHash p ctl input = some r → r.2.2 = ctl := by
  have hkeyed := (hcreated.keyedTo hnative).applyAll hops hrun
  constructor
  · rw [(vm'.calculateHash_eq p ctl input).1]
    exact hkeyed.hashOf_eq ctl input
  · intro r hr
    exact ctl_calculateHash p vm' ctl input hr

/-- A VM that was prepared for an input, then rekeyed, then switched to the body code. -/
theorem calculateHash_history_free_rekeyed :
    (((((newVersioned nullPlatform [1] .V1 none).prepareScratchpad nullPlatform [2]).reinit
        nullPlatform [3] none).setNativeLoop false).calculateHash nullPlatform 0 [4]).map
          (fun r => (r.1, r.2.2))
      = calculateHashVersioned nullPlatform [3] [4] .V1 0 :=
  (@calculateHash_history_free nullPlatform .V1 [1] _ _
    [(0, .prepareScratchpad [2]), (0, .reinit [3] none), (0, .setNativeLoop false)]
    (.light none) nofun (by simp [Op.DatasetOk]) rfl 0 [4]).1

end RandomXVm

/-! ## Full mode and light mode -/

/-- **Full mode equals light mode.** In every schedule of the threads of `generate` each slot is written
    exactly once, for its own item number; the dataset holds the item computed from the cache at every
    slot; and an interpreting VM with the dataset hashes like an interpreting VM in light mode, whatever
    state the two are in. -/
theorem fullMode_eq_lightMode {key : List Byte} {numThreads : Nat} {ds : RandomXDataset}
    (hgen : RandomXDataset.Generates (p.argon2dCache key) (p.superscalarPrograms key) numThreads ds) :
    (∀ order, RandomXDataset.IsSchedule numThreads order → ∀ k < DATASET_ITEM_COUNT,
      order.count (k, BitVec.ofNat 64 k) = 1 ∧
        ∀ w ∈ order, w.1 = k → w = (k, BitVec.ofNat 64 k)) ∧
    (∀ k < DATASET_ITEM_COUNT, ds.items[k]?
      = initDatasetItem (p.argon2dCache key) (p.superscalarPrograms key) (BitVec.ofNat 64 k)) ∧
    (∀ (version : RxVersion) (full light : RandomXVm version), full.dataset = some ds →
      full.jit = none → light.dataset = none → light.cacheMemory = p.argon2dCache key →
      light.ssPrograms = p.superscalarPrograms key → light.jit = none →
      ∀ ctl input, (full.calculateHash p ctl input).map (fun r => (r.1, r.2.2))
        = (light.calculateHash p ctl input).map (fun r => (r.1, r.2.2))) := by
  refine ⟨?_, fun k hk => hgen.getElem hk, ?_⟩
  · intro order hsched k hk
    have hperm := hsched.perm
    constructor
    · rw [hperm.count_eq, List.count_map_of_injective _ _ (fun a b h => (Prod.mk.inj h).1)]
      exact List.count_eq_one_of_mem List.nodup_range (List.mem_range.mpr hk)
    · rintro w hw rfl
      obtain ⟨j, _, rfl⟩ := List.mem_map.mp (hperm.mem_iff.mp hw)
      rfl
  · intro version full light hds hjit hlightDs hcache hprograms hlightJit ctl input
    have hline : ∀ k, k.toNat < DATASET_ITEM_COUNT → full.context.line k = light.context.line k := by
      intro k hk
      simp only [VmContext.line, RandomXVm.context, hds, hlightDs, hcache, hprograms, datasetLine]
      exact line_of_isDatasetFor ⟨_, hgen⟩ hk
    rw [(full.calculateHash_eq p ctl input).1, (light.calculateHash_eq p ctl input).1,
      hashOf_congr_of_line hjit hlightJit hline]

/-- On the null platform every key has a dataset. -/
theorem exists_generates_null (key : List Byte) (numThreads : Nat) : ∃ ds : RandomXDataset,
    RandomXDataset.Generates (nullPlatform.argon2dCache key) (nullPlatform.superscalarPrograms key)
      numThreads ds := by
  apply RandomXDataset.exists_generates
  · simp [nullPlatform]
  · intro q hq
    simp only [nullPlatform, Vector.toList_replicate, List.mem_replicate] at hq
    obtain ⟨_, rfl⟩ := hq
    exact ⟨by simp, by simp, by simp, by simp⟩

/-- Three threads generate a dataset, whose first item is the one computed from the cache. -/
theorem fullMode_eq_lightMode_null : ∃ ds : RandomXDataset,
    RandomXDataset.Generates (nullPlatform.argon2dCache []) (nullPlatform.superscalarPrograms []) 3 ds ∧
      ds.items[0]? = initDatasetItem (nullPlatform.argon2dCache [])
        (nullPlatform.superscalarPrograms []) 0 := by
  obtain ⟨ds, hds⟩ := exists_generates_null [] 3
  exact ⟨ds, hds, (@fullMode_eq_lightMode nullPlatform [] 3 ds hds).2.1 0 (by decide)⟩

end RandomX
end MinerTim
