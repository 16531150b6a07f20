import MinerTim.Miner.WorkerSpec

/-!
# `Miner.Verifier` — the share verifier is never stale

`ShareVerifier` builds its VM late, on the first share of a seed, and keeps it. What a sequence of calls
preserves is `ShareVerifier.Fresh`: the dataset is the one of the last `rekey`, and the cached VM, if there
is one, hashes under it on the reference path. The step lemmas are `Fresh.rekey`, `Fresh.setEnabled` and
`Fresh.reference`; `Fresh.applyAll` is the run.

`worker_loop` rotates the verifier together with the mining VM, and arms it from that VM's state
(`VerifierInv`). A share is therefore compared with the reference hash under the dataset it was mined with.
-/

namespace MinerTim
namespace Miner

open RandomX

/-- What a rotation supplies: a seed hash and its dataset. -/
abbrev Seed := List Byte × RandomXDataset

/-- The reference path: full mode on the dataset of a seed, with the native loop off. -/
def referenceContext (p : Platform) (seed : Seed) (jit : Option NativeCode) : VmContext where
  cacheMemory := []
  ssPrograms := p.superscalarPrograms seed.1
  dataset := some seed.2
  jit := jit
  useNativeLoop := false

/-- The calls `worker_loop` makes on a verifier. `jit` is what the JIT allocation of a VM built by the
    call returns, and `ctl` the control word of the caller. -/
inductive VerifierOp where
  | rekey (key : List Byte) (dataset : RandomXDataset)
  | setEnabled (enabled : Bool)
  | reference (jit : Option NativeCode) (ctl : BitVec 32) (blob : List Byte)

/-- The seed that a call supplies. -/
def VerifierOp.seed : VerifierOp → Option Seed
  | .rekey key dataset => some (key, dataset)
  | _ => none

/-- The seed of the last `rekey`, or `last` when there was none. -/
def lastRekey (last : Option Seed) : List VerifierOp → Option Seed
  | [] => last
  | op :: ops => lastRekey (op.seed.or last) ops

/-- The argument of the last `set_enabled`, or `enabled` when there was none. -/
def lastEnabled (enabled : Bool) : List VerifierOp → Bool
  | [] => enabled
  | .setEnabled enabled' :: ops => lastEnabled enabled' ops
  | _ :: ops => lastEnabled enabled ops

variable (p : Platform) (J : Option NativeCode → Prop)

/-- Every JIT allocation of the call returns something `J` allows. -/
def VerifierOp.JitIn : VerifierOp → Prop
  | .reference jit _ _ => J jit
  | _ => True

namespace ShareVerifier

/-- The verifier after a call. -/
def apply (v : ShareVerifier) : VerifierOp → Option ShareVerifier
  | .rekey key dataset => some (v.rekey key dataset)
  | .setEnabled enabled => some (v.setEnabled enabled)
  | .reference jit ctl blob => (v.reference p jit ctl blob).map (·.2.1)

/-- The verifier after a sequence of calls. -/
def applyAll (v : ShareVerifier) : List VerifierOp → Option ShareVerifier
  | [] => some v
  | op :: ops => do applyAll (← v.apply p op) ops

/-- The verifier holds the seed of the last `rekey`, and so does the VM it has cached. -/
structure Fresh (v : ShareVerifier) (last : Option Seed) : Prop where
  key : ∀ seed, last = some seed → v.key = seed.1
  dataset : v.dataset = last.map Prod.snd
  vm : ∀ vm, v.vm = some vm → ∃ seed jit, last = some seed ∧ J jit ∧
    vm.context = referenceContext p seed jit

variable {p J} {v v' : ShareVerifier} {last : Option Seed}

theorem fresh_new (enabled : Bool) : (new enabled).Fresh p J none :=
  ⟨nofun, rfl, nofun⟩

/-- A `rekey` makes any verifier fresh: the cached VM is dropped. -/
theorem fresh_rekey (v : ShareVerifier) (key : List Byte) (dataset : RandomXDataset) :
    (v.rekey key dataset).Fresh p J (some (key, dataset)) := by
  refine ⟨?_, rfl, nofun⟩
  intro seed hseed
  obtain rfl := Option.some.inj hseed
  rfl

theorem Fresh.setEnabled (h : v.Fresh p J last) (enabled : Bool) :
    (v.setEnabled enabled).Fresh p J last :=
  ⟨h.key, h.dataset, h.vm⟩

/-- A verifier that is off, or has no seed yet, says nothing. -/
theorem reference_none (h : v.enabled = false ∨ v.dataset = none) (jit : Option NativeCode)
    (ctl : BitVec 32) (blob : List Byte) :
    v.reference p jit ctl blob = some (none, v, ctl) := by
  unfold reference
  rcases h with h | h
  · rw [if_neg (by simp [h])]
  · rw [h, ite_self]

theorem context_newFull (p : Platform) (key : List Byte) (dataset : RandomXDataset)
    (jit : Option NativeCode) :
    ((RandomXVm.newFullVersioned p key dataset .V1 jit).setNativeLoop false).context
      = referenceContext p (key, dataset) jit := (rfl)

/-- The VM that answers a call is on the reference path of the last seed, cached or built by it. -/
theorem Fresh.context {seed : Seed} (h : v.Fresh p J (some seed)) {jit : Option NativeCode}
    (hjit : J jit) : ∃ jit', J jit' ∧
      (v.vm.getD ((RandomXVm.newFullVersioned p v.key seed.2 .V1 jit).setNativeLoop false)).context
        = referenceContext p seed jit' := by
  cases hvm : v.vm with
  | none =>
    refine ⟨jit, hjit, ?_⟩
    rw [Option.getD_none, context_newFull, h.key seed rfl]
  | some vm =>
    obtain ⟨seed', jit', hlast, hjit', hctx⟩ := h.vm vm hvm
    obtain rfl := Option.some.inj hlast
    exact ⟨jit', hjit', hctx⟩

/-- **What a call returns**: an enabled verifier with a seed returns the reference hash under it, and stays
    fresh. -/
theorem Fresh.reference {seed : Seed} (h : v.Fresh p J (some seed)) (henabled : v.enabled = true)
    {jit : Option NativeCode} (hjit : J jit) (ctl : BitVec 32) (blob : List Byte) :
    ∃ jit', J jit' ∧
      (v.reference p jit ctl blob).map (·.1)
        = (hashOf p (referenceContext p seed jit') .V1 ctl blob).map some ∧
      ∀ r, v.reference p jit ctl blob = some r →
        r.2.1.Fresh p J (some seed) ∧ r.2.1.enabled = v.enabled ∧ r.2.2 = ctl := by
  obtain ⟨jit', hjit', hctx⟩ := h.context hjit
  have hds : v.dataset = some seed.2 := h.dataset
  refine ⟨jit', hjit', ?_⟩
  unfold ShareVerifier.reference
  rw [if_pos henabled, hds]
  simp only
  -- the VM of an earlier call or a new one: the context of both is the same
  generalize v.vm.getD ((RandomXVm.newFullVersioned p v.key seed.2 .V1 jit).setNativeLoop false)
    = vm at hctx
  have hhash := RandomXVm.map_fst_calculateHash (p := p) vm ctl blob
  rw [hctx] at hhash
  rw [← hhash]
  cases hcall : vm.calculateHash p ctl blob with
  | none => exact ⟨rfl, nofun⟩
  | some r =>
    obtain ⟨hash, vm', ctl'⟩ := r
    refine ⟨rfl, ?_⟩
    intro r hr
    obtain rfl := Option.some.inj hr
    have hctl := RandomXVm.ctl_calculateHash p vm ctl blob hcall
    have hctx' := (vm.calculateHash_eq p ctl blob).2 _ hcall
    refine ⟨⟨h.key, rfl, ?_⟩, rfl, hctl⟩
    intro w hw
    obtain rfl := Option.some.inj hw
    exact ⟨seed, jit', rfl, hjit', hctx'.trans hctx⟩

/-- What one call preserves. -/
theorem Fresh.apply {op : VerifierOp} (h : v.Fresh p J last) (hop : op.JitIn J)
    (hrun : v.apply p op = some v') :
    v'.Fresh p J (op.seed.or last) ∧ v'.enabled = lastEnabled v.enabled [op] := by
  cases op with
  | rekey key dataset =>
    obtain rfl := Option.some.inj hrun
    exact ⟨fresh_rekey v key dataset, rfl⟩
  | setEnabled enabled =>
    obtain rfl := Option.some.inj hrun
    exact ⟨h.setEnabled enabled, rfl⟩
  | reference jit ctl blob =>
    obtain ⟨r, hr, rfl⟩ := Option.map_eq_some_iff.mp hrun
    by_cases hoff : v.enabled = false ∨ v.dataset = none
    · rw [reference_none hoff] at hr
      obtain rfl := Option.some.inj hr
      exact ⟨h, rfl⟩
    · rw [not_or, Bool.not_eq_false] at hoff
      cases last with
      | none => exact absurd h.dataset hoff.2
      | some seed =>
        obtain ⟨_, _, _, hafter⟩ := h.reference hoff.1 hop ctl blob
        obtain ⟨hfresh, henabled, _⟩ := hafter r hr
        exact ⟨hfresh, henabled⟩

/-- What a sequence of calls preserves. -/
theorem Fresh.applyAll {ops : List VerifierOp} (h : v.Fresh p J last)
    (hops : ∀ op ∈ ops, op.JitIn J) (hrun : v.applyAll p ops = some v') :
    v'.Fresh p J (lastRekey last ops) ∧ v'.enabled = lastEnabled v.enabled ops := by
  induction ops generalizing v last with
  | nil =>
    obtain rfl := Option.some.inj hrun
    exact ⟨h, rfl⟩
  | cons op ops ih =>
    obtain ⟨v₁, hstep, hrest⟩ := Option.bind_eq_some_iff.mp hrun
    obtain ⟨hfresh, henabled⟩ := h.apply (hops op (by simp)) hstep
    obtain ⟨hfresh', henabled'⟩ := ih hfresh (fun op hop => hops op (by simp [hop])) hrest
    refine ⟨hfresh', ?_⟩
    rw [henabled', henabled]
    cases op <;> rfl

end ShareVerifier

/-! ## When every call returns -/

theorem ready_referenceContext {p : Platform} (seed : Seed) {jit : Option NativeCode}
    (hjit : JitInterprets p jit) : (referenceContext p seed jit).Ready p.fp p.aes .V1 := by
  refine ⟨hjit.context, ?_⟩
  intro k hk
  have hsize : k.toNat < seed.2.items.size := by rw [seed.2.size_eq]; exact hk
  exact ⟨seed.2.items[k.toNat], by
    simp [VmContext.line, referenceContext, datasetLine, RandomXDataset.getItem, hsize]⟩

/-- Native code that does what the interpreter does, does not change the reference hash. -/
theorem hashOf_referenceContext {p : Platform} (seed : Seed) {jit : Option NativeCode}
    (hjit : JitInterprets p jit) (ctl : BitVec 32) (blob : List Byte) :
    hashOf p (referenceContext p seed jit) .V1 ctl blob
      = hashOf p (referenceContext p seed none) .V1 ctl blob := by
  have hsame : (referenceContext p seed jit).Same (referenceContext p seed none) p.fp p.aes .V1 :=
    Or.inr ⟨hjit.context, VmContext.interprets_of_jit rfl, fun _ _ => rfl⟩
  exact hashOf_congr hsame ctl blob

namespace ShareVerifier

variable {p : Platform} {J : Option NativeCode → Prop} {v : ShareVerifier} {last : Option Seed}

/-- With such native code a call returns the hash that the interpreter computes. -/
theorem Fresh.exists_reference (hJ : ∀ jit, J jit → JitInterprets p jit) (h : v.Fresh p J last)
    {jit : Option NativeCode} (hjit : J jit) (ctl : BitVec 32) (blob : List Byte) :
    ∃ v', v.reference p jit ctl blob
      = some (if v.enabled then
          last.bind fun seed => hashOf p (referenceContext p seed none) .V1 ctl blob
        else none, v', ctl) := by
  by_cases hoff : v.enabled = false ∨ v.dataset = none
  · refine ⟨v, ?_⟩
    rw [reference_none hoff]
    rcases hoff with henabled | hds
    · rw [henabled, if_neg Bool.false_ne_true]
    · rw [h.dataset, Option.map_eq_none_iff] at hds
      rw [hds, Option.bind_none, ite_self]
  · rw [not_or, Bool.not_eq_false] at hoff
    cases last with
    | none => exact absurd h.dataset hoff.2
    | some seed =>
      obtain ⟨jit', hjit', hvalue, hafter⟩ := h.reference hoff.1 hjit ctl blob
      obtain ⟨hash, hhash⟩ := exists_hashOf (ready_referenceContext seed (hJ jit' hjit')) ctl blob
      rw [hhash] at hvalue
      obtain ⟨r, hr, hfst⟩ := Option.map_eq_some_iff.mp hvalue
      obtain ⟨_, _, hctl⟩ := hafter r hr
      refine ⟨r.2.1, ?_⟩
      rw [hr, if_pos hoff.1, Option.bind_some, ← hashOf_referenceContext seed (hJ jit' hjit'), hhash,
        ← hfst, ← hctl]

/-- With such native code no sequence of calls panics. -/
theorem Fresh.exists_applyAll (hJ : ∀ jit, J jit → JitInterprets p jit) {ops : List VerifierOp}
    (h : v.Fresh p J last) (hops : ∀ op ∈ ops, op.JitIn J) :
    ∃ v', v.applyAll p ops = some v' := by
  induction ops generalizing v last with
  | nil => exact ⟨v, rfl⟩
  | cons op ops ih =>
    have hop : op.JitIn J := hops op (by simp)
    obtain ⟨v₁, hstep⟩ : ∃ v₁, v.apply p op = some v₁ := by
      cases op with
      | rekey key dataset => exact ⟨_, rfl⟩
      | setEnabled enabled => exact ⟨_, rfl⟩
      | reference jit ctl blob =>
        obtain ⟨v', hcall⟩ := h.exists_reference hJ hop ctl blob
        exact ⟨v', by rw [ShareVerifier.apply, hcall]; rfl⟩
    obtain ⟨v', hrest⟩ := ih (h.apply hop hstep).1 (fun op hop => hops op (by simp [hop]))
    exact ⟨v', by rw [ShareVerifier.applyAll, hstep]; exact hrest⟩

end ShareVerifier

/-! ## The worker -/

section Worker

variable (p : Platform) (J : Option NativeCode → Prop) (jobs : JobRef → Job) (cfg : WorkerConfig)
  (ctl : BitVec 32)

/-- The seed that a pass rotates to, if it does. -/
def seedRotation (st : WorkerState) (env : Environment) : Option Seed :=
  env.work.bind fun j =>
    if (jobs j).seedHash ≠ st.currentKey ∨ st.vm.isNone then some ((jobs j).seedHash, env.dataset)
    else none

/-- The seed of the last rotation in a sequence of passes, or `last` when there was none. -/
def lastRotation (last : Option Seed) (st : WorkerState) : List Environment → Option Seed
  | [] => last
  | env :: envs =>
    match workerIteration p jobs cfg st env with
    | none => (seedRotation jobs st env).or last
    | some (st', _) => lastRotation ((seedRotation jobs st env).or last) st' envs

/-- The verifier and the mining VM hold the seed of the last rotation, and the verifier is armed exactly
    when the VM really runs the native loop. -/
structure VerifierInv (last : Option Seed) (st : WorkerState) : Prop where
  ctl : st.ctl = ctl
  fresh : st.verifier.Fresh p J last
  seeded : ∀ vm, st.vm = some vm → ∃ ds, last = some (st.currentKey, ds) ∧ vm.dataset = some ds
  armed : ∀ vm, st.vm = some vm →
    st.verifier.enabled = (cfg.verifyShares && nativeLoopEffective vm)

variable {p J jobs cfg ctl}

theorem verifierInv_init : VerifierInv p J cfg ctl none (.init cfg ctl) :=
  ⟨rfl, ShareVerifier.fresh_new false, nofun, nofun⟩

theorem installJob_verifier {last : Option Seed} {st : WorkerState}
    (h : VerifierInv p J cfg ctl last st) (j : JobRef) :
    VerifierInv p J cfg ctl last (installJob jobs st j) := by
  unfold installJob
  split
  · exact ⟨h.ctl, h.fresh, h.seeded, h.armed⟩
  · exact h

theorem seedRotation_installJob (st : WorkerState) (env : Environment) (j : JobRef) :
    seedRotation jobs (installJob jobs st j) env = seedRotation jobs st env := by
  unfold installJob
  split <;> rfl

/-- A rotation moves the VM and the verifier to the new seed together. -/
theorem rekeyVm_verifier {last : Option Seed} {st : WorkerState} {env : Environment} {j : JobRef}
    (h : VerifierInv p J cfg ctl last st) (hwork : env.work = some j) :
    VerifierInv p J cfg ctl ((seedRotation jobs st env).or last) (rekeyVm p jobs cfg st env j) ∧
      ∃ vm, (rekeyVm p jobs cfg st env j).vm = some vm ∧
        (rekeyVm p jobs cfg st env j).currentKey = (jobs j).seedHash := by
  unfold rekeyVm seedRotation
  simp only [hwork, Option.bind_some]
  by_cases hrot : (jobs j).seedHash ≠ st.currentKey ∨ st.vm.isNone = true
  · rw [if_pos hrot, if_pos hrot, Option.some_or]
    refine ⟨⟨h.ctl, ?_, ?_, ?_⟩, ⟨_, rfl, rfl⟩⟩
    · exact (ShareVerifier.fresh_rekey _ _ _).setEnabled _
    · intro vm hvm
      obtain rfl := Option.some.inj hvm
      refine ⟨env.dataset, rfl, ?_⟩
      cases st.vm <;> rfl
    · intro vm hvm
      obtain rfl := Option.some.inj hvm
      rfl
  · rw [if_neg hrot, if_neg hrot, Option.none_or]
    simp only [not_or, not_not, Option.isNone_iff_eq_none] at hrot
    obtain ⟨vm, hvm⟩ := Option.ne_none_iff_exists'.mp hrot.2
    exact ⟨h, vm, hvm, hrot.1.symm⟩

/-- What mining a nonce does besides hashing: it leaves the verifier alone, and what the VM hashes under. -/
theorem hashNonce_frame {st st' : WorkerState} {hash : Vector Byte 32}
    (hrun : hashNonce p cfg st = some (hash, st')) :
    (∃ vm vm', st.vm = some vm ∧ st'.vm = some vm' ∧ vm'.context = vm.context) ∧
      st'.nonce = st.nonce + cfg.threadCount.setWidth 64 ∧
      st'.blobCurrent = writeNonceLe st.blobCurrent (st.nonce.setWidth 32) ∧
      st'.currentJob = st.currentJob ∧ st'.currentKey = st.currentKey ∧
      st'.verifier = st.verifier ∧ st'.ctl = st.ctl := by
  obtain ⟨vm, hvm, hcall⟩ := Option.bind_eq_some_iff.mp hrun
  simp only at hcall
  have hprepared : ∀ blob, (if st.pipelineReady then vm
      else vm.prepareScratchpad p blob).context = vm.context := by
    intro blob
    split
    · rfl
    · rw [RandomXVm.prepareScratchpad_eq, RandomXVm.context_withFill]
  obtain ⟨⟨hash', vm', ctl'⟩, hpipelined, hres⟩ := Option.bind_eq_some_iff.mp hcall
  obtain ⟨_, rfl⟩ := Prod.mk.inj (Option.some.inj hres)
  have hctx : vm'.context = vm.context :=
    (RandomXVm.context_calculateHashPipelined p _ st.ctl _ hpipelined).trans (hprepared _)
  have hctl : ctl' = st.ctl := RandomXVm.ctl_calculateHashPipelined p _ st.ctl _ hpipelined
  exact ⟨⟨vm, vm', hvm, rfl, hctx⟩, rfl, rfl, rfl, rfl, rfl, hctl⟩

theorem hashNonce_verifier {last : Option Seed} {st st' : WorkerState} {hash : Vector Byte 32}
    (h : VerifierInv p J cfg ctl last st) (hrun : hashNonce p cfg st = some (hash, st')) :
    VerifierInv p J cfg ctl last st' ∧ st'.currentKey = st.currentKey ∧ st'.vm.isSome = true := by
  obtain ⟨⟨vm, vm', hvm, hvm', hctx⟩, _, _, _, hkey, hverifier, hctl⟩ := hashNonce_frame hrun
  have hds : vm'.dataset = vm.dataset := congrArg VmContext.dataset hctx
  have heffective : nativeLoopEffective vm' = nativeLoopEffective vm := by
    have hjit : vm'.jit = vm.jit := congrArg VmContext.jit hctx
    have hloop : vm'.useNativeLoop = vm.useNativeLoop := congrArg VmContext.useNativeLoop hctx
    rw [nativeLoopEffective, nativeLoopEffective, hds, hjit, hloop]
  refine ⟨⟨hctl.trans h.ctl, hverifier ▸ h.fresh, ?_, ?_⟩, hkey, by rw [hvm']; rfl⟩
  · intro w hw
    obtain rfl := Option.some.inj (hvm'.symm.trans hw)
    obtain ⟨ds, hlast, hvmds⟩ := h.seeded vm hvm
    exact ⟨ds, hkey ▸ hlast, hds.trans hvmds⟩
  · intro w hw
    obtain rfl := Option.some.inj (hvm'.symm.trans hw)
    rw [heffective, hverifier]
    exact h.armed vm hvm

/-- **The verdict of a pass**: what is mined is compared with the reference hash under the same seed, if
    the verifier is armed, and withheld if they differ. -/
theorem submitHash_verifier {last : Option Seed} {st st' : WorkerState} {env : Environment} {j : JobRef}
    {hash : Vector Byte 32} {out : Option Submission} {vm : WorkerVm}
    (h : VerifierInv p J cfg ctl last st) (hvm : st.vm = some vm) (hjit : J env.verifierJit)
    (hrun : submitHash p jobs st env j hash = some (st', out)) :
    VerifierInv p J cfg ctl last st' ∧
      (meetsTarget hash (jobs j).target = true → ∃ ds jit, last = some (st.currentKey, ds) ∧
        vm.dataset = some ds ∧ J jit ∧
        (out = none ↔ (cfg.verifyShares && nativeLoopEffective vm) = true ∧
          hashOf p (referenceContext p (st.currentKey, ds) jit) .V1 ctl st.blobCurrent
            ≠ some hash)) := by
  obtain ⟨ds, hlast, hds⟩ := h.seeded vm hvm
  unfold submitHash at hrun
  split at hrun
  next hmeets =>
    obtain ⟨⟨reference, verifier, ctl'⟩, href, hres⟩ := Option.bind_eq_some_iff.mp hrun
    obtain ⟨rfl, rfl⟩ := Prod.mk.inj (Option.some.inj hres)
    rw [← h.armed vm hvm]
    -- armed: the shares are to be verified, and the native loop is in effect
    by_cases henabled : st.verifier.enabled = true
    · have hfresh : st.verifier.Fresh p J (some (st.currentKey, ds)) := hlast ▸ h.fresh
      obtain ⟨jit, hjit', hvalue, hafter⟩ := hfresh.reference henabled hjit st.ctl st.blobCurrent
      obtain ⟨hfresh', hkeep, hctl⟩ := hafter _ href
      refine ⟨⟨hctl.trans h.ctl, hlast ▸ hfresh', h.seeded, fun w hw => hkeep.trans (h.armed w hw)⟩,
        ?_⟩
      intro _
      refine ⟨ds, jit, hlast, hds, hjit', ?_⟩
      rw [href, h.ctl] at hvalue
      obtain ⟨result, hresult, rfl⟩ := Option.map_eq_some_iff.mp hvalue.symm
      rw [hresult, hkeep, henabled]
      -- the share is withheld on a mismatch, and on nothing else
      by_cases heq : result = hash
      · simp [classifyShare, ShareVerdict.shouldSubmit, heq]
      · simp [classifyShare, ShareVerdict.shouldSubmit, heq]
    · rw [Bool.not_eq_true] at henabled
      rw [ShareVerifier.reference_none (.inl henabled)] at href
      obtain ⟨rfl, rfl, rfl⟩ : none = reference ∧ st.verifier = verifier ∧ st.ctl = ctl' := by
        simpa using href
      refine ⟨⟨h.ctl, h.fresh, h.seeded, h.armed⟩, ?_⟩
      intro _
      refine ⟨ds, env.verifierJit, hlast, hds, hjit, ?_⟩
      simp [classifyShare, ShareVerdict.shouldSubmit, henabled]
  next hmeets =>
    obtain ⟨rfl, rfl⟩ := Prod.mk.inj (Option.some.inj hrun)
    exact ⟨h, fun hmeets' => absurd hmeets' hmeets⟩

/-- What one pass preserves. -/
theorem workerIteration_verifier {last : Option Seed} {st st' : WorkerState} {env : Environment}
    {out : Option Submission} (h : VerifierInv p J cfg ctl last st) (hjit : J env.verifierJit)
    (hrun : workerIteration p jobs cfg st env = some (st', out)) :
    VerifierInv p J cfg ctl ((seedRotation jobs st env).or last) st' := by
  unfold workerIteration at hrun
  cases hwork : env.work with
  | none =>
    rw [hwork] at hrun
    obtain ⟨rfl, rfl⟩ := Prod.mk.inj (Option.some.inj hrun)
    rw [seedRotation, hwork]
    exact h
  | some j =>
    rw [hwork] at hrun
    simp only at hrun
    have hinstall : VerifierInv p J cfg ctl last (installJob jobs st j) := installJob_verifier h j
    obtain ⟨hinv, _⟩ := rekeyVm_verifier hinstall hwork
    rw [seedRotation_installJob] at hinv
    generalize rekeyVm p jobs cfg (installJob jobs st j) env j = st₁ at hrun hinv
    split at hrun
    · obtain ⟨rfl, rfl⟩ := Prod.mk.inj (Option.some.inj hrun)
      exact hinv
    · obtain ⟨⟨hash, st₂⟩, hhash, hsubmit⟩ := Option.bind_eq_some_iff.mp hrun
      obtain ⟨hinv₂, _, hsome⟩ := hashNonce_verifier hinv hhash
      obtain ⟨vm, hvm⟩ := Option.isSome_iff_exists.mp hsome
      exact (submitHash_verifier hinv₂ hvm hjit hsubmit).1

/-- What a run of passes preserves. -/
theorem workerRun_verifier {last : Option Seed} {st st' : WorkerState} {envs : List Environment}
    {subs : List Submission} (h : VerifierInv p J cfg ctl last st)
    (hjits : ∀ env ∈ envs, J env.verifierJit)
    (hrun : workerRun p jobs cfg st envs = some (st', subs)) :
    VerifierInv p J cfg ctl (lastRotation p jobs cfg last st envs) st' := by
  induction envs generalizing st last subs with
  | nil =>
    obtain ⟨rfl, rfl⟩ := Prod.mk.inj (Option.some.inj hrun)
    exact h
  | cons env envs ih =>
    obtain ⟨⟨st₁, out⟩, hstep, hrest⟩ := Option.bind_eq_some_iff.mp hrun
    obtain ⟨⟨st₂, subs'⟩, htail, hres⟩ := Option.bind_eq_some_iff.mp hrest
    obtain ⟨rfl, rfl⟩ := Prod.mk.inj (Option.some.inj hres)
    have hinv := workerIteration_verifier h (hjits env (by simp)) hstep
    rw [lastRotation, hstep]
    exact ih hinv (fun env henv => hjits env (by simp [henv])) htail

/-- A rotation of the pass after a run is the last one. -/
theorem lastRotation_append {last : Option Seed} {st st' : WorkerState} {envs : List Environment}
    {subs : List Submission} (env : Environment)
    (hrun : workerRun p jobs cfg st envs = some (st', subs)) :
    lastRotation p jobs cfg last st (envs ++ [env])
      = (seedRotation jobs st' env).or (lastRotation p jobs cfg last st envs) := by
  induction envs generalizing st last subs with
  | nil =>
    obtain ⟨rfl, rfl⟩ := Prod.mk.inj (Option.some.inj hrun)
    rw [List.nil_append, lastRotation, lastRotation]
    cases workerIteration p jobs cfg st env <;> rfl
  | cons env' envs ih =>
    obtain ⟨⟨st₁, out⟩, hstep, hrest⟩ := Option.bind_eq_some_iff.mp hrun
    obtain ⟨⟨st₂, subs'⟩, htail, hres⟩ := Option.bind_eq_some_iff.mp hrest
    obtain ⟨rfl, rfl⟩ := Prod.mk.inj (Option.some.inj hres)
    rw [List.cons_append, lastRotation, lastRotation, hstep]
    exact ih htail

variable (p jobs cfg) in
/-- A pass that mines a hash which meets the target of its job: `st₁` is the worker after the hash. -/
structure Candidate (st : WorkerState) (env : Environment) (j : JobRef) (hash : Vector Byte 32)
    (st₁ : WorkerState) : Prop where
  work : env.work = some j
  long : 43 ≤ (rekeyVm p jobs cfg (installJob jobs st j) env j).blobCurrent.length ∧
    43 ≤ (rekeyVm p jobs cfg (installJob jobs st j) env j).blobNext.length
  mined : hashNonce p cfg (rekeyVm p jobs cfg (installJob jobs st j) env j) = some (hash, st₁)
  meets : meetsTarget hash (jobs j).target = true

/-- The verdict on a candidate share, in a pass from a state that meets the invariant. -/
theorem withheld_iff {last : Option Seed} {st st₁ st₂ : WorkerState} {env : Environment} {j : JobRef}
    {hash : Vector Byte 32} {out : Option Submission} (h : VerifierInv p J cfg ctl last st)
    (hjit : J env.verifierJit) (hcand : Candidate p jobs cfg st env j hash st₁)
    (hrun : workerIteration p jobs cfg st env = some (st₂, out)) :
    ∃ vm ds jit, (seedRotation jobs st env).or last = some ((jobs j).seedHash, ds) ∧
      st₁.vm = some vm ∧ vm.dataset = some ds ∧ J jit ∧
      (out = none ↔ (cfg.verifyShares && nativeLoopEffective vm) = true ∧
        hashOf p (referenceContext p ((jobs j).seedHash, ds) jit) .V1 ctl st₁.blobCurrent
          ≠ some hash) := by
  unfold workerIteration at hrun
  rw [hcand.work] at hrun
  simp only at hrun
  obtain ⟨hlong, hlong'⟩ := hcand.long
  have hinstall : VerifierInv p J cfg ctl last (installJob jobs st j) := installJob_verifier h j
  obtain ⟨hinv, _, _, hkey⟩ := rekeyVm_verifier hinstall hcand.work
  rw [seedRotation_installJob] at hinv
  have hmined := hcand.mined
  generalize rekeyVm p jobs cfg (installJob jobs st j) env j = st₀ at hrun hlong hlong' hinv hkey hmined
  rw [if_neg (by omega), hmined] at hrun
  obtain ⟨hinv₁, hkeep, hsome⟩ := hashNonce_verifier hinv hmined
  obtain ⟨vm, hvm⟩ := Option.isSome_iff_exists.mp hsome
  obtain ⟨ds, jit, hlast, hds, hjit', hiff⟩ :=
    (submitHash_verifier hinv₁ hvm hjit hrun).2 hcand.meets
  rw [hkeep, hkey] at hlast hiff
  exact ⟨vm, ds, jit, hlast, hvm, hds, hjit', hiff⟩

/-- Where the verifier's VM interprets, a pass with a candidate returns. -/
theorem Candidate.exists_workerIteration (hJ : ∀ jit, J jit → JitInterprets p jit) {last : Option Seed}
    {st st₁ : WorkerState} {env : Environment} {j : JobRef} {hash : Vector Byte 32}
    (hcand : Candidate p jobs cfg st env j hash st₁) (h : VerifierInv p J cfg ctl last st) (hjit : J env.verifierJit) :
    ∃ st₂ out, workerIteration p jobs cfg st env = some (st₂, out) := by
  obtain ⟨hinv, -⟩ := rekeyVm_verifier (installJob_verifier h j) hcand.work
  obtain ⟨hinv₁, -⟩ := hashNonce_verifier hinv hcand.mined
  obtain ⟨v, href⟩ := hinv₁.fresh.exists_reference hJ hjit st₁.ctl st₁.blobCurrent
  have hfits := hcand.long
  unfold workerIteration submitHash
  simp only [hcand.work, hcand.mined, hcand.meets, href, if_neg (not_or.mpr ⟨hfits.1.not_gt, hfits.2.not_gt⟩),
    Option.bind_eq_bind, Option.bind_some, if_true]
  exact ⟨_, _, rfl⟩

end Worker

/-- **The share verifier is never stale.** `J` is what a JIT allocation can return.

    After any sequence of `rekey`, `set_enabled` and `reference` calls that returns, a cached VM holds the
    dataset of the last `rekey` and has the native loop off; and a further `reference` returns a hash
    exactly when the verifier is enabled and has been rekeyed, the one of the reference path under that
    dataset. With native code that does what the interpreter does every call returns.

    In any run of `worker_loop`, a candidate share is withheld exactly when the VM that mined it really
    runs the native loop, verification is asked for, and the reference hash of the blob, under the dataset
    of the last rotation, which that VM holds, is not the mined one. -/
theorem share_verifier_never_stale {p : Platform} {J : Option NativeCode → Prop} :
    (∀ {enabled : Bool} {ops : List VerifierOp} {v : ShareVerifier}, (∀ op ∈ ops, op.JitIn J) →
      (ShareVerifier.new enabled).applyAll p ops = some v →
      (∀ vm, v.vm = some vm → vm.dataset.isSome = true ∧
        vm.dataset = (lastRekey none ops).map Prod.snd ∧ vm.useNativeLoop = false) ∧
      ∀ {jit ctl blob hash v' ctl'}, J jit → v.reference p jit ctl blob = some (hash, v', ctl') →
        (hash.isSome = true ↔ lastEnabled enabled ops = true ∧ (lastRekey none ops).isSome = true) ∧
        ∀ result, hash = some result → ∃ seed jit', lastRekey none ops = some seed ∧ J jit' ∧
          hashOf p (referenceContext p seed jit') .V1 ctl blob = some result) ∧
    ((∀ jit, J jit → JitInterprets p jit) →
      ∀ {enabled : Bool} {ops : List VerifierOp}, (∀ op ∈ ops, op.JitIn J) →
        ∃ v, (ShareVerifier.new enabled).applyAll p ops = some v ∧
          ∀ {jit}, J jit → ∀ ctl blob, ∃ v', v.reference p jit ctl blob
            = some (if lastEnabled enabled ops then (lastRekey none ops).bind fun seed =>
                hashOf p (referenceContext p seed none) .V1 ctl blob
              else none, v', ctl)) ∧
    (∀ {jobs : JobRef → Job} {cfg : WorkerConfig} {ctl : BitVec 32} {envs : List Environment}
      {env : Environment} {st st₁ st₂ : WorkerState} {subs : List Submission} {j : JobRef}
      {hash : Vector Byte 32} {out : Option Submission},
      (∀ e ∈ envs ++ [env], J e.verifierJit) →
      workerRun p jobs cfg (.init cfg ctl) envs = some (st, subs) →
      Candidate p jobs cfg st env j hash st₁ →
      workerIteration p jobs cfg st env = some (st₂, out) →
      ∃ vm ds jit,
        lastRotation p jobs cfg none (.init cfg ctl) (envs ++ [env]) = some ((jobs j).seedHash, ds) ∧
        st₁.vm = some vm ∧ vm.dataset = some ds ∧ J jit ∧
        (out = none ↔ (cfg.verifyShares && nativeLoopEffective vm) = true ∧
          hashOf p (referenceContext p ((jobs j).seedHash, ds) jit) .V1 ctl st₁.blobCurrent
            ≠ some hash)) := by
  refine ⟨?_, ?_, ?_⟩
  · -- every VM that is kept was made under the last rekey
    intro enabled ops v hops hrun
    obtain ⟨hfresh, henabled⟩ := (ShareVerifier.fresh_new enabled).applyAll hops hrun
    have henabled : v.enabled = lastEnabled enabled ops := henabled
    rw [← henabled]
    refine ⟨?_, ?_⟩
    · intro vm hvm
      obtain ⟨seed, jit, hlast, _, hctx⟩ := hfresh.vm vm hvm
      have hds : vm.dataset = some seed.2 := congrArg VmContext.dataset hctx
      refine ⟨by rw [hds]; rfl, ?_, congrArg VmContext.useNativeLoop hctx⟩
      rw [hds, hlast]
      rfl
    · intro jit ctl blob hash v' ctl' hjit hcall
      -- off, or without a dataset, there is no reference at all
      by_cases hoff : v.enabled = false ∨ v.dataset = none
      · rw [ShareVerifier.reference_none hoff] at hcall
        obtain rfl := (Prod.mk.inj (Option.some.inj hcall)).1
        rw [hfresh.dataset, Option.map_eq_none_iff] at hoff
        refine ⟨?_, nofun⟩
        rcases hoff with hoff | hoff <;> simp [hoff]
      · rw [not_or, Bool.not_eq_false, hfresh.dataset, Option.map_eq_none_iff] at hoff
        obtain ⟨seed, hlast⟩ := Option.ne_none_iff_exists'.mp hoff.2
        rw [hlast] at hfresh ⊢
        obtain ⟨jit', hjit', hvalue, _⟩ := hfresh.reference hoff.1 hjit ctl blob
        rw [hcall] at hvalue
        obtain ⟨result, hresult, heq⟩ := Option.map_eq_some_iff.mp hvalue.symm
        obtain rfl : some result = hash := heq
        refine ⟨by simp [hoff.1], ?_⟩
        intro result' hsome
        obtain rfl := Option.some.inj hsome
        exact ⟨seed, jit', rfl, hjit', hresult⟩
  · -- with code that agrees with the interpreter no call fails, and the JIT drops out of the result
    intro hJ enabled ops hops
    obtain ⟨v, hrun⟩ := (ShareVerifier.fresh_new enabled).exists_applyAll hJ hops
    obtain ⟨hfresh, henabled⟩ := (ShareVerifier.fresh_new enabled).applyAll hops hrun
    refine ⟨v, hrun, ?_⟩
    intro jit hjit ctl blob
    rw [← show v.enabled = lastEnabled enabled ops from henabled]
    exact hfresh.exists_reference hJ hjit ctl blob
  · -- in a worker the last rekey is its last rotation
    intro jobs cfg ctl envs env st st₁ st₂ subs j hash out hjits hrun hcand hpass
    have hinv := workerRun_verifier (p := p) (J := J) verifierInv_init
      (fun e he => hjits e (List.mem_append_left _ he)) hrun
    rw [lastRotation_append env hrun]
    exact withheld_iff hinv (hjits env (by simp)) hcand hpass

/-! ## A withheld share -/

/-- Hashes that show the first 32 bytes of the register file. -/
def echoPlatform : Platform :=
  { nullPlatform with blake2b256 := fun bytes => Vector.ofFn fun k => bytes.getD k 0 }

/-- A loop function that returns with `w` in every integer register. -/
def brokenCode (w : Word) : NativeCode where
  body := fun _ _ _ s => some s
  loop := fun _ _ _ _ s => some ({ s with nreg := { s.nreg with r := Vector.replicate 8 w } }, ⟨0, 0, 0, 0⟩)

/-- The hash it leads to. -/
def brokenHash (w : Word) : Vector Byte 32 := Vector.ofFn fun k => byteOf w (k % 8)

/-- After the last of some steps. -/
theorem exists_foldlM_last {α β : Type} {f : β → α → Option β} {P : β → Prop}
    (h : ∀ b a, ∃ b', f b a = some b' ∧ P b') {l : List α} (hl : l ≠ []) (b : β) :
    ∃ b', l.foldlM f b = some b' ∧ P b' := by
  induction l generalizing b with
  | nil => exact absurd rfl hl
  | cons a l ih =>
    obtain ⟨b₁, hstep, hP⟩ := h b a
    rw [List.foldlM_cons, hstep, Option.bind_eq_bind, Option.bind_some]
    cases l with
    | nil => exact ⟨b₁, rfl, hP⟩
    | cons a' l => exact ih (List.cons_ne_nil _ _) b₁

theorem serializeRegisterFile_replicate {w : Word} {f e a : Vector F128 4} {k : Nat} (hk : k < 32) :
    (serializeRegisterFile { r := Vector.replicate 8 w, f, e, a }).getD k 0 = byteOf w (k % 8) := by
  rw [serializeRegisterFile, List.append_assoc, List.append_assoc]
  interval_cases k <;> rfl

theorem hashOf_brokenCode {ctx : VmContext} {w : Word} {ds : RandomXDataset} (hjit : ctx.jit = some (brokenCode w))
    (hds : ctx.dataset = some ds) (hloop : ctx.useNativeLoop = true) (ctl : BitVec 32) (input : List Byte) :
    hashOf echoPlatform ctx .V1 ctl input = some (brokenHash w) := by
  obtain ⟨cache, programs, dataset, jit, useNativeLoop⟩ := ctx
  obtain rfl : jit = some (brokenCode w) := hjit
  obtain rfl : dataset = some ds := hds
  obtain rfl : useNativeLoop = true := hloop
  obtain ⟨c, hc, hr⟩ := exists_foldlM_last (P := fun c : VmState × Vector Byte 64 => c.1.nreg.r = Vector.replicate 8 w)
    (f := coreChain echoPlatform ⟨cache, programs, some ds, some (brokenCode w), true⟩ .V1)
    (fun b a => ⟨_, rfl, rfl⟩) (l := List.range RANDOMX_PROGRAM_COUNT) (by decide)
    (startState echoPlatform (filled echoPlatform input).2 ctl, (filled echoPlatform input).1)
  rw [hashOf, coreChains, hc, Option.map_some]
  refine congrArg some (Vector.ext fun k hk => ?_)
  rw [brokenHash, Vector.getElem_ofFn]
  obtain ⟨⟨⟨r, f, e, a⟩, scratchpad, ctl'⟩, tempHash⟩ := c
  obtain rfl : r = Vector.replicate 8 w := hr
  show (Vector.ofFn fun k : Fin 32 => (serializeRegisterFile (withAesHash _ _)).getD k 0)[k] = _
  rw [Vector.getElem_ofFn]
  exact serializeRegisterFile_replicate hk

theorem nativeLoopEffective_broken {vm : WorkerVm} {w : Word} {ds : RandomXDataset} (hds : vm.dataset = some ds)
    (hjit : vm.jit = some (brokenCode w)) (hloop : vm.useNativeLoop = true) : nativeLoopEffective vm = true := by
  simp [nativeLoopEffective, nativeLoopApplies, hds, hjit, hloop]

/-- Two jobs of different seeds: a hard one, and one that every hash is a share of. -/
def withheldJobs (j : JobRef) : Job :=
  if j = 0 then sampleJob
  else { sampleJob with target := List.replicate 8 255, seedHash := [8] }

/-- A worker whose native loop is broken mines for one seed and then for another. Its verifier, rekeyed to the second
    and armed, withholds the share. A verifier that is rekeyed after a hash answers for its second seed, too. -/
theorem share_verifier_never_stale_withheld :
    ∃ (w : Word) (ds ds' : RandomXDataset) (st st₁ st₂ : WorkerState),
      workerRun echoPlatform withheldJobs sampleConfig (.init sampleConfig 0)
        [⟨some 0, ds, some (brokenCode w), none⟩] = some (st, []) ∧
      Candidate echoPlatform withheldJobs sampleConfig st ⟨some 1, ds', none, none⟩ 1 (brokenHash w) st₁ ∧
      lastRotation echoPlatform withheldJobs sampleConfig none (.init sampleConfig 0)
        [⟨some 0, ds, some (brokenCode w), none⟩, ⟨some 1, ds', none, none⟩] = some ([8], ds') ∧
      st₁.verifier.enabled = true ∧
      workerIteration echoPlatform withheldJobs sampleConfig st ⟨some 1, ds', none, none⟩ = some (st₂, none) ∧
      ∃ v v', (ShareVerifier.new false).applyAll echoPlatform
          [.rekey [7] ds, .setEnabled true, .reference none 0 [1], .rekey [8] ds'] = some v ∧
        v.reference echoPlatform none 0 [2]
          = some (hashOf echoPlatform (referenceContext echoPlatform ([8], ds') none) .V1 0 [2], v', 0) := by
  obtain ⟨ds, -⟩ := exists_generates_null [7] 1
  obtain ⟨ds', -⟩ := exists_generates_null [8] 2
  let J : Option NativeCode → Prop := fun jit => jit = none
  have hJ : ∀ jit, J jit → JitInterprets echoPlatform jit := by
    rintro _ rfl
    exact nofun
  obtain ⟨-, hends, hworker⟩ := @share_verifier_never_stale echoPlatform J
  -- one of two hashes is not the reference hash
  obtain ⟨w, hmisses, hmeets, hwrong⟩ : ∃ w, meetsTarget (brokenHash w) (withheldJobs 0).target = false ∧
      meetsTarget (brokenHash w) (withheldJobs 1).target = true ∧
      hashOf echoPlatform (referenceContext echoPlatform ([8], ds') none) .V1 0
        (writeNonceLe (withheldJobs 1).blob 13) ≠ some (brokenHash w) := by
    by_cases h : hashOf echoPlatform (referenceContext echoPlatform ([8], ds') none) .V1 0
        (writeNonceLe (withheldJobs 1).blob 13) = some (brokenHash 2)
    · exact ⟨3, by decide, by decide, by rw [h]; decide⟩
    · exact ⟨2, by decide, by decide, h⟩
  let env : Environment := ⟨some 0, ds, some (brokenCode w), none⟩
  let env' : Environment := ⟨some 1, ds', none, none⟩
  have hjits : ∀ e ∈ [env] ++ [env'], J e.verifierJit := by
    intro e he
    rcases List.mem_pair.mp he with rfl | rfl <;> rfl
  -- the first pass mines for the first seed, and finds no share
  let st₀ := rekeyVm echoPlatform withheldJobs sampleConfig
    (installJob withheldJobs (.init sampleConfig 0) 0) env 0
  obtain ⟨vm, hctx, hhash⟩ := @exists_hashNonce echoPlatform sampleConfig st₀ _ _ rfl rfl
    (hashOf_brokenCode rfl rfl rfl _ _)
  have hrun : workerRun echoPlatform withheldJobs sampleConfig (.init sampleConfig 0) [env]
      = some (st₀.afterHash sampleConfig vm, []) := by
    have hpass : workerIteration echoPlatform withheldJobs sampleConfig (.init sampleConfig 0) env
        = some (st₀.afterHash sampleConfig vm, none) := by
      refine workerIteration_of_miss rfl ?_ hhash hmisses
      show 43 ≤ (withheldJobs 0).blob.length ∧ 43 ≤ (withheldJobs 0).blob.length
      decide
    rw [workerRun, hpass]
    rfl
  -- the second rotates the VM, whose loop stays broken
  have hjit : vm.jit = some (brokenCode w) := congrArg VmContext.jit hctx
  have hloop : vm.useNativeLoop = true := congrArg VmContext.useNativeLoop hctx
  let st := st₀.afterHash sampleConfig vm
  let st₁ := rekeyVm echoPlatform withheldJobs sampleConfig (installJob withheldJobs st 1) env' 1
  obtain ⟨vm', hctx', hhash'⟩ := @exists_hashNonce echoPlatform sampleConfig st₁
    (vm.reinit echoPlatform [8] (some ds')) _ rfl rfl (hashOf_brokenCode hjit rfl hloop _ _)
  have hcand : Candidate echoPlatform withheldJobs sampleConfig st env' 1 (brokenHash w)
      (st₁.afterHash sampleConfig vm') := by
    refine ⟨rfl, ?_, hhash', hmeets⟩
    show 43 ≤ (withheldJobs 1).blob.length ∧ 43 ≤ (withheldJobs 1).blob.length
    decide
  have hlast : lastRotation echoPlatform withheldJobs sampleConfig none (.init sampleConfig 0) ([env] ++ [env'])
      = some ([8], ds') := by
    rw [lastRotation_append env' hrun]
    rfl
  have harmed : (st₁.afterHash sampleConfig vm').verifier.enabled = true := by
    exact @nativeLoopEffective_broken (vm.reinit echoPlatform [8] (some ds')) w ds' rfl hjit hloop
  -- the reference hash is another one
  have hinv := workerRun_verifier (p := echoPlatform) (J := J) verifierInv_init
    (fun e he => hjits e (List.mem_append_left _ he)) hrun
  obtain ⟨st₂, out, hpass⟩ := hcand.exists_workerIteration hJ hinv rfl
  obtain ⟨vm₁, ds₁, jit, hseed, hvm₁, -, hnone, hiff⟩ := hworker hjits hrun hcand hpass
  obtain rfl : ds' = ds₁ := congrArg Prod.snd (Option.some.inj (hlast.symm.trans hseed))
  obtain rfl : jit = none := hnone
  obtain rfl : vm' = vm₁ := Option.some.inj hvm₁
  have heffective : nativeLoopEffective vm' = true :=
    nativeLoopEffective_broken (congrArg VmContext.dataset hctx') ((congrArg VmContext.jit hctx').trans hjit)
      ((congrArg VmContext.useNativeLoop hctx').trans hloop)
  obtain rfl : out = none := hiff.mpr ⟨heffective, hwrong⟩
  let ops : List VerifierOp := [.rekey [7] ds, .setEnabled true, .reference none 0 [1], .rekey [8] ds']
  obtain ⟨v, hcalls, href⟩ := @hends hJ false ops (by simp [ops, VerifierOp.JitIn, J])
  obtain ⟨v', hreference⟩ := href (show J none from rfl) 0 [2]
  rw [show lastEnabled false ops = true from rfl, if_pos rfl, show lastRekey none ops = some ([8], ds') from rfl,
    Option.bind_some] at hreference
  exact ⟨w, ds, ds', st, _, st₂, hrun, hcand, hlast, harmed, hpass, v, v', hcalls, hreference⟩

end Miner
end MinerTim
