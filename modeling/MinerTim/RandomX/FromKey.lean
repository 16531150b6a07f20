import MinerTim.RandomX.AlgorithmSpec
import MinerTim.RandomX.Argon2dSpec
import MinerTim.RandomX.Blake2Gen
import MinerTim.RandomX.DatasetItem

/-!
# `RandomX.FromKey` — from the bytes of a key and an input to the hash

`RandomX.Vm` takes the primitives as parameters. Here they are the ones of the sources (`sourcePlatform`): BLAKE2b,
Argon2d, the AES rounds and the SuperscalarHash generator. None of them panics, so each is a total function; only
the generator has loops that need not end, and `calculateHashFromKey` is run with fuel for them.

What the whole computation comes to is the RandomX hash of the specifications: RFC 7693, RFC 9106, FIPS 197, and the
items of `RandomX.DatasetItem` (`hash_of_key`).
-/

namespace MinerTim
namespace RandomX
namespace FromKey

open Algorithm
open Blake2b (blake2b512 blake2b256 blake2b512_eq blake2b256_eq digest)

/-! ## The primitives of the sources -/

/-- The memory of RFC 9106, for the key as the password. -/
def cacheBytes (key : List Byte) : List Byte :=
  (Argon2.matrix Argon2d.H (Argon2d.cacheParams 65536 3 key)).flatMap Argon2.bytesOfBlock

theorem argon2dCache_eq (key : List Byte) : Argon2d.argon2dCache key = some (cacheBytes key) := by
  have hcache := Argon2d.yields_argon2dCacheWith (show 2 ≤ 65536 by decide) (show 1 ≤ 3 by decide) key
  obtain ⟨cache, heq, hpost⟩ := hcache.exists_eq (by unfold Argon2d.Fits; omega)
  rw [Argon2d.argon2dCache, show Argon2d.RANDOMX_ARGON_MEMORY = 4 * 65536 from rfl,
    show Argon2d.RANDOMX_ARGON_ITERATIONS = 3 from rfl, heq, hpost, cacheBytes]

theorem length_bytesOfBlock (x : Argon2.Block) : (Argon2.bytesOfBlock x).length = 1024 := by
  simp [Argon2.bytesOfBlock]

/-- The cache is full. -/
theorem length_cacheBytes (key : List Byte) : (cacheBytes key).length = CACHE_SIZE := by
  have hblocks : (Argon2.matrix Argon2d.H (Argon2d.cacheParams 65536 3 key)).length = 262144 := by
    simp only [Argon2.matrix, List.length_map, List.length_range, Argon2d.cacheParams]
  simp only [cacheBytes, List.length_flatMap, length_bytesOfBlock, List.map_const', List.sum_replicate, hblocks,
    CACHE_SIZE, smul_eq_mul]

/-- The platform of the sources, with these programs. -/
def sourcePlatform (fp : FpUnit) (programs : Vector SuperscalarProgram 8) : Platform where
  fp := fp
  aes := softRounds
  blake2b512 input := (blake2b512 input).get (by simp [blake2b512_eq])
  blake2b256 input := (blake2b256 input).get (by simp [blake2b256_eq])
  argon2dCache key := (Argon2d.argon2dCache key).get (by simp [argon2dCache_eq])
  superscalarPrograms _ := programs

/-- `calculate_hash_versioned`, from the generator on. -/
def calculateHashFromKey (fp : FpUnit) (key input : List Byte) (version : RxVersion) (ctl : BitVec 32) :
    Fuelled (Superscalar.Site Blake2Generator) (Vector Byte 32 × BitVec 32) := do
  let programs ← Superscalar.superscalarPrograms key
  Fuelled.ofOption (calculateHashVersioned (sourcePlatform fp programs) key input version ctl)

/-! ## The hash of the specifications -/

/-- The items of a key, with these programs. -/
def itemsOf (key : List Byte) (programs : Vector SuperscalarProgram 8) (k : Nat) : Line :=
  Vector.ofFn
    (DatasetItem.item (DatasetItem.cacheLines (cacheBytes key)) (programs.toList.map DatasetItem.programOf) k)

/-- The RandomX hash with the primitives of the specifications. -/
def IsSpecHash (fp : FpUnit) (key input : List Byte) (programs : Vector SuperscalarProgram 8) (version : RxVersion)
    (ctl : BitVec 32) (hash : Vector Byte 32) : Prop :=
  IsHash fp standardRounds (digest 64) (digest 32) version (fun k => some (itemsOf key programs k)) ctl input hash

section

variable {fp : FpUnit} {key : List Byte} {programs : Vector SuperscalarProgram 8} {version : RxVersion}

theorem sourcePlatform_aes : (sourcePlatform fp programs).aes = standardRounds := softRounds_eq

theorem sourcePlatform_blake2b512 : (sourcePlatform fp programs).blake2b512 = digest 64 := by
  funext input
  simp only [sourcePlatform, blake2b512_eq, Option.get_some]

theorem sourcePlatform_blake2b256 : (sourcePlatform fp programs).blake2b256 = digest 32 := by
  funext input
  simp only [sourcePlatform, blake2b256_eq, Option.get_some]

theorem sourcePlatform_argon2dCache : (sourcePlatform fp programs).argon2dCache = cacheBytes := by
  funext key
  exact Option.get_of_eq_some _ (argon2dCache_eq key)

theorem sourcePlatform_superscalarPrograms : (sourcePlatform fp programs).superscalarPrograms key = programs := rfl

/-- The items that light mode computes. -/
theorem datasetOf_lightContext (hprograms : ∀ prog ∈ programs.toList, Superscalar.ProgramWellFormed prog) :
    datasetOf (lightContext (sourcePlatform fp programs) key) = fun k => some (itemsOf key programs k) := by
  funext k
  simp only [datasetOf, VmContext.line, datasetLine, lightContext, sourcePlatform_argon2dCache,
    sourcePlatform_superscalarPrograms, itemsOf]
  exact DatasetItem.initDatasetItem_eq (length_cacheBytes key).ge hprograms k

/-- **The hash is the one of the specifications.** -/
theorem hashOf_source (hprograms : ∀ prog ∈ programs.toList, Superscalar.ProgramWellFormed prog) (ctl : BitVec 32)
    (input : List Byte) (hash : Vector Byte 32) :
    hashOf (sourcePlatform fp programs) (lightContext (sourcePlatform fp programs) key) version ctl input = some hash
      ↔ IsSpecHash fp key input programs version ctl hash := by
  have hlight : (lightContext (sourcePlatform fp programs) key).jit = none := rfl
  rw [hashOf_iff hlight, datasetOf_lightContext hprograms, sourcePlatform_aes, sourcePlatform_blake2b512,
    sourcePlatform_blake2b256]
  rfl

/-- **A dataset of the key**, whatever the schedule of the threads that generate it. -/
theorem exists_dataset (hprograms : ∀ prog ∈ programs.toList, Superscalar.ProgramWellFormed prog) {numThreads : Nat}
    {order : List (Nat × Word)} (horder : RandomXDataset.IsSchedule numThreads order) :
    ∃ ds : RandomXDataset, RandomXDataset.generateInOrder (cacheBytes key) programs order = some ds.items ∧
      (∀ k < DATASET_ITEM_COUNT, ds.items[k]? = some (itemsOf key programs k)) ∧
      IsDatasetFor (sourcePlatform fp programs) key ds := by
  have hruns : ∀ prog ∈ programs.toList, prog.WellFormed := fun prog hprog => (hprograms prog hprog).runs
  obtain ⟨ds, hds⟩ := RandomXDataset.exists_generateInOrder (length_cacheBytes key).ge hruns order
  have hgenerates : RandomXDataset.Generates (cacheBytes key) programs numThreads ds := ⟨order, horder, hds⟩
  refine ⟨ds, hds, fun k hk => ?_, numThreads, ?_⟩
  · rw [hgenerates.getElem hk]
    exact DatasetItem.initDatasetItem_eq (length_cacheBytes key).ge hprograms k
  · rw [sourcePlatform_argon2dCache]
    exact hgenerates

/-- **From the key to the hash.** Hashing any input under any key never panics: the generator runs into a loop that
    the hash chain of the key never leaves, or the call returns the one RandomX hash of the specifications and restores
    the control word. Then `generate` returns on any number of threads, in every schedule, with the items of the key,
    and a full-mode VM on that dataset returns the same hash. -/
theorem hash_of_key (fp : FpUnit) (key input : List Byte) (version : RxVersion) (ctl : BitVec 32) :
    Fuelled.Ends (Superscalar.Endless Blake2Generator.byteGenerator)
      (fun r => r.2 = ctl ∧ ∃ programs, Fuelled.ComesTo (Superscalar.superscalarPrograms key) (.ok programs) ∧
        (∀ hash, IsSpecHash fp key input programs version ctl hash ↔ hash = r.1) ∧
        ∀ numThreads order, RandomXDataset.IsSchedule numThreads order → ∃ ds : RandomXDataset,
          RandomXDataset.generateInOrder (cacheBytes key) programs order = some ds.items ∧
          (∀ k < DATASET_ITEM_COUNT, ds.items[k]? = some (itemsOf key programs k)) ∧
          ((RandomXVm.newFullVersioned (sourcePlatform fp programs) key ds version none).calculateHash
            (sourcePlatform fp programs) ctl input).map (fun r => (r.1, r.2.2)) = some r)
      (calculateHashFromKey fp key input version ctl) := by
  rcases Superscalar.superscalarPrograms_spec key with ⟨programs, hprograms, hcomes⟩ | ⟨site, hsite, hcomes⟩
  · -- light mode has every item, so it returns
    have hready : (lightContext (sourcePlatform fp programs) key).Ready fp (sourcePlatform fp programs).aes
        version := by
      refine ⟨VmContext.interprets_of_jit rfl, fun k _ => ?_⟩
      have hitem := congrFun (@datasetOf_lightContext fp key programs hprograms) k.toNat
      rw [datasetOf, BitVec.ofNat_toNat, BitVec.setWidth_eq] at hitem
      exact ⟨_, hitem⟩
    obtain ⟨hash, hhash⟩ := exists_hashOf (p := sourcePlatform fp programs) hready ctl input
    have hcall : calculateHashVersioned (sourcePlatform fp programs) key input version ctl = some (hash, ctl) := by
      rw [calculateHashVersioned_eq, hhash]
      rfl
    refine .inl ⟨(hash, ctl), ⟨rfl, programs, hcomes, fun hash' => ?_, fun numThreads order horder => ?_⟩, ?_⟩
    · rw [← hashOf_source hprograms, hhash, Option.some.injEq]
      exact eq_comm
    · obtain ⟨ds, hds, hitems, hdataset⟩ := @exists_dataset fp key programs hprograms numThreads order horder
      have hcreated : RandomXVm.CreatedFor (sourcePlatform fp programs) key
          (RandomXVm.newFullVersioned (sourcePlatform fp programs) key ds version none) := .full none ds hdataset
      have hkeyed := hcreated.keyedTo (by intro native hjit; cases hjit)
      refine ⟨ds, hds, hitems, ?_⟩
      rw [(RandomXVm.calculateHash_eq _ _ ctl input).1, hkeyed.hashOf_eq]
      exact hcall
    · refine hcomes.bind_ok ?_
      rw [hcall]
      exact .pure _
  · exact .inr ⟨site, hsite, hcomes.bind_error⟩

end

end FromKey
end RandomX
end MinerTim
