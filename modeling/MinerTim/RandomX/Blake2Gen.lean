import MinerTim.Lib.BlockReader
import MinerTim.RandomX.Blake2b
import MinerTim.RandomX.SuperscalarSpec

/-!
# `RandomX.Blake2Gen` — the random bytes of the program generator (`blake2gen.rs`)

`Blake2Generator` hands out the bytes of a 64-byte buffer, which it replaces by its own hash when a request does not
fit into the rest. Seen from outside it is a reader (`Lib.BlockReader`) of the chain of hashes that starts at the
seed: `run_eq` says so for any sequence of requests. It is the generator that the eight SuperscalarHash programs of
a key are drawn from (`superscalarPrograms`).

`none` is a panic; that the index stays inside the buffer is part of the type.
-/

namespace MinerTim
namespace RandomX

open Blake2b (blake2b512 blake2b512_eq digest)

/-- The generator: 64 bytes of data and the index of the next one. -/
structure Blake2Generator where
  data : Vector Byte 64
  dataIndex : Nat
  dataIndex_le : dataIndex ≤ 64

namespace Blake2Generator

/-- `new`: the seed, cut off after 60 bytes, and the nonce behind it. -/
def new (seed : List Byte) (nonce : BitVec 32) : Blake2Generator where
  data := Vector.ofFn fun i : Fin 64 =>
    if i.val < min seed.length 60 then seed.getD i 0 else if 60 ≤ i.val then byteOf nonce (i - 60) else 0
  dataIndex := 64
  dataIndex_le := le_rfl

/-- `check_data`. -/
def checkData (g : Blake2Generator) (bytesNeeded : Nat) : Option Blake2Generator :=
  if g.dataIndex + bytesNeeded > 64 then do
    return { data := ← blake2b512 g.data.toList, dataIndex := 0, dataIndex_le := Nat.zero_le 64 }
  else some g

/-- `get_byte`. -/
def getByte (g : Blake2Generator) : Option (Byte × Blake2Generator) := do
  let g ← g.checkData 1
  if h : g.dataIndex + 1 ≤ 64 then
    some (byteAt g.data g.dataIndex, { g with dataIndex := g.dataIndex + 1, dataIndex_le := h })
  else none

/-- `get_u32`. -/
def getU32 (g : Blake2Generator) : Option (BitVec 32 × Blake2Generator) := do
  let g ← g.checkData 4
  if h : g.dataIndex + 4 ≤ 64 then
    some (leWord32 fun k => byteAt g.data (g.dataIndex + k),
      { g with dataIndex := g.dataIndex + 4, dataIndex_le := h })
  else none

/-! ## The chain of hashes -/

/-- The BLAKE2b digest of a block. -/
def hashBlock (block : Vector Byte 64) : Vector Byte 64 :=
  Vector.ofFn fun i : Fin 64 => (Blake2.blake2b 64 [] block.toList).getD i 0

theorem digest_eq_hashBlock (block : Vector Byte 64) : digest 64 block.toList = hashBlock block := by
  have hlength : (Blake2.blake2b 64 [] block.toList).length = 64 := by simp [Blake2.blake2b]
  apply Vector.ext
  intro i hi
  simp [digest, hashBlock, hlength]

/-- Block `k` of the generator: the seed, hashed `k` times. -/
def block (seed : List Byte) (nonce : BitVec 32) (k : Nat) : Vector Byte 64 := hashBlock^[k] (new seed nonce).data

theorem block_succ (seed : List Byte) (nonce : BitVec 32) (k : Nat) :
    block seed nonce (k + 1) = hashBlock (block seed nonce k) := Function.iterate_succ_apply' hashBlock k _

/-- The generator is at a position of the chain. -/
structure At (seed : List Byte) (nonce : BitVec 32) (c : BlockReader.Cursor) (g : Blake2Generator) : Prop where
  data : g.data = block seed nonce c.block
  dataIndex : g.dataIndex = c.offset

section

variable {seed : List Byte} {nonce : BitVec 32} {c : BlockReader.Cursor} {g : Blake2Generator}

theorem at_new (seed : List Byte) (nonce : BitVec 32) : At seed nonce ⟨0, 64⟩ (new seed nonce) := ⟨rfl, rfl⟩

/-- **A request that does not fit goes to the next block.** -/
theorem exists_checkData (h : At seed nonce c g) (w : Nat) :
    ∃ g', g.checkData w = some g' ∧ At seed nonce (c.place 64 w) g' := by
  by_cases hfits : c.offset + w ≤ 64
  · refine ⟨g, if_neg ?_, ?_⟩
    · rw [h.dataIndex]
      exact Nat.not_lt.mpr hfits
    · rwa [BlockReader.Cursor.place, if_pos hfits]
  · refine ⟨⟨hashBlock g.data, 0, Nat.zero_le 64⟩, ?_, ?_⟩
    · rw [checkData, if_pos (by rw [h.dataIndex]; omega), blake2b512_eq, digest_eq_hashBlock]
      rfl
    · rw [BlockReader.Cursor.place, if_neg hfits]
      refine ⟨?_, rfl⟩
      show hashBlock g.data = _
      rw [block_succ, h.data]

/-! ## Requests -/

/-- The two ways to draw from the generator. -/
inductive Request where
  | byte
  | u32
deriving DecidableEq, Repr

/-- Bytes that a request takes. -/
def Request.width : Request → Nat
  | .byte => 1
  | .u32 => 4

/-- The number that a request makes of the bytes from its position on. -/
def Request.value : Request → (Nat → Byte) → BitVec 32
  | .byte, b => (b 0).setWidth 32
  | .u32, b => leWord32 b

/-- The method of a request. -/
def Request.run (g : Blake2Generator) : Request → Option (BitVec 32 × Blake2Generator)
  | .byte => g.getByte.map fun (b, g) => (b.setWidth 32, g)
  | .u32 => g.getU32

/-- Requests in a row: the numbers drawn, and the generator after them. -/
def run : List Request → Blake2Generator → Option (List (BitVec 32) × Blake2Generator)
  | [], g => some ([], g)
  | req :: reqs, g => do
    let (v, g) ← req.run g
    let (vs, g) ← run reqs g
    return (v :: vs, g)

/-- What a request draws at a position of the chain. -/
def drawnAt (seed : List Byte) (nonce : BitVec 32) (req : Request) (c : BlockReader.Cursor) : BitVec 32 :=
  req.value fun k => byteAt (block seed nonce c.block) (c.offset + k)

theorem getByte_eq {g₁ : Blake2Generator} (hcheck : g.checkData 1 = some g₁) (hfits : g₁.dataIndex + 1 ≤ 64) :
    g.getByte = some (byteAt g₁.data g₁.dataIndex, ⟨g₁.data, g₁.dataIndex + 1, hfits⟩) := by
  rw [getByte, hcheck]
  exact dif_pos hfits

theorem getU32_eq {g₁ : Blake2Generator} (hcheck : g.checkData 4 = some g₁) (hfits : g₁.dataIndex + 4 ≤ 64) :
    g.getU32 = some (leWord32 fun k => byteAt g₁.data (g₁.dataIndex + k), ⟨g₁.data, g₁.dataIndex + 4, hfits⟩) := by
  rw [getU32, hcheck]
  exact dif_pos hfits

/-- **One request.** -/
theorem exists_request (h : At seed nonce c g) (req : Request) :
    ∃ g', req.run g = some (drawnAt seed nonce req (c.place 64 req.width), g') ∧
      At seed nonce (c.advance 64 req.width) g' := by
  obtain ⟨g₁, hcheck, h₁⟩ := exists_checkData h req.width
  have hfits : g₁.dataIndex + req.width ≤ 64 := by
    rw [h₁.dataIndex]
    exact BlockReader.Cursor.place_fits (by cases req <;> decide) c
  refine ⟨⟨g₁.data, g₁.dataIndex + req.width, hfits⟩, ?_, h₁.data, ?_⟩
  · cases req with
    | byte =>
      rw [Request.run, getByte_eq hcheck hfits, drawnAt, ← h₁.data, ← h₁.dataIndex]
      rfl
    | u32 =>
      rw [Request.run, getU32_eq hcheck hfits, drawnAt, ← h₁.data, ← h₁.dataIndex]
      rfl
  · exact congrArg (· + req.width) h₁.dataIndex

/-- **Any requests** draw from the chain what a reader of its blocks does. -/
theorem run_eq (h : At seed nonce c g) (reqs : List Request) :
    ∃ g', run reqs g = some (List.zipWith (fun req read => drawnAt seed nonce req read.at_) reqs
        (BlockReader.places 64 (reqs.map Request.width) c), g') ∧
      At seed nonce (BlockReader.cursorAfter 64 (reqs.map Request.width) c) g' := by
  induction reqs generalizing c g with
  | nil => exact ⟨g, rfl, h⟩
  | cons req reqs ih =>
    obtain ⟨g₁, hreq, h₁⟩ := exists_request h req
    obtain ⟨g', hrun, h'⟩ := ih h₁
    refine ⟨g', ?_, h'⟩
    rw [run, hreq]
    simp only [Option.bind_eq_bind, Option.bind_some, hrun]
    rfl

end

/-- **`Blake2Generator` is a reader of the chain of hashes of its seed.** For every seed, every nonce and every
    sequence of requests: nothing panics; each request draws the bytes at its place, which lies inside one block and
    never in the seed itself; and the places are in order, so that no byte is drawn twice. -/
theorem generator_reads_hash_chain (seed : List Byte) (nonce : BitVec 32) (reqs : List Request) :
    let reads := BlockReader.places 64 (reqs.map Request.width) ⟨0, 64⟩
    (∃ g, run reqs (new seed nonce)
        = some (List.zipWith (fun req read => drawnAt seed nonce req read.at_) reqs reads, g)) ∧
      (∀ read ∈ reads, 1 ≤ read.at_.block ∧ read.at_.offset + read.width ≤ 64) ∧
      reads.Pairwise fun read read' => BlockReader.Cursor.Reached read.after read'.at_ := by
  intro reads
  have hwidth : ∀ w ∈ reqs.map Request.width, 1 ≤ w ∧ w ≤ 64 := by
    intro w hw
    obtain ⟨req, _, rfl⟩ := List.mem_map.mp hw
    cases req <;> decide
  obtain ⟨g, hrun, _⟩ := run_eq (at_new seed nonce) reqs
  refine ⟨⟨g, hrun⟩, fun read hread => ?_, BlockReader.places_ordered _ _⟩
  have hfits := BlockReader.places_fit (fun w hw => (hwidth w hw).2) ⟨0, 64⟩ read hread
  have hreached := BlockReader.places_reached _ _ read hread
  have hpos := (hwidth read.width (BlockReader.width_mem_of_mem_places hread)).1
  refine ⟨?_, hfits⟩
  -- a read in the seed would start at its end and not fit
  rcases hreached with hblock | ⟨_, hoffset⟩
  · exact hblock
  · have hend : 64 ≤ read.at_.offset := hoffset
    omega

/-- Only the first 60 bytes of the seed count. -/
theorem new_take (seed : List Byte) (nonce : BitVec 32) : new (seed.take 60) nonce = new seed nonce := by
  have hdata : (new (seed.take 60) nonce).data = (new seed nonce).data := by
    apply Vector.ext
    intro i hi
    simp only [new, Vector.getElem_ofFn, List.length_take, Nat.min_comm 60, Nat.min_assoc, Nat.min_self,
      List.getD_eq_getElem?_getD]
    split
    · rw [List.getElem?_take_of_lt (by omega)]
    · rfl
  simp only [new] at hdata ⊢
  simp only [hdata]

/-! ## The programs of a key -/

theorem exists_at (g : Blake2Generator) : At (g.data.toList.take 60) (leWord32 fun k => byteAt g.data (60 + k))
    ⟨0, g.dataIndex⟩ g := by
  refine ⟨?_, rfl⟩
  -- a buffer is the seed block of its own first 60 bytes and its own nonce
  apply eq_of_byteAt
  intro i hi
  rw [block, Function.iterate_zero_apply, new, byteAt_eq_getElem _ hi, byteAt_eq_getElem _ hi, Vector.getElem_ofFn]
  by_cases hseed : i < 60
  · simp [hseed]
  · have hlimit : ¬ i < min (g.data.toList.take 60).length 60 := by omega
    rw [if_neg hlimit, if_pos (show 60 ≤ i by omega), leWord32, byteOf_leBits _ (by omega),
      show 60 + (i - 60) = i by omega, byteAt_eq_getElem _ hi]

theorem isSome_getByte (g : Blake2Generator) : g.getByte.isSome := by
  obtain ⟨g', hrun, _⟩ := exists_request (exists_at g) .byte
  rw [Request.run] at hrun
  obtain ⟨res, hres, _⟩ := Option.map_eq_some_iff.mp hrun
  rw [hres]
  rfl

theorem isSome_getU32 (g : Blake2Generator) : g.getU32.isSome := by
  obtain ⟨g', hrun, _⟩ := exists_request (exists_at g) .u32
  exact Option.isSome_iff_exists.mpr ⟨_, hrun⟩

/-- The generator that `generate_superscalar` is called with. -/
def byteGenerator : Superscalar.ByteGenerator Blake2Generator where
  getByte g := g.getByte.get g.isSome_getByte
  getU32 g := g.getU32.get g.isSome_getU32

end Blake2Generator

namespace Superscalar

section

variable {G : Type} (gen : ByteGenerator G)

/-- `std::array::from_fn(|_| generate_superscalar(&mut generator))`. -/
def generateAll : (n : Nat) → G → Fuelled (Site G) (Vector SuperscalarProgram n × G)
  | 0, g => return (#v[], g)
  | n + 1, g => do
    let (programs, g) ← generateAll n g
    let (prog, g) ← generateSuperscalar gen g
    return (programs.push prog, g)

variable {gen}

theorem generateSuperscalar_spec (g : G) : Fuelled.Ends (Endless gen)
    (fun res : SuperscalarProgram × G => ProgramWellFormed res.1) (generateSuperscalar gen g) := by
  refine (schedule_spec g).bind ?_
  rintro st ⟨m, _, hsound⟩
  obtain ⟨latencies, hlatencies⟩ := exists_asicLatencies hsound.output
  refine Fuelled.Ends.bind (P := fun latencies' => latencies' = latencies)
    (Fuelled.Ends.ofOption ⟨latencies, hlatencies, rfl⟩) ?_
  rintro _ rfl
  exact .pure ⟨hsound.size.le.trans hsound.bound, hsound.output, Fin.isLt _⟩

theorem generateAll_spec (n : Nat) (g : G) : Fuelled.Ends (Endless gen)
    (fun res : Vector SuperscalarProgram n × G => ∀ prog ∈ res.1.toList, ProgramWellFormed prog)
    (generateAll gen n g) := by
  induction n with
  | zero => exact .pure (by simp)
  | succ n ih =>
    refine ih.bind ?_
    rintro ⟨programs, g₁⟩ hprograms
    refine (generateSuperscalar_spec g₁).bind ?_
    rintro ⟨prog, g₂⟩ hprog
    refine .pure fun q hq => ?_
    rw [Vector.toList_push, List.mem_append, List.mem_singleton] at hq
    rcases hq with hq | rfl
    · exact hprograms q hq
    · exact hprog

end

/-- The eight programs of a key, as the constructors of the VM and of the dataset make them. -/
def superscalarPrograms (key : List Byte) : Fuelled (Site Blake2Generator) (Vector SuperscalarProgram 8) := do
  let (programs, _) ← generateAll Blake2Generator.byteGenerator 8 (.new key 0)
  return programs

theorem superscalarPrograms_spec (key : List Byte) :
    Fuelled.Ends (Endless Blake2Generator.byteGenerator)
      (fun programs => ∀ prog ∈ programs.toList, ProgramWellFormed prog) (superscalarPrograms key) := by
  refine (generateAll_spec 8 _).bind ?_
  rintro ⟨programs, g⟩ hprograms
  exact .pure hprograms

/-- **The programs of a key.** Generating them never panics, and either comes to eight programs with which every
    dataset item is computed from any full cache, or to a rejection loop that the hash chain of the key never leaves.
    Bytes of the key behind the first 60 make no difference. -/
theorem superscalar_programs_of_key (key : List Byte) :
    Fuelled.Ends (Endless Blake2Generator.byteGenerator)
        (fun programs => (∀ prog ∈ programs.toList, ProgramWellFormed prog) ∧
          ∀ cacheMemory itemNumber, CACHE_SIZE ≤ cacheMemory.length →
            ∃ line, initDatasetItem cacheMemory programs itemNumber = some line)
        (superscalarPrograms key) ∧
      superscalarPrograms key = superscalarPrograms (key.take 60) := by
  constructor
  · refine (superscalarPrograms_spec key).mono fun programs hprograms => ?_
    refine ⟨hprograms, fun cacheMemory itemNumber hcache => ?_⟩
    exact exists_initDatasetItem hcache (fun prog hprog => (hprograms prog hprog).runs) itemNumber
  · rw [superscalarPrograms, superscalarPrograms, Blake2Generator.new_take]

end Superscalar
end RandomX
end MinerTim
