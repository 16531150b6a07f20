import MinerTim.Lib.Interleaving
import MinerTim.RandomX.Types

/-!
# `RandomX.Dataset` — dataset items, and the precomputed dataset (`dataset.rs`)

`initDatasetItem` computes one 64-byte item from the cache by running the eight SuperscalarHash programs
of the key; `RandomXDataset.generate` computes all of them, chunk by chunk, on several threads.

Indexing is checked in this part of the source: `none` is a panic.

A thread is the list of the slots of its chunk, each with the item number it computes for it. A run of
`generate` is an interleaving of these lists (`Lib.Interleaving`).
-/

namespace MinerTim
namespace RandomX

/-! ## SuperscalarHash programs -/

/-- An instruction of a program: the operation as a byte, and register numbers. -/
structure SuperscalarInstruction where
  opcode : Byte
  dst : Byte
  src : Byte
  mod_ : Byte
  imm32 : BitVec 32
deriving DecidableEq, Repr

/-- A program, and the register that picks the next cache line. -/
structure SuperscalarProgram where
  instructions : List SuperscalarInstruction
  addressRegister : Nat
deriving DecidableEq, Repr

/-- One dataset item, and the register file of a SuperscalarHash program. -/
abbrev Line := Vector Word 8

/-- `r[i] = v`. -/
def Line.put (r : Line) (i : Nat) (v : Word) : Option Line :=
  if h : i < 8 then some (r.set i v h) else none

/-- `r[dst] = f(r[dst])`. -/
def Line.modify (r : Line) (dst : Nat) (f : Word → Word) : Option Line := do
  r.put dst (f (← r[dst]?))

/-- The `match` of `execute_superscalar`. -/
def executeSuperscalarInstruction (r : Line) (inst : SuperscalarInstruction) : Option Line :=
  let dst := inst.dst.toNat
  let src := inst.src.toNat
  let imm := inst.imm32.signExtend 64
  match inst.opcode.toNat with
  | 0 => do let s ← r[src]?; r.modify dst (· - s)
  | 1 => do let s ← r[src]?; r.modify dst (· ^^^ s)
  | 2 => do let s ← r[src]?; r.modify dst (· + s <<< ((inst.mod_ >>> 2).toNat % 4))
  | 3 => do let s ← r[src]?; r.modify dst (· * s)
  | 4 => r.modify dst (·.rotateRight inst.imm32.toNat)
  | 5 | 7 | 9 => r.modify dst (· + imm)
  | 6 | 8 | 10 => r.modify dst (· ^^^ imm)
  | 11 => do let s ← r[src]?; r.modify dst (mulh · s)
  | 12 => do let s ← r[src]?; r.modify dst (smulh · s)
  -- `randomx_reciprocal` asserts that the divisor is not zero
  | 13 => if inst.imm32 = 0 then none else r.modify dst (· * randomxReciprocal inst.imm32)
  | _ => some r

/-- `execute_superscalar`. -/
def executeSuperscalar (r : Line) (prog : SuperscalarProgram) : Option Line :=
  prog.instructions.foldlM executeSuperscalarInstruction r

/-! ## One item -/

/-- Bytes of the cache. -/
def CACHE_SIZE : Nat := 262144 * 1024

/-- The lines of the cache. -/
def CACHE_LINE_MASK : Word := BitVec.ofNat 64 (CACHE_SIZE / CACHE_LINE_SIZE - 1)

/-- What the item number is multiplied by. -/
def SUPERSCALAR_MUL0 : Word := 6364136223846793005

/-- What the other registers start from. -/
def SUPERSCALAR_ADD : Vector Word 7 :=
  #v[9298411001130361340, 12065312585734608966, 9306329213124626780, 5281919268842080866,
    10536153434571861004, 3398623926847679864, 9549104520008361294]

/-- `load64_native`: an eight-byte read, which panics past the end. -/
def load64Native (memory : List Byte) (offset : Nat) : Option Word :=
  if offset + 8 ≤ memory.length then some (leWord fun k => memory.getD (offset + k) 0) else none

/-- `get_mix_block_offset`: the offset of the cache line that a register picks. -/
def getMixBlockOffset (registerValue : Word) : Nat :=
  (registerValue &&& CACHE_LINE_MASK).toNat * CACHE_LINE_SIZE

/-- `for q in 0..8 { rl[q] ^= load64_native(cache_memory, mix_offset + 8 * q) }`. -/
def mixCacheLine (cacheMemory : List Byte) (mixOffset : Nat) (rl : Line) : Option Line :=
  (List.range 8).foldlM (fun rl q => do
    let v ← load64Native cacheMemory (mixOffset + 8 * q)
    Line.modify rl q (· ^^^ v)) rl

/-- One cache access: run a program, mix a cache line in, and pick the next line. -/
def cacheAccess (cacheMemory : List Byte) (c : Line × Word) (prog : SuperscalarProgram) :
    Option (Line × Word) := do
  let mixOffset := getMixBlockOffset c.2
  let rl ← executeSuperscalar c.1 prog
  let rl ← mixCacheLine cacheMemory mixOffset rl
  return (rl, ← rl[prog.addressRegister]?)

/-- The registers before the first cache access. -/
def initialLine (itemNumber : Word) : Line :=
  let rl0 := (itemNumber + 1) * SUPERSCALAR_MUL0
  Vector.ofFn fun i => if i.val = 0 then rl0 else rl0 ^^^ SUPERSCALAR_ADD.toList.getD (i - 1) 0

/-- `init_dataset_item`. -/
def initDatasetItem (cacheMemory : List Byte) (programs : Vector SuperscalarProgram 8)
    (itemNumber : Word) : Option Line := do
  let (rl, _) ← programs.toList.foldlM (cacheAccess cacheMemory) (initialLine itemNumber, itemNumber)
  return rl

/-! ## The dataset -/

/-- Bytes of the base of the dataset. -/
def DATASET_BASE_SIZE : Nat := 2147483648

/-- Bytes beyond it. -/
def DATASET_EXTRA_SIZE : Nat := 33554432

/-- Bytes of the dataset. -/
def DATASET_TOTAL_SIZE : Nat := DATASET_BASE_SIZE + DATASET_EXTRA_SIZE

/-- Items of the dataset. -/
def DATASET_ITEM_COUNT : Nat := DATASET_TOTAL_SIZE / CACHE_LINE_SIZE

/-- The precomputed dataset. -/
structure RandomXDataset where
  items : Array Line
  size_eq : items.size = DATASET_ITEM_COUNT

namespace RandomXDataset

/-- `get_item`: the item, which panics past the end. -/
def getItem (ds : RandomXDataset) (itemNumber : Word) : Option Line := ds.items[itemNumber.toNat]?

/-- The chunks of `generate`: the slots of each thread, with the item numbers it computes for them.
    Thread `t` has the slots of the `t`-th chunk of `chunk_size`; its item numbers start at
    `t * chunk_size`. -/
def chunks (count numThreads : Nat) : List (List (Nat × Word)) :=
  let numThreads := max numThreads 1
  let chunkSize := (count + numThreads - 1) / numThreads
  (List.range ((count + chunkSize - 1) / chunkSize)).map fun threadIdx =>
    let startItem := threadIdx * chunkSize
    (List.range (min chunkSize (count - startItem))).map fun i =>
      (startItem + i, BitVec.ofNat 64 (startItem + i))

/-- `*slot = init_dataset_item(cache_memory, programs, item)`, in the order of the schedule. -/
def runWrites (cacheMemory : List Byte) (programs : Vector SuperscalarProgram 8)
    (items : Array Line) (order : List (Nat × Word)) : Option (Array Line) :=
  order.foldlM (fun items w => do
    let line ← initDatasetItem cacheMemory programs w.2
    return items.setIfInBounds w.1 line) items

/-- `generate`, when the scheduler runs the slots in this order. It panics on an empty cache, and when
    a thread does. -/
def generateInOrder (cacheMemory : List Byte) (programs : Vector SuperscalarProgram 8)
    (order : List (Nat × Word)) : Option (Array Line) :=
  if cacheMemory = [] then none
  else runWrites cacheMemory programs (Array.replicate DATASET_ITEM_COUNT (Vector.replicate 8 0)) order

/-- A schedule of the threads of `generate`. -/
def IsSchedule (numThreads : Nat) (order : List (Nat × Word)) : Prop :=
  Interleaves (chunks DATASET_ITEM_COUNT numThreads) order

/-- `generate` returns this dataset, under some schedule. -/
def Generates (cacheMemory : List Byte) (programs : Vector SuperscalarProgram 8) (numThreads : Nat)
    (ds : RandomXDataset) : Prop :=
  ∃ order, IsSchedule numThreads order ∧
    generateInOrder cacheMemory programs order = some ds.items

end RandomXDataset

/-! ## No panic

Indexing is in range for the programs of the generator and a cache of full size. -/

/-- Register indices in range, no division by zero, an address register. -/
structure SuperscalarProgram.WellFormed (prog : SuperscalarProgram) : Prop where
  dst : ∀ inst ∈ prog.instructions, inst.dst.toNat < 8
  src : ∀ inst ∈ prog.instructions, inst.src.toNat < 8
  divisor : ∀ inst ∈ prog.instructions, inst.opcode.toNat = 13 → inst.imm32 ≠ 0
  address : prog.addressRegister < 8

/-- A fold of steps that all succeed succeeds. -/
theorem exists_foldlM_eq_some {α β : Type} {f : β → α → Option β} {l : List α}
    (h : ∀ a ∈ l, ∀ b, ∃ b', f b a = some b') (b : β) : ∃ b', l.foldlM f b = some b' := by
  induction l generalizing b with
  | nil => exact ⟨b, rfl⟩
  | cons a l ih =>
    obtain ⟨b', hb'⟩ := h a (by simp) b
    rw [List.foldlM_cons, hb']
    exact ih (fun a ha => h a (by simp [ha])) b'

theorem exists_modify (r : Line) {dst : Nat} (h : dst < 8) (f : Word → Word) :
    ∃ r', r.modify dst f = some r' := by
  refine ⟨r.set dst (f r[dst]) h, ?_⟩
  simp [Line.modify, Line.put, h]

theorem exists_executeSuperscalarInstruction (r : Line) {inst : SuperscalarInstruction}
    (hdst : inst.dst.toNat < 8) (hsrc : inst.src.toNat < 8)
    (hdiv : inst.opcode.toNat = 13 → inst.imm32 ≠ 0) :
    ∃ r', executeSuperscalarInstruction r inst = some r' := by
  have hs : r[inst.src.toNat]? = some r[inst.src.toNat] := Vector.getElem?_eq_getElem hsrc
  unfold executeSuperscalarInstruction
  simp only []
  split <;> try simp only [hs, Option.bind_eq_bind, Option.bind_some]
  case h_14 h => rw [if_neg (hdiv h)]; exact exists_modify r hdst _
  case h_15 => exact ⟨r, rfl⟩
  all_goals exact exists_modify r hdst _

theorem exists_executeSuperscalar (r : Line) {prog : SuperscalarProgram} (h : prog.WellFormed) :
    ∃ r', executeSuperscalar r prog = some r' :=
  exists_foldlM_eq_some (fun inst hi r =>
    exists_executeSuperscalarInstruction r (h.dst inst hi) (h.src inst hi) (h.divisor inst hi)) r

/-- A cache line stays inside a full cache. -/
theorem getMixBlockOffset_le (v : Word) : getMixBlockOffset v + 64 ≤ CACHE_SIZE := by
  have hmask : CACHE_LINE_MASK.toNat = 4194303 := by decide
  have hle : (v &&& CACHE_LINE_MASK).toNat ≤ 4194303 := by
    rw [BitVec.toNat_and, ← hmask]
    exact Nat.and_le_right
  have hsize : CACHE_SIZE = 268435456 := rfl
  have hline : CACHE_LINE_SIZE = 64 := rfl
  rw [getMixBlockOffset, hline]
  omega

/-- **`init_dataset_item` does not panic** on a full cache and well-formed programs. -/
theorem exists_initDatasetItem {cacheMemory : List Byte} {programs : Vector SuperscalarProgram 8}
    (hcache : CACHE_SIZE ≤ cacheMemory.length) (hprograms : ∀ p ∈ programs.toList, p.WellFormed)
    (itemNumber : Word) : ∃ line, initDatasetItem cacheMemory programs itemNumber = some line := by
  have haccess : ∀ p ∈ programs.toList, ∀ c, ∃ c', cacheAccess cacheMemory c p = some c' := by
    intro p hp c
    obtain ⟨rl, hrl⟩ := exists_executeSuperscalar c.1 (hprograms p hp)
    have hmix : ∃ rl', mixCacheLine cacheMemory (getMixBlockOffset c.2) rl = some rl' := by
      refine exists_foldlM_eq_some (fun q hq rl => ?_) rl
      have hq8 : q < 8 := List.mem_range.mp hq
      have hoff := getMixBlockOffset_le c.2
      obtain ⟨rl', h⟩ := exists_modify rl hq8
        (· ^^^ leWord fun k => cacheMemory.getD (getMixBlockOffset c.2 + 8 * q + k) 0)
      refine ⟨rl', ?_⟩
      rw [load64Native, if_pos (by omega)]
      exact h
    obtain ⟨rl', hrl'⟩ := hmix
    have haddr := (hprograms p hp).address
    refine ⟨(rl', rl'[p.addressRegister]), ?_⟩
    simp [cacheAccess, hrl, hrl', haddr]
  obtain ⟨c, hc⟩ := exists_foldlM_eq_some haccess (initialLine itemNumber, itemNumber)
  exact ⟨c.1, by rw [initDatasetItem, hc]; rfl⟩

/-! ## Generation -/

namespace RandomXDataset

/-- The chunks of a run cover the slots in order: `m` chunks of `c` slots are the first `m * c`. -/
theorem flatMap_chunks (n c m : Nat) :
    (List.range m).flatMap (fun t => (List.range (min c (n - t * c))).map (t * c + ·))
      = List.range (min n (m * c)) := by
  induction m with
  | zero => simp
  | succ m ih =>
    rw [List.range_succ, List.flatMap_append, ih, List.flatMap_singleton]
    have hmul : (m + 1) * c = m * c + c := Nat.succ_mul m c
    rcases Nat.lt_or_ge (m * c) n with h | h
    · rw [Nat.min_eq_right h.le, ← List.range_add]
      congr 1
      omega
    · rw [show min c (n - m * c) = 0 by omega, List.range_zero, List.map_nil, List.append_nil]
      congr 1
      omega

/-- **Every slot is in exactly one chunk, with its own item number**, whatever the thread count. -/
theorem flatten_chunks (count numThreads : Nat) :
    (chunks count numThreads).flatten
      = (List.range count).map fun k => (k, BitVec.ofNat 64 k) := by
  unfold chunks
  simp only []
  generalize hT : max numThreads 1 = T
  generalize hc : (count + T - 1) / T = c
  have hT1 : 1 ≤ T := by omega
  have hcover : count ≤ (count + c - 1) / c * c := by
    rcases Nat.eq_zero_or_pos count with h0 | hpos
    · omega
    · have hc1 : 1 ≤ c := by
        rw [← hc]
        exact (Nat.one_le_div_iff hT1).mpr (by omega)
      have hdiv := Nat.div_add_mod (count + c - 1) c
      have hmod := Nat.mod_lt (count + c - 1) (show 0 < c by omega)
      rw [Nat.mul_comm]
      omega
  have hpair : ∀ t, (List.range (min c (count - t * c))).map
        (fun i => (t * c + i, BitVec.ofNat 64 (t * c + i)))
      = ((List.range (min c (count - t * c))).map (t * c + ·)).map
        (fun k => (k, BitVec.ofNat 64 k)) := fun t => by
    rw [List.map_map]
    rfl
  simp only [hpair, ← List.flatMap_def]
  rw [← List.map_flatMap, flatMap_chunks, Nat.min_eq_left hcover]

/-- A schedule writes each slot exactly once, with its own item number. -/
theorem IsSchedule.perm {numThreads : Nat} {order : List (Nat × Word)}
    (h : IsSchedule numThreads order) :
    order.Perm ((List.range DATASET_ITEM_COUNT).map fun k => (k, BitVec.ofNat 64 k)) := by
  rw [← flatten_chunks DATASET_ITEM_COUNT numThreads]
  exact Interleaves.perm h

/-- A run that does not panic computes every item and performs the writes. -/
theorem runWrites_eq_some {cacheMemory : List Byte} {programs : Vector SuperscalarProgram 8}
    {items items' : Array Line} {order : List (Nat × Word)}
    (h : runWrites cacheMemory programs items order = some items') :
    (∀ w ∈ order, initDatasetItem cacheMemory programs w.2 ≠ none) ∧
      items' = applyWrites items (order.map fun w =>
        (w.1, (initDatasetItem cacheMemory programs w.2).getD (Vector.replicate 8 0))) := by
  induction order generalizing items with
  | nil => exact ⟨by simp, (Option.some.inj h).symm⟩
  | cons w order ih =>
    rw [runWrites, List.foldlM_cons] at h
    cases hline : initDatasetItem cacheMemory programs w.2 with
    | none => simp [hline] at h
    | some line =>
      simp only [hline, Option.bind_eq_bind, Option.bind_some, Option.pure_def] at h
      obtain ⟨hsome, heq⟩ := ih h
      refine ⟨fun w' hw' => ?_, ?_⟩
      · rcases List.mem_cons.mp hw' with rfl | hw'
        · simp [hline]
        · exact hsome w' hw'
      · rw [heq, List.map_cons, hline]
        rfl

/-- **Each slot of a generated dataset holds its item.** -/
theorem Generates.getElem {cacheMemory : List Byte} {programs : Vector SuperscalarProgram 8}
    {numThreads : Nat} {ds : RandomXDataset} (h : Generates cacheMemory programs numThreads ds)
    {k : Nat} (hk : k < DATASET_ITEM_COUNT) :
    ds.items[k]? = initDatasetItem cacheMemory programs (BitVec.ofNat 64 k) := by
  obtain ⟨order, hsched, hgen⟩ := h
  unfold generateInOrder at hgen
  split at hgen
  · cases hgen
  · obtain ⟨hsome, heq⟩ := runWrites_eq_some hgen
    have hperm := hsched.perm
    have hmem : (k, BitVec.ofNat 64 k) ∈ order :=
      hperm.mem_iff.mpr (List.mem_map.mpr ⟨k, List.mem_range.mpr hk, rfl⟩)
    obtain ⟨line, hline⟩ := Option.ne_none_iff_exists'.mp (hsome _ hmem)
    rw [heq, hline]
    refine applyWrites_getElem? _ ?_ (List.mem_map.mpr ⟨_, hmem, by rw [hline]; rfl⟩)
      (by rwa [Array.size_replicate])
    rw [List.map_map]
    refine ((hperm.map Prod.fst).nodup_iff.mpr ?_)
    rw [List.map_map]
    exact (List.map_id _).symm ▸ List.nodup_range

/-- On a full cache and well-formed programs every schedule produces a dataset. -/
theorem exists_generates {cacheMemory : List Byte} {programs : Vector SuperscalarProgram 8}
    (hcache : CACHE_SIZE ≤ cacheMemory.length) (hprograms : ∀ p ∈ programs.toList, p.WellFormed)
    (numThreads : Nat) : ∃ ds, Generates cacheMemory programs numThreads ds := by
  have hrun : ∀ (order : List (Nat × Word)) (items : Array Line),
      ∃ items', runWrites cacheMemory programs items order = some items' := by
    intro order items
    refine exists_foldlM_eq_some (fun w _ items => ?_) items
    obtain ⟨line, hline⟩ := exists_initDatasetItem hcache hprograms w.2
    exact ⟨items.setIfInBounds w.1 line, by rw [hline]; rfl⟩
  have hne : cacheMemory ≠ [] := by
    rintro rfl
    exact absurd hcache (by decide)
  obtain ⟨items, hitems⟩ := hrun (chunks DATASET_ITEM_COUNT numThreads).flatten
    (Array.replicate DATASET_ITEM_COUNT (Vector.replicate 8 0))
  refine ⟨⟨items, ?_⟩, _, interleaves_flatten _, ?_⟩
  · rw [(runWrites_eq_some hitems).2, size_applyWrites, Array.size_replicate]
  · rw [generateInOrder, if_neg hne]
    exact hitems

/-- No schedule panics on them. -/
theorem exists_generateInOrder {cacheMemory : List Byte} {programs : Vector SuperscalarProgram 8}
    (hcache : CACHE_SIZE ≤ cacheMemory.length) (hprograms : ∀ p ∈ programs.toList, p.WellFormed)
    (order : List (Nat × Word)) :
    ∃ ds : RandomXDataset, generateInOrder cacheMemory programs order = some ds.items := by
  have hne : cacheMemory ≠ [] := by
    intro hempty
    rw [hempty] at hcache
    exact absurd hcache (by decide)
  obtain ⟨items, hitems⟩ : ∃ items, runWrites cacheMemory programs
      (Array.replicate DATASET_ITEM_COUNT (Vector.replicate 8 0)) order = some items := by
    refine exists_foldlM_eq_some (fun w _ items => ?_) _
    obtain ⟨line, hline⟩ := exists_initDatasetItem hcache hprograms w.2
    exact ⟨items.setIfInBounds w.1 line, by rw [hline]; rfl⟩
  refine ⟨⟨items, ?_⟩, ?_⟩
  · rw [(runWrites_eq_some hitems).2, size_applyWrites, Array.size_replicate]
  · rw [generateInOrder, if_neg hne, hitems]

end RandomXDataset

end RandomX
end MinerTim
