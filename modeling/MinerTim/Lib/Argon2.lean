import MinerTim.Lib.Blake2

/-!
# `Lib.Argon2` — Argon2d with one lane (RFC 9106, version 0x13)

The memory-hard function up to its matrix; the hash function it is built on is a parameter.

* The compression function `G` works on blocks of 128 words: the permutation `P` on each row of the 8×8 matrix of
  16-byte registers, then on each column, and a XOR with its input. A `Split` says which words make up a row or a
  column, and `Split.map` applies a function to every part.
* Blocks are numbered in the order in which they are computed: block `n` is the one in column `n % q` of pass
  `n / q`, where `q = 4 * s` is the length of the lane. A block computed in a pass after the first is XORed over
  the one it replaces, which is block `n - q`. So the matrix is a sequence (`block`), each element of which is
  made from earlier ones (`block_eq`): the preceding one, the one it replaces and the reference block.
* The reference block is picked from the window `W` by `J1`, the low half of the first word of the preceding
  block (`reference`). With one lane, `J2` picks no lane.
-/

namespace MinerTim
namespace Argon2

open Blake2 (Quad Work)

/-! ## Blocks and compression -/

/-- A block of 1024 bytes. -/
abbrev Block := Vector Word 128

/-- The XOR of two blocks. -/
def xorBlock (x y : Block) : Block := Vector.ofFn fun k : Fin 128 => x.get k ^^^ y.get k

/-- Which words of a block make up the eight parts that the permutation is applied to. -/
structure Split where
  word : Fin 8 → Fin 16 → Fin 128
  part : Fin 128 → Fin 8
  place : Fin 128 → Fin 16
  word_part : ∀ k, word (part k) (place k) = k
  part_word : ∀ i j, part (word i j) = i
  place_word : ∀ i j, place (word i j) = j

/-- The words of one part. -/
def gather (word : Fin 16 → Fin 128) (x : Block) : Work := Vector.ofFn fun j : Fin 16 => x[word j]

/-- Put the words of one part back, one after the other. -/
def scatter (word : Fin 16 → Fin 128) (v : Work) (x : Block) : Block :=
  (List.finRange 16).foldl (fun x j => x.set (word j) (v.get j)) x

/-- Apply a function to every part. -/
def Split.map (p : Split) (f : Work → Work) (x : Block) : Block :=
  Vector.ofFn fun k : Fin 128 => (f (gather (p.word (p.part k)) x))[p.place k]

/-- Row `i`: the registers `8 * i … 8 * i + 7`, each two words. -/
def rows : Split where
  word i j := ⟨j + 16 * i, by omega⟩
  part k := ⟨k / 16, by omega⟩
  place k := ⟨k % 16, by omega⟩
  word_part k := Fin.ext (Nat.mod_add_div k 16)
  part_word i j := Fin.ext (by simp only; omega)
  place_word i j := Fin.ext (by simp only; omega)

/-- Column `i`: the registers `i, i + 8, …, i + 56`. -/
def columns : Split where
  word i j := ⟨2 * (i + 8 * (j / 2)) + j % 2, by omega⟩
  part k := ⟨k % 16 / 2, by omega⟩
  place k := ⟨2 * (k / 16) + k % 2, by omega⟩
  word_part k := Fin.ext (by simp only; omega)
  part_word i j := Fin.ext (by simp only; omega)
  place_word i j := Fin.ext (by simp only; omega)

/-- The low half of a word. -/
def trunc (x : Word) : Word := (x.setWidth 32).setWidth 64

/-- The addition of BLAKE2b, made harder by a multiplication. -/
def multiplyAdd (x y : Word) : Word := x + y + 2 * trunc x * trunc y

/-- The permutation `P`: a BLAKE2b round without a message, with the harder addition. -/
def P (v : Work) : Work := Blake2.round (fun _ => Blake2.mixWith multiplyAdd multiplyAdd multiplyAdd) v

/-- **The compression function `G`.** -/
def G (x y : Block) : Block :=
  let r := xorBlock x y
  xorBlock (columns.map P (rows.map P r)) r

/-! ## The window of a block -/

/-- `W`: the blocks before the preceding one, in the current segment and in the three finished before it. -/
def window (s n : Nat) : List Nat := (List.range (n - 1)).filter fun m => n / s ≤ m / s + 3

/-- The number of the reference block. -/
def reference (s n : Nat) (j1 : Nat) : Nat :=
  let size := (window s n).length
  let x := j1 * j1 / 2 ^ 32
  let y := size * x / 2 ^ 32
  (window s n).getD (size - 1 - y) 0

/-- Where the window starts. -/
def windowStart (s n : Nat) : Nat := n - n % s - 3 * s

theorem windowStart_eq (s n : Nat) : windowStart s n = s * (n / s) - s * 3 := by
  have hdiv := Nat.div_add_mod n s
  unfold windowStart
  omega

theorem windowStart_le {s n : Nat} (hs : 0 < s) (hn : 2 ≤ n) : windowStart s n ≤ n - 2 := by
  unfold windowStart
  omega

/-- The window is a range. -/
theorem window_eq {s n : Nat} (hs : 0 < s) (hn : 2 ≤ n) :
    window s n = List.range' (windowStart s n) (n - 1 - windowStart s n) := by
  have hle := windowStart_le hs hn
  have hmem : ∀ m, n / s ≤ m / s + 3 ↔ windowStart s n ≤ m := by
    intro m
    rw [windowStart_eq, ← Nat.mul_sub, ← Nat.sub_le_iff_le_add, Nat.le_div_iff_mul_le hs, Nat.mul_comm]
  unfold window
  rw [List.range_eq_range', show n - 1 = windowStart s n + (n - 1 - windowStart s n) by omega,
    ← List.range'_append_1, List.filter_append, Nat.zero_add, Nat.add_sub_cancel_left]
  have hnone : (List.range' 0 (windowStart s n)).filter (fun m => decide (n / s ≤ m / s + 3)) = [] := by
    rw [List.filter_eq_nil_iff]
    intro m hm
    have hlt := List.mem_range'_1.mp hm
    simp only [hmem, decide_eq_true_eq]
    omega
  have hall : (List.range' (windowStart s n) (n - 1 - windowStart s n)).filter
      (fun m => decide (n / s ≤ m / s + 3)) = List.range' (windowStart s n) (n - 1 - windowStart s n) := by
    rw [List.filter_eq_self]
    intro m hm
    have hge := List.mem_range'_1.mp hm
    simp only [hmem, decide_eq_true_eq]
    omega
  rw [hnone, hall, List.nil_append]

/-- The scaled square is below the size of the window. -/
theorem scaled_lt {size j1 : Nat} (hsize : 0 < size) (hj : j1 < 2 ^ 32) :
    size * (j1 * j1 / 2 ^ 32) / 2 ^ 32 < size := by
  have hx : j1 * j1 / 2 ^ 32 < 2 ^ 32 := by
    rw [Nat.div_lt_iff_lt_mul (by decide)]
    exact Nat.mul_lt_mul'' hj hj
  rw [Nat.div_lt_iff_lt_mul (by decide)]
  exact Nat.mul_lt_mul_of_pos_left hx hsize

theorem reference_eq {s n : Nat} (hs : 0 < s) (hn : 2 ≤ n) (j1 : Nat) :
    reference s n j1 = windowStart s n + (n - 1 - windowStart s n - 1
      - (n - 1 - windowStart s n) * (j1 * j1 / 2 ^ 32) / 2 ^ 32) := by
  have hle := windowStart_le hs hn
  simp only [reference, window_eq hs hn, List.length_range', List.getD_eq_getElem?_getD]
  rw [List.getElem?_range' (by omega), Option.getD_some, Nat.one_mul]

/-- **The reference block is in the window**: it is an earlier block, and not the preceding one. -/
theorem reference_mem {s n : Nat} (hs : 0 < s) (hn : 2 ≤ n) (j1 : Nat) :
    windowStart s n ≤ reference s n j1 ∧ reference s n j1 < n - 1 := by
  have hle := windowStart_le hs hn
  rw [reference_eq hs hn]
  omega

/-! ## The sequence of blocks -/

section

variable (first : Nat → Block) (s : Nat)

/-- The low half of the first word. -/
def j1 (x : Block) : Nat := ((x.get 0).setWidth 32).toNat

/-- Block `n`, made from earlier ones. -/
def nextBlock (earlier : Nat → Block) (n : Nat) : Block :=
  if n < 2 then first n
  else
    let prev := earlier (n - 1)
    let new := G prev (earlier (reference s n (j1 prev)))
    if n < 4 * s then new else xorBlock new (earlier (n - 4 * s))

/-- The first `n` blocks, by number. -/
def history : Nat → Nat → Block
  | 0 => fun _ => Vector.replicate 128 0
  | n + 1 => Function.update (history n) n (nextBlock first s (history n) n)

/-- **Block `n`.** -/
def block (n : Nat) : Block := history first s (n + 1) n

end

section

variable {first : Nat → Block} {s : Nat}

theorem history_eq {m n : Nat} (h : m < n) : history first s n m = block first s m := by
  induction n with
  | zero => exact absurd h (Nat.not_lt_zero m)
  | succ n ih =>
    by_cases hm : m = n
    · rw [hm]
      rfl
    · rw [history, Function.update_of_ne hm, ih (by omega)]

/-- **A block is made from earlier blocks.** -/
theorem block_eq (hs : 0 < s) (n : Nat) : block first s n = nextBlock first s (block first s) n := by
  rw [block, history, Function.update_self]
  unfold nextBlock
  by_cases hn : n < 2
  · rw [if_pos hn, if_pos hn]
  · have href := reference_mem hs (show 2 ≤ n by omega) (j1 (block first s (n - 1)))
    rw [if_neg hn, if_neg hn, history_eq (show n - 1 < n by omega)]
    dsimp only
    rw [history_eq (show reference s n (j1 (block first s (n - 1))) < n by omega)]
    by_cases hq : n < 4 * s
    · rw [if_pos hq, if_pos hq]
    · rw [if_neg hq, if_neg hq, history_eq (show n - 4 * s < n by omega)]

end

/-! ## Parts, one after the other -/

section

variable {word : Fin 16 → Fin 128}

/-- A word that no part of the list covers, and a word that one of it does. -/
theorem getElem_foldl_set (hinj : Function.Injective word) (v : Work) (l : List (Fin 16)) (x : Block) :
    (∀ k : Fin 128, (∀ j ∈ l, word j ≠ k) → (l.foldl (fun x j => x.set (word j) (v.get j)) x)[k] = x[k]) ∧
      ∀ j ∈ l, (l.foldl (fun x j => x.set (word j) (v.get j)) x)[word j] = v.get j := by
  induction l generalizing x with
  | nil => exact ⟨fun _ _ => rfl, fun j hj => absurd hj List.not_mem_nil⟩
  | cons i l ih =>
    obtain ⟨hout, hin⟩ := ih (x.set (word i) (v.get i))
    have hset : ∀ k : Fin 128, (x.set (word i) (v.get i))[k] = if word i = k then v.get i else x[k] := by
      intro k
      simp only [Fin.getElem_fin, Vector.getElem_set, Fin.val_inj]
    refine ⟨?_, ?_⟩
    · intro k hk
      rw [List.foldl_cons, hout k fun j hj => hk j (List.mem_cons_of_mem i hj), hset,
        if_neg (hk i List.mem_cons_self)]
    · intro j hj
      rw [List.foldl_cons]
      by_cases hjl : j ∈ l
      · exact hin j hjl
      · obtain rfl : j = i := (List.mem_cons.mp hj).resolve_right hjl
        rw [hout (word j) fun i hi hij => hjl (hinj hij ▸ hi), hset, if_pos rfl]

theorem getElem_scatter (hinj : Function.Injective word) (v : Work) (x : Block) {j : Fin 16} {k : Fin 128}
    (hk : word j = k) : (scatter word v x)[k] = v[j] := by
  subst hk
  exact (getElem_foldl_set hinj v _ x).2 j (List.mem_finRange j)

theorem getElem_scatter_of_ne (hinj : Function.Injective word) (v : Work) (x : Block) {k : Fin 128}
    (hk : ∀ j, word j ≠ k) : (scatter word v x)[k] = x[k] :=
  (getElem_foldl_set hinj v _ x).1 k fun j _ => hk j

end

namespace Split

variable (p : Split)

theorem word_injective (i : Fin 8) : Function.Injective (p.word i) := by
  intro j j' h
  rw [← p.place_word i j, h, p.place_word]

theorem word_ne {i : Fin 8} {k : Fin 128} (h : p.part k ≠ i) (j : Fin 16) : p.word i j ≠ k := by
  rintro rfl
  exact h (p.part_word i j)

/-- One part at a time, over the parts of a list. -/
theorem getElem_foldl (f : Work → Work) {l : List (Fin 8)} (hl : l.Nodup) (x : Block) (k : Fin 128) :
    (l.foldl (fun x i => scatter (p.word i) (f (gather (p.word i) x)) x) x)[k]
      = if p.part k ∈ l then (f (gather (p.word (p.part k)) x))[p.place k] else x[k] := by
  induction l generalizing x with
  | nil => rfl
  | cons i l ih =>
    obtain ⟨hi, hl⟩ := List.nodup_cons.mp hl
    rw [List.foldl_cons, ih hl]
    by_cases hk : p.part k = i
    · subst hk
      rw [if_neg hi, if_pos List.mem_cons_self]
      exact getElem_scatter (p.word_injective (p.part k)) _ x (p.word_part k)
    · have hother : ∀ k', p.part k' ≠ i → (scatter (p.word i) (f (gather (p.word i) x)) x)[k'] = x[k'] :=
        fun k' hk' => getElem_scatter_of_ne (p.word_injective i) _ x (p.word_ne hk')
      have hgather : gather (p.word (p.part k)) (scatter (p.word i) (f (gather (p.word i) x)) x)
          = gather (p.word (p.part k)) x := by
        apply Vector.ext
        intro j hj
        simp only [gather, Vector.getElem_ofFn]
        refine hother _ ?_
        rw [p.part_word]
        exact hk
      rw [hgather, hother k hk]
      by_cases hmem : p.part k ∈ l
      · rw [if_pos hmem, if_pos (List.mem_cons_of_mem i hmem)]
      · rw [if_neg hmem, if_neg fun h => (List.mem_cons.mp h).elim hk hmem]

/-- **All parts, one after the other, in place.** -/
theorem foldl_eq_map (f : Work → Work) (x : Block) :
    (List.finRange 8).foldl (fun x i => scatter (p.word i) (f (gather (p.word i) x)) x) x = p.map f x := by
  apply Vector.ext
  intro k hk
  have hget := p.getElem_foldl f (List.nodup_finRange 8) x ⟨k, hk⟩
  rw [if_pos (List.mem_finRange _)] at hget
  rw [Split.map, Vector.getElem_ofFn]
  exact hget

end Split

/-! ## The matrix -/

/-- The four bytes of a length. -/
def le32 (n : Nat) : List Byte := (List.range 4).map (byteOf (BitVec.ofNat 32 n))

variable (H : Nat → List Byte → List Byte)

/-- `V_i` of the variable-length hash. -/
def hashChain (length : Nat) (a : List Byte) : Nat → List Byte
  | 0 => H 64 (le32 length ++ a)
  | i + 1 => H 64 (hashChain length a i)

/-- **The variable-length hash `H'`.** -/
def hashLong (length : Nat) (a : List Byte) : List Byte :=
  if length ≤ 64 then H length (le32 length ++ a)
  else
    let r := (length + 31) / 32 - 2
    ((List.range r).flatMap fun i => (hashChain H length a i).take 32)
      ++ H (length - 32 * r) (hashChain H length a (r - 1))

/-- The inputs of Argon2, apart from the number of lanes. -/
structure Params where
  tagLength : Nat
  /-- The memory size in KiB is `4 * s`. -/
  s : Nat
  passes : Nat
  password : List Byte
  salt : List Byte
  secret : List Byte
  data : List Byte

/-- `H_0`, for one lane, version 0x13 and type 0, which is Argon2d. -/
def initialHash (p : Params) : List Byte :=
  H 64 (le32 1 ++ le32 p.tagLength ++ le32 (4 * p.s) ++ le32 p.passes ++ le32 0x13 ++ le32 0
    ++ le32 p.password.length ++ p.password ++ le32 p.salt.length ++ p.salt
    ++ le32 p.secret.length ++ p.secret ++ le32 p.data.length ++ p.data)

/-- A block from 1024 bytes. -/
def blockOfBytes (bytes : List Byte) : Block :=
  Vector.ofFn fun i : Fin 128 => leWord fun k => bytes.getD (8 * i + k) 0

/-- The first two blocks of the lane. -/
def firstBlock (p : Params) (n : Nat) : Block :=
  blockOfBytes (hashLong H 1024 (initialHash H p ++ le32 n ++ le32 0))

/-- **The matrix after the last pass**: the blocks of that pass. -/
def matrix (p : Params) : List Block :=
  (List.range (4 * p.s)).map fun c => block (firstBlock H p) p.s ((p.passes - 1) * (4 * p.s) + c)

/-- The little-endian bytes of a block. -/
def bytesOfBlock (x : Block) : List Byte := (List.finRange 128).flatMap fun i => (List.range 8).map (byteOf (x.get i))

end Argon2
end MinerTim
