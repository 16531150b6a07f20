import MinerTim.Lib.LittleEndian

/-!
# `Lib.Blake2` — the BLAKE2 round, and the hash function BLAKE2b of RFC 7693

A round works on sixteen words, seen as a 4×4 matrix: a mixing function on each column, then on each diagonal
(`round`). Programs write it as eight calls that each replace four named words (`applyQuad`); `round_eq` is the
one lemma that says these calls are a round. The mixing function is a parameter: BLAKE2b's takes two message
words, the one of Argon2 takes none.

`blake2b` is the function of RFC 7693: parameter word, key block, data blocks of 128 bytes padded with zeros, a
128-bit byte counter, and the final flag on the last block. Its blocks depend on a prefix of the data only
(`hashBlocks_append`), which is what a program that consumes its input byte by byte needs.
-/

namespace MinerTim
namespace Blake2

/-! ## Rounds -/

/-- Four words that are mixed. -/
structure Quad where
  a : Word
  b : Word
  c : Word
  d : Word
deriving DecidableEq, Repr

/-- The word of a quadruple in one row. -/
def Quad.row (q : Quad) (i : Nat) : Word :=
  if i = 0 then q.a else if i = 1 then q.b else if i = 2 then q.c else q.d

/-- The sixteen words that a round works on. -/
abbrev Work := Vector Word 16

/-- The place of a word among the sixteen. -/
abbrev Index := Fin 16

instance neZeroSixteen : NeZero 16 := ⟨by decide⟩

/-- Four words of the work vector. -/
def Work.quad (v : Work) (a b c d : Index) : Quad := ⟨v[a], v[b], v[c], v[d]⟩

/-- Replace four words by what `f` makes of them. -/
def applyQuad (f : Quad → Quad) (v : Work) (a b c d : Index) : Work :=
  (((v.set a (f (Work.quad v a b c d)).a).set b (f (Work.quad v a b c d)).b).set c
    (f (Work.quad v a b c d)).c).set d (f (Work.quad v a b c d)).d

/-- A mixing function made of two additions to `a`, one to `c`, and four rotations. -/
def mixWith (fa fa' fc : Word → Word → Word) (q : Quad) : Quad :=
  let a := fa q.a q.b
  let d := (q.d ^^^ a).rotateRight 32
  let c := fc q.c d
  let b := (q.b ^^^ c).rotateRight 24
  let a := fa' a b
  let d := (d ^^^ a).rotateRight 16
  let c := fc c d
  let b := (b ^^^ c).rotateRight 63
  ⟨a, b, c, d⟩

/-- `f j` on column `j`. -/
def columns (f : Nat → Quad → Quad) (v : Work) : Work :=
  Vector.ofFn fun k : Fin 16 => (f (k % 4) (Work.quad v ⟨k % 4, by omega⟩ ⟨4 + k % 4, by omega⟩
    ⟨8 + k % 4, by omega⟩ ⟨12 + k % 4, by omega⟩)).row (k / 4)

/-- Row `i` rotated by `i` words, so that the diagonals become the columns. -/
def shiftRows (v : Work) : Work :=
  Vector.ofFn fun k : Fin 16 => v[4 * (k.val / 4) + (k.val % 4 + k.val / 4) % 4]

/-- The rotation of the rows undone. -/
def unshiftRows (v : Work) : Work :=
  Vector.ofFn fun k : Fin 16 => v[4 * (k.val / 4) + (k.val % 4 + 4 - k.val / 4) % 4]

/-- **A round**: `f 0 … f 3` on the columns, `f 4 … f 7` on the diagonals. -/
def round (f : Nat → Quad → Quad) (v : Work) : Work :=
  unshiftRows (columns (fun j => f (4 + j)) (shiftRows (columns f v)))

variable {f : Quad → Quad} {v : Work} {a b c d : Index}

theorem getElem_applyQuad (f : Quad → Quad) (v : Work) (a b c d : Index) {k : Nat} (hk : k < 16) :
    (applyQuad f v a b c d)[k] = if d.val = k then (f (Work.quad v a b c d)).d
      else if c.val = k then (f (Work.quad v a b c d)).c
      else if b.val = k then (f (Work.quad v a b c d)).b
      else if a.val = k then (f (Work.quad v a b c d)).a else v[k] := by
  simp only [applyQuad, Vector.getElem_set]

/-- A quadruple apart from the one that was replaced. -/
theorem quad_applyQuad (f : Quad → Quad) (v : Work) {a' b' c' d' : Index}
    (h : ∀ k ∈ [a', b', c', d'], k ∉ [a, b, c, d]) :
    Work.quad (applyQuad f v a b c d) a' b' c' d' = Work.quad v a' b' c' d' := by
  have hget : ∀ k ∈ [a', b', c', d'], (applyQuad f v a b c d)[k] = v[k] := by
    intro k hk
    have hk' := h k hk
    simp only [List.mem_cons, List.not_mem_nil, or_false, not_or] at hk'
    have hne : ∀ {x : Index}, k ≠ x → ¬ x.val = k.val := fun hx hx' => hx (Fin.ext hx'.symm)
    show (applyQuad f v a b c d)[k.val] = v[k.val]
    rw [getElem_applyQuad, if_neg (hne hk'.2.2.2), if_neg (hne hk'.2.2.1), if_neg (hne hk'.2.1),
      if_neg (hne hk'.1)]
  simp only [Work.quad, Quad.mk.injEq]
  exact ⟨hget _ (by simp), hget _ (by simp), hget _ (by simp), hget _ (by simp)⟩

theorem columns_eq (f : Nat → Quad → Quad) (v : Work) :
    applyQuad (f 3) (applyQuad (f 2) (applyQuad (f 1) (applyQuad (f 0) v 0 4 8 12) 1 5 9 13) 2 6 10 14)
      3 7 11 15 = columns f v := by
  apply Vector.ext
  intro i hi
  rw [columns, Vector.getElem_ofFn]
  simp only [getElem_applyQuad]
  rw [quad_applyQuad (f 2) _ (by decide), quad_applyQuad (f 1) _ (by decide),
    quad_applyQuad (f 1) _ (by decide), quad_applyQuad (f 0) _ (by decide),
    quad_applyQuad (f 0) _ (by decide), quad_applyQuad (f 0) _ (by decide)]
  interval_cases i <;> rfl

/-- A column of the shifted matrix is a diagonal. -/
theorem quad_shiftRows (v : Work) {j : Nat} (h : j < 4) :
    Work.quad (shiftRows v) ⟨j, by omega⟩ ⟨4 + j, by omega⟩ ⟨8 + j, by omega⟩ ⟨12 + j, by omega⟩
      = Work.quad v ⟨j, by omega⟩ ⟨4 + (j + 1) % 4, by omega⟩ ⟨8 + (j + 2) % 4, by omega⟩
        ⟨12 + (j + 3) % 4, by omega⟩ := by
  simp only [Work.quad, shiftRows, Fin.getElem_fin, Vector.getElem_ofFn, Quad.mk.injEq]
  interval_cases j <;> exact ⟨rfl, rfl, rfl, rfl⟩

theorem diagonals_eq (f : Nat → Quad → Quad) (v : Work) :
    applyQuad (f 3) (applyQuad (f 2) (applyQuad (f 1) (applyQuad (f 0) v 0 5 10 15) 1 6 11 12) 2 7 8 13)
      3 4 9 14 = unshiftRows (columns f (shiftRows v)) := by
  apply Vector.ext
  intro i hi
  simp only [getElem_applyQuad]
  rw [quad_applyQuad (f 2) _ (by decide), quad_applyQuad (f 1) _ (by decide),
    quad_applyQuad (f 1) _ (by decide), quad_applyQuad (f 0) _ (by decide),
    quad_applyQuad (f 0) _ (by decide), quad_applyQuad (f 0) _ (by decide)]
  simp only [unshiftRows, columns, Vector.getElem_ofFn]
  rw [quad_shiftRows v (by omega)]
  interval_cases i <;> rfl

/-- **Eight calls on four words each are a round.** -/
theorem round_eq (f : Nat → Quad → Quad) (v : Work) :
    applyQuad (f 7) (applyQuad (f 6) (applyQuad (f 5) (applyQuad (f 4)
      (applyQuad (f 3) (applyQuad (f 2) (applyQuad (f 1) (applyQuad (f 0) v 0 4 8 12) 1 5 9 13) 2 6 10 14) 3 7 11 15)
      0 5 10 15) 1 6 11 12) 2 7 8 13) 3 4 9 14 = round f v := by
  rw [columns_eq f v]
  exact diagonals_eq (fun j => f (4 + j)) (columns f v)

/-- The four updates of a mixing function, one after the other, on distinct words. -/
theorem applyQuad_eq (f : Quad → Quad) (v : Work) {w : Work} (ha : w[a] = (f (Work.quad v a b c d)).a)
    (hb : w[b] = (f (Work.quad v a b c d)).b) (hc : w[c] = (f (Work.quad v a b c d)).c)
    (hd : w[d] = (f (Work.quad v a b c d)).d) (hrest : ∀ k : Index, k ∉ [a, b, c, d] → w[k] = v[k]) :
    w = applyQuad f v a b c d := by
  apply Vector.ext
  intro k hk
  rw [getElem_applyQuad]
  split
  next h => exact h ▸ hd
  split
  next h => exact h ▸ hc
  split
  next h => exact h ▸ hb
  split
  next h => exact h ▸ ha
  next h1 h2 h3 h4 =>
    refine hrest ⟨k, hk⟩ ?_
    simp only [List.mem_cons, List.not_mem_nil, or_false, Fin.ext_iff]
    omega

/-- What is replaced is read back. -/
theorem quad_applyQuad_self (f : Quad → Quad) (v : Work) {a b c d : Index} (h : [a, b, c, d].Nodup) :
    Work.quad (applyQuad f v a b c d) a b c d = f (Work.quad v a b c d) := by
  simp only [List.nodup_cons, List.mem_cons, List.not_mem_nil, or_false, not_or, not_false_eq_true,
    List.nodup_nil, and_true] at h
  obtain ⟨⟨hab, hac, had⟩, ⟨hbc, hbd⟩, hcd⟩ := h
  have hne : ∀ {x y : Index}, x ≠ y → ¬ y.val = x.val := fun hxy heq => hxy (Fin.ext heq.symm)
  simp only [Work.quad, Fin.getElem_fin, getElem_applyQuad, hne hab, hne hac, hne had, hne hbc, hne hbd, hne hcd,
    if_true, if_false]

/-- Two functions on the same words, one after the other. -/
theorem applyQuad_applyQuad (f g : Quad → Quad) (v : Work) {a b c d : Index} (h : [a, b, c, d].Nodup) :
    applyQuad g (applyQuad f v a b c d) a b c d = applyQuad (fun q => g (f q)) v a b c d := by
  have hquad := quad_applyQuad_self f v h
  apply Vector.ext
  intro k hk
  rw [getElem_applyQuad, getElem_applyQuad, getElem_applyQuad, hquad]
  split_ifs <;> rfl

theorem getElem_set_ne {a b : Index} (h : a ≠ b) (v : Work) (x : Word) : (v.set a x)[b] = v[b] :=
  Vector.getElem_set_ne _ _ fun heq => h (Fin.ext heq)

section

variable (h : [a, b, c, d].Nodup) (v : Work) (p : Quad → Word)

include h

/-- An assignment is a function of the four words. -/
theorem set_a_eq : v.set a (p (Work.quad v a b c d)) = applyQuad (fun q => { q with a := p q }) v a b c d := by
  simp only [List.nodup_cons, List.mem_cons, List.not_mem_nil, or_false, not_or] at h
  refine applyQuad_eq _ v (Vector.getElem_set_self _) (getElem_set_ne h.1.1 v _) (getElem_set_ne h.1.2.1 v _)
    (getElem_set_ne h.1.2.2 v _) fun k hk => getElem_set_ne ?_ v _
  rintro rfl
  exact hk (by simp)

theorem set_b_eq : v.set b (p (Work.quad v a b c d)) = applyQuad (fun q => { q with b := p q }) v a b c d := by
  simp only [List.nodup_cons, List.mem_cons, List.not_mem_nil, or_false, not_or] at h
  refine applyQuad_eq _ v (getElem_set_ne (Ne.symm h.1.1) v _) (Vector.getElem_set_self _)
    (getElem_set_ne h.2.1.1 v _) (getElem_set_ne h.2.1.2 v _) fun k hk => getElem_set_ne ?_ v _
  rintro rfl
  exact hk (by simp)

theorem set_c_eq : v.set c (p (Work.quad v a b c d)) = applyQuad (fun q => { q with c := p q }) v a b c d := by
  simp only [List.nodup_cons, List.mem_cons, List.not_mem_nil, or_false, not_or] at h
  refine applyQuad_eq _ v (getElem_set_ne (Ne.symm h.1.2.1) v _) (getElem_set_ne (Ne.symm h.2.1.1) v _)
    (Vector.getElem_set_self _) (getElem_set_ne h.2.2.1 v _) fun k hk => getElem_set_ne ?_ v _
  rintro rfl
  exact hk (by simp)

theorem set_d_eq : v.set d (p (Work.quad v a b c d)) = applyQuad (fun q => { q with d := p q }) v a b c d := by
  simp only [List.nodup_cons, List.mem_cons, List.not_mem_nil, or_false, not_or] at h
  refine applyQuad_eq _ v (getElem_set_ne (Ne.symm h.1.2.2) v _) (getElem_set_ne (Ne.symm h.2.1.2) v _)
    (getElem_set_ne (Ne.symm h.2.2.1) v _) (Vector.getElem_set_self _) fun k hk => getElem_set_ne ?_ v _
  rintro rfl
  exact hk (by simp)

end

/-- **Eight assignments are a mixing function**, on distinct words. -/
theorem applyQuad_mixWith (fa fa' fc : Word → Word → Word) (v : Work) {a b c d : Index} (h : [a, b, c, d].Nodup) :
    (let v := v.set a (fa v[a] v[b])
     let v := v.set d ((v[d] ^^^ v[a]).rotateRight 32)
     let v := v.set c (fc v[c] v[d])
     let v := v.set b ((v[b] ^^^ v[c]).rotateRight 24)
     let v := v.set a (fa' v[a] v[b])
     let v := v.set d ((v[d] ^^^ v[a]).rotateRight 16)
     let v := v.set c (fc v[c] v[d])
     v.set b ((v[b] ^^^ v[c]).rotateRight 63)) = applyQuad (mixWith fa fa' fc) v a b c d := by
  have ha : ∀ v : Work, v.set a (fa v[a] v[b]) = applyQuad (fun q => { q with a := fa q.a q.b }) v a b c d :=
    fun v => set_a_eq h v fun q => fa q.a q.b
  have ha' : ∀ v : Work, v.set a (fa' v[a] v[b]) = applyQuad (fun q => { q with a := fa' q.a q.b }) v a b c d :=
    fun v => set_a_eq h v fun q => fa' q.a q.b
  have hd : ∀ (v : Work) (n : Nat), v.set d ((v[d] ^^^ v[a]).rotateRight n)
      = applyQuad (fun q => { q with d := (q.d ^^^ q.a).rotateRight n }) v a b c d :=
    fun v n => set_d_eq h v fun q => (q.d ^^^ q.a).rotateRight n
  have hc : ∀ v : Work, v.set c (fc v[c] v[d]) = applyQuad (fun q => { q with c := fc q.c q.d }) v a b c d :=
    fun v => set_c_eq h v fun q => fc q.c q.d
  have hb : ∀ (v : Work) (n : Nat), v.set b ((v[b] ^^^ v[c]).rotateRight n)
      = applyQuad (fun q => { q with b := (q.b ^^^ q.c).rotateRight n }) v a b c d :=
    fun v n => set_b_eq h v fun q => (q.b ^^^ q.c).rotateRight n
  dsimp only
  rw [ha v, hd, hc, hb, ha', hd, hc, hb]
  simp only [applyQuad_applyQuad _ _ _ h]
  rfl

/-! ## BLAKE2b -/

/-- The initialization vector. -/
def IV : Vector (BitVec 64) 8 :=
  #v[0x6a09e667f3bcc908, 0xbb67ae8584caa73b, 0x3c6ef372fe94f82b, 0xa54ff53a5f1d36f1,
    0x510e527fade682d1, 0x9b05688c2b3e6c1f, 0x1f83d9abfb41bd6b, 0x5be0cd19137e2179]

/-- The message schedule of the ten distinct rounds. -/
def SIGMA : Vector (Vector Index 16) 10 :=
  #v[#v[0, 1, 2, 3, 4, 5, 6, 7, 8, 9, 10, 11, 12, 13, 14, 15],
    #v[14, 10, 4, 8, 9, 15, 13, 6, 1, 12, 0, 2, 11, 7, 5, 3],
    #v[11, 8, 12, 0, 5, 2, 15, 13, 10, 14, 3, 6, 7, 1, 9, 4],
    #v[7, 9, 3, 1, 13, 12, 11, 14, 2, 6, 5, 10, 4, 0, 15, 8],
    #v[9, 0, 5, 7, 2, 4, 10, 15, 14, 1, 11, 12, 6, 8, 3, 13],
    #v[2, 12, 6, 10, 0, 11, 8, 3, 4, 13, 7, 5, 15, 14, 1, 9],
    #v[12, 5, 1, 15, 14, 13, 4, 10, 0, 7, 6, 3, 9, 2, 8, 11],
    #v[13, 11, 7, 14, 12, 1, 3, 9, 5, 0, 15, 4, 8, 6, 2, 10],
    #v[6, 15, 14, 9, 11, 3, 0, 8, 12, 2, 13, 7, 1, 4, 10, 5],
    #v[10, 2, 8, 4, 7, 6, 1, 5, 15, 11, 9, 14, 3, 12, 13, 0]]

/-- The schedule of round `i`: the rows repeat after ten. -/
def schedule (i : Nat) : Vector Index 16 := SIGMA[i % 10]?.getD SIGMA[0]

/-- The mixing function `G`, with two message words. -/
def mix (x y : Word) : Quad → Quad := mixWith (fun a b => a + b + x) (fun a b => a + b + y) (· + ·)

/-- The mixing functions of a round: two words of the message each, in the order of the schedule. -/
def mixes (m : Vector Word 16) (s : Vector Index 16) (j : Nat) : Quad → Quad :=
  mix (m[s[2 * j]?.getD 0]) (m[s[2 * j + 1]?.getD 0])

/-- The working vector at the start of a compression. -/
def initialWork (h : Vector Word 8) (t : BitVec 128) (last : Bool) : Work :=
  Vector.ofFn fun k : Fin 16 =>
    if hk : k.val < 8 then h[k.val]
    else if k = 12 then IV[4] ^^^ t.setWidth 64
    else if k = 13 then IV[5] ^^^ (t >>> 64).setWidth 64
    else if k = 14 ∧ last = true then IV[6] ^^^ BitVec.allOnes 64
    else IV[k.val - 8]

/-- **The compression function `F`**, at byte count `t`. -/
def F (h : Vector Word 8) (m : Vector Word 16) (t : BitVec 128) (last : Bool) : Vector Word 8 :=
  let v := (List.range 12).foldl (fun v i => round (mixes m (schedule i)) v) (initialWork h t last)
  Vector.ofFn fun i : Fin 8 => h.get i ^^^ v.get (i.castAdd 8) ^^^ v.get (i.addNat 8)

/-- The words of a block of 128 bytes. -/
def blockWords (b : Nat → Byte) : Vector Word 16 := Vector.ofFn fun i : Fin 16 => leWord fun k => b (8 * i + k)

/-- Block `i` of the data, padded with zeros. -/
def dataBlock (data : List Byte) (i : Nat) : Vector Word 16 :=
  blockWords fun k => data.getD (128 * i + k) 0

/-- The state after `i` blocks, none of them the last. -/
def hashBlocks (h : Vector Word 8) (data : List Byte) : Nat → Vector Word 8
  | 0 => h
  | i + 1 => F (hashBlocks h data i) (dataBlock data i) (BitVec.ofNat 128 ((i + 1) * 128)) false

/-- The parameter word: digest length, key length, fanout and depth one. -/
def parameterIV (nn kk : Nat) : Vector Word 8 :=
  Vector.ofFn fun i : Fin 8 =>
    if i.val = 0 then IV.get i ^^^ 0x01010000 ^^^ BitVec.ofNat 64 kk <<< 8 ^^^ BitVec.ofNat 64 nn else IV.get i

/-- A key is a block of its own. -/
def keyBlock (key : List Byte) : List Byte :=
  if key = [] then [] else key ++ List.replicate (128 - key.length) 0

/-- **BLAKE2b** with a digest of `nn` bytes. -/
def blake2b (nn : Nat) (key message : List Byte) : List Byte :=
  let data := keyBlock key ++ message
  -- the number of blocks; no key and no message is one block of zeros
  let dd := max 1 ((data.length + 127) / 128)
  let count := if key.length = 0 then message.length else message.length + 128
  let h := F (hashBlocks (parameterIV nn key.length) data (dd - 1)) (dataBlock data (dd - 1))
    (BitVec.ofNat 128 count) true
  (List.range nn).map fun i => byteOf (h[i / 8]?.getD 0) (i % 8)

/-! ## Prefixes -/

theorem blockWords_congr {b b' : Nat → Byte} (h : ∀ k < 128, b k = b' k) : blockWords b = blockWords b' := by
  apply Vector.ext
  intro i hi
  simp only [blockWords, Vector.getElem_ofFn]
  exact leWord_congr fun k hk => h _ (by omega)

/-- A whole block of a prefix. -/
theorem dataBlock_append {data : List Byte} {i : Nat} (h : 128 * (i + 1) ≤ data.length) (more : List Byte) :
    dataBlock (data ++ more) i = dataBlock data i := by
  refine blockWords_congr fun k hk => ?_
  rw [List.getD_eq_getElem?_getD, List.getD_eq_getElem?_getD, List.getElem?_append_left (by omega)]

/-- **What was hashed of a prefix stays as it is.** -/
theorem hashBlocks_append (h : Vector Word 8) {data : List Byte} {i : Nat} (hi : 128 * i ≤ data.length)
    (more : List Byte) : hashBlocks h (data ++ more) i = hashBlocks h data i := by
  induction i with
  | zero => rfl
  | succ i ih => rw [hashBlocks, hashBlocks, ih (by omega), dataBlock_append hi]

theorem length_keyBlock {key : List Byte} (h : key.length ≤ 128) :
    (keyBlock key).length = if key = [] then 0 else 128 := by
  unfold keyBlock
  split
  · rfl
  · rw [List.length_append, List.length_replicate]
    omega

end Blake2
end MinerTim
