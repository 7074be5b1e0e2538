import Lvllm.KVCache.Manager
import Lvllm.KVCache.PoolRefs

/-!
# Block tables and the pool

`KvInv` ties the managers to the pool.  Every reference of a block is an entry of some block table,
an end of a pending copy, or held by a caller.  Every block has one position, a group and an index,
and all its table entries and all its keys are at that position: a key is the hash of a chain whose
length says which block of the group it names, since hashes do not collide.

A manager changes its own tables and the pool at once.  `KvInv.update` is the rule for such a
change, and `KvInv.changePool` the rule for changes of the pool alone.
-/

namespace Lvllm

open List Option

variable {H : Type} [DecidableEq H]

/-! ## Positions of keys -/

/-- The hash `h` ends a chain of `d` blocks. -/
def HashDepth (bh : BlockHasher H) (h : H) (d : ℕ) : Prop :=
  ∃ cs : List BlockContent, cs.length = d ∧ cs.foldl (chainStep bh) bh.noneHash = h

variable {bh : BlockHasher H} {b : ℕ} {m : SingleTypeKVCacheManager} {id : String}

/-- Hashes that do not collide determine the length of their chain. -/
lemma HashDepth.unique (hbh : bh.CollisionFree) {h : H} {d d' : ℕ} (hd : HashDepth bh h d)
    (hd' : HashDepth bh h d') : d = d' := by
  obtain ⟨cs, rfl, hcs⟩ := hd
  obtain ⟨cs', rfl, hcs'⟩ := hd'
  rw [foldl_chainStep_injective hbh (hcs.trans hcs'.symm)]

/-- The block hashes of the request are a chain. -/
def Request.HashesChained (bh : BlockHasher H) (r : Request H) : Prop :=
  ∃ cs : List BlockContent, r.blockHashes = chainHashes bh cs

/-- The hash at index `i` of a chain ends a chain of `i + 1` blocks. -/
lemma Request.HashesChained.depth {r : Request H} (h : r.HashesChained bh) {i : ℕ} {hash : H}
    (hi : r.blockHashes[i]? = some hash) : HashDepth bh hash (i + 1) := by
  obtain ⟨cs, hcs⟩ := h
  have hlt : i < cs.length := by
    have := (List.getElem?_eq_some_iff.1 hi).1
    rwa [hcs, chainHashes, length_digests] at this
  rw [hcs, chainHashes, getElem?_digests _ _ hlt, some.injEq] at hi
  exact ⟨cs.take (i + 1), by rw [length_take]; omega, hi⟩

/-- The key names block `j` of group `g`: its chain ends inside that block. -/
structure KeyAt (bh : BlockHasher H) (blockSize g j : ℕ) (key : BlockHashWithGroupId H) : Prop where
  groupId_eq : key.groupId = g
  depth : ∃ d, HashDepth bh key.blockHash d ∧ j * blockSize < d * bh.hashBlockSize ∧
    d * bh.hashBlockSize ≤ (j + 1) * blockSize

lemma KeyAt.index_unique (hbh : bh.CollisionFree) {blockSize g g' j j' : ℕ}
    {key : BlockHashWithGroupId H} (h : KeyAt bh blockSize g j key)
    (h' : KeyAt bh blockSize g' j' key) : j = j' := by
  obtain ⟨d, hd, hlo, hhi⟩ := h.depth
  obtain ⟨d', hd', hlo', hhi'⟩ := h'.depth
  obtain rfl := hd.unique hbh hd'
  have h1 : j < j' + 1 := lt_of_mul_lt_mul_right (hlo.trans_le hhi') (Nat.zero_le _)
  have h2 : j' < j + 1 := lt_of_mul_lt_mul_right (hlo'.trans_le hhi) (Nat.zero_le _)
  omega

/-! ## References of a manager -/

namespace SingleTypeKVCacheManager

/-- The blocks that pending copies retain: each copy keeps its source and its destination. -/
def retained (m : SingleTypeKVCacheManager) : List ℕ :=
  m.pendingCowCopies.flatMap fun c => [c.1, c.2]

/-- The references of block `b` in the tables and the pending copies. -/
def refs (m : SingleTypeKVCacheManager) (b : ℕ) : ℕ :=
  m.reqToBlocks.sum (·.count b) + m.retained.count b

/-- What no operation changes in a manager. -/
structure SameGroup (m m' : SingleTypeKVCacheManager) : Prop where
  spec_eq : m'.spec = m.spec
  kvCacheGroupId_eq : m'.kvCacheGroupId = m.kvCacheGroupId
  enableCaching_eq : m'.enableCaching = m.enableCaching

lemma SameGroup.refl (m : SingleTypeKVCacheManager) : SameGroup m m := ⟨rfl, rfl, rfl⟩

lemma SameGroup.blockSize_eq {m' : SingleTypeKVCacheManager} (h : SameGroup m m') :
    m'.blockSize = m.blockSize := by
  rw [blockSize, blockSize, h.spec_eq]

/-- A block in a table has a reference there. -/
lemma refs_pos_of_mem (h : b ∈ m.blocksOf id) : 0 < m.refs b := by
  unfold blocksOf at h
  cases hget : m.reqToBlocks.get? id with
  | none => simp [hget] at h
  | some blocks =>
    have hsum := m.reqToBlocks.sum_erase id (·.count b)
    rw [hget] at hsum h
    have hpos : 0 < blocks.count b := count_pos_iff.2 h
    simp only [elim_some] at hsum
    unfold refs
    omega

/-- The references after a table is written. -/
lemma refs_setBlocks (m : SingleTypeKVCacheManager) (id : String) (blocks : List ℕ) (b : ℕ) :
    (m.setBlocks id blocks).refs b + (m.blocksOf id).count b = m.refs b + blocks.count b := by
  have hsum := m.reqToBlocks.sum_set id blocks (·.count b)
  have hold : (m.reqToBlocks.get? id).elim 0 (·.count b) = (m.blocksOf id).count b := by
    unfold blocksOf
    cases m.reqToBlocks.get? id <;> simp
  show (m.reqToBlocks.set id blocks).sum _ + m.retained.count b + _ = _
  unfold refs
  omega

@[simp] lemma blocksOf_setBlocks_self (m : SingleTypeKVCacheManager) (id : String)
    (blocks : List ℕ) : (m.setBlocks id blocks).blocksOf id = blocks := by
  simp [blocksOf, setBlocks]

@[simp] lemma blocksOf_setBlocks_ne (m : SingleTypeKVCacheManager) {id' : String}
    (h : id' ≠ id) (blocks : List ℕ) : (m.setBlocks id blocks).blocksOf id' = m.blocksOf id' := by
  simp [blocksOf, setBlocks, h]

end SingleTypeKVCacheManager

open SingleTypeKVCacheManager

/-- The references of block `b` that all managers hold. -/
def totalRefs (ms : List SingleTypeKVCacheManager) (b : ℕ) : ℕ := (ms.map (·.refs b)).sum

omit [DecidableEq H] in
lemma refs_le_totalRefs {ms : List SingleTypeKVCacheManager} {i : ℕ}
    (hm : ms[i]? = some m) (b : ℕ) : m.refs b ≤ totalRefs ms b :=
  le_sum_of_mem (mem_map_of_mem (mem_of_getElem? hm))

/-! ## The invariant -/

/-- The settings of a pool, which no operation changes. -/
structure SamePool (p p' : BlockPool H) : Prop where
  numGpuBlocks_eq : p'.numGpuBlocks = p.numGpuBlocks
  enableCaching_eq : p'.enableCaching = p.enableCaching
  hasher_eq : p'.hasher = p.hasher
  nullBlock_eq : p'.nullBlock = p.nullBlock

section

omit [DecidableEq H]

lemma SamePool.refl (p : BlockPool H) : SamePool p p := ⟨rfl, rfl, rfl, rfl⟩

lemma SamePool.trans {p p' p'' : BlockPool H} (h : SamePool p p') (h' : SamePool p' p'') :
    SamePool p p'' :=
  ⟨h'.1.trans h.1, h'.2.trans h.2, h'.3.trans h.3, h'.4.trans h.4⟩

lemma SamePool.of_refFrame {p p' : BlockPool H} (h : p.RefFrame p') : SamePool p p' := { h with }

lemma SamePool.of_indexFrame {p p' : BlockPool H} (h : p.IndexFrame p') : SamePool p p' :=
  { h with }

end

/-- Every table entry and every key of a block is at the position of the block: its group and its
index in the table. -/
structure Placed (p : BlockPool H) (ms : List SingleTypeKVCacheManager) (pos : ℕ → ℕ × ℕ) :
    Prop where
  table : ∀ i m, ms[i]? = some m → ∀ id j b, (m.blocksOf id)[j]? = some b → b ≠ p.nullBlock →
    pos b = (i, j)
  keys : ∀ b, ∀ key ∈ p.keysOf b, ∃ m, ms[(pos b).1]? = some m ∧
    KeyAt p.hasher m.blockSize (pos b).1 (pos b).2 key

/-- A key names the position of its block. -/
lemma Placed.pos_eq {p : BlockPool H} {ms : List SingleTypeKVCacheManager} {pos : ℕ → ℕ × ℕ}
    (h : Placed p ms pos) (hbh : p.hasher.CollisionFree) {i j : ℕ} {m : SingleTypeKVCacheManager}
    (hm : ms[i]? = some m) {key : BlockHashWithGroupId H} (hkey : key ∈ p.keysOf b)
    (hat : KeyAt p.hasher m.blockSize i j key) : pos b = (i, j) := by
  obtain ⟨m1, hm1, hat1⟩ := h.keys b key hkey
  have hgroup : (pos b).1 = i := hat1.groupId_eq.symm.trans hat.groupId_eq
  rw [hgroup] at hm1
  obtain rfl : m1 = m := some.inj (hm1.symm.trans hm)
  exact Prod.ext hgroup (hat1.index_unique hbh hat)

/-- A manager changes its tables: each entry is an old one, a new block at its index `idx`, or a
block whose key names its place. -/
lemma Placed.update {p p' : BlockPool H} {ms : List SingleTypeKVCacheManager} {pos : ℕ → ℕ × ℕ}
    {i : ℕ} {m m' : SingleTypeKVCacheManager} {new : List ℕ} {idx : ℕ → ℕ} (h : Placed p ms pos)
    (hbh : p.hasher.CollisionFree) (hm : ms[i]? = some m) (hpool : SamePool p p')
    (hgroup : SameGroup m m') (hnew : ∀ b ∈ new, p'.keysOf b = [])
    (hfresh : ∀ b ∈ new, ∀ (k : ℕ) m, ms[k]? = some m → ∀ id, b ∉ m.blocksOf id)
    (hkeys : ∀ b, p'.keysOf b ⊆ p.keysOf b)
    (htable : ∀ id j b, (m'.blocksOf id)[j]? = some b → b ≠ p.nullBlock →
      (∃ id', (m.blocksOf id')[j]? = some b) ∨ (b ∈ new ∧ j = idx b) ∨
        (b ∉ new ∧ ∃ key ∈ p.keysOf b, KeyAt p.hasher m.blockSize i j key)) :
    Placed p' (ms.set i m') fun b => if b ∈ new then (i, idx b) else pos b := by
  have hself : (ms.set i m')[i]? = some m' :=
    getElem?_set_self (List.getElem?_eq_some_iff.1 hm).1
  refine ⟨fun k m1 hk id j b hj hb => ?_, fun b key hkey => ?_⟩
  · rw [hpool.nullBlock_eq] at hb
    by_cases hki : k = i
    · subst hki
      obtain rfl : m' = m1 := some.inj (hself.symm.trans hk)
      rcases htable id j b hj hb with ⟨id', hold⟩ | ⟨hbnew, rfl⟩ | ⟨hbnew, key, hkey, hat⟩
      · rw [if_neg fun hbnew => hfresh b hbnew k m hm id' (mem_of_getElem? hold)]
        exact h.table k m hm id' j b hold hb
      · rw [if_pos hbnew]
      · rw [if_neg hbnew]
        exact h.pos_eq hbh hm hkey hat
    · rw [getElem?_set_ne (Ne.symm hki)] at hk
      rw [if_neg fun hbnew => hfresh b hbnew k m1 hk id (mem_of_getElem? hj)]
      exact h.table k m1 hk id j b hj hb
  · have hbnew : b ∉ new := by
      intro hbnew
      rw [hnew b hbnew] at hkey
      cases hkey
    simp only [if_neg hbnew, hpool.hasher_eq]
    obtain ⟨m1, hm1, hat⟩ := h.keys b key (hkeys b hkey)
    by_cases hki : (pos b).1 = i
    · rw [hki] at hm1 hat ⊢
      obtain rfl : m1 = m := some.inj (hm1.symm.trans hm)
      exact ⟨m', hself, hgroup.blockSize_eq ▸ hat⟩
    · exact ⟨m1, by rwa [getElem?_set_ne (Ne.symm hki)], hat⟩

/-- The managers agree with the pool; `Q` is the free queue and `held` lists the references that
callers took over. -/
structure KvInv (p : BlockPool H) (Q : List ℕ) (ms : List SingleTypeKVCacheManager)
    (held : List ℕ) : Prop where
  free : p.FreeInv Q
  refCnt_eq : ∀ b, b ≠ p.nullBlock →
    (p.blocks b).refCnt = ((totalRefs ms b + held.count b : ℕ) : ℤ)
  block_lt : ∀ b, 0 < totalRefs ms b + held.count b → b < p.numGpuBlocks
  placed : ∃ pos, Placed p ms pos
  keyed : ∀ b, p.keysOf b ≠ [] → b ≠ p.nullBlock ∧ b < p.numGpuBlocks
  noCaching : p.enableCaching = false → ∀ b, p.keysOf b = []
  group : ∀ (i : ℕ) (m : SingleTypeKVCacheManager), ms[i]? = some m →
    m.kvCacheGroupId = i ∧ m.enableCaching = p.enableCaching
  /-- Full attention keeps every block of a request. -/
  noNull : ∀ m ∈ ms, m.spec.isFullAttention = true → ∀ id, p.nullBlock ∉ m.blocksOf id

namespace KvInv

variable {p p' : BlockPool H} {Q Q' held held' : List ℕ} {ms : List SingleTypeKVCacheManager}
  {i : ℕ} {m m' : SingleTypeKVCacheManager}

variable (h : KvInv p Q ms held)

include h

lemma refs_eq_zero (hb : b ∈ Q) : totalRefs ms b = 0 ∧ held.count b = 0 := by
  have hne : b ≠ p.nullBlock := fun heq => h.free.nullBlock_not_mem (heq ▸ hb)
  have hcnt := h.refCnt_eq b hne
  rw [((h.free.mem_iff b).1 hb).2.2] at hcnt
  omega

lemma not_mem_of_mem_queue (hb : b ∈ Q) (hm : ms[i]? = some m) (id : String) :
    b ∉ m.blocksOf id := by
  intro hmem
  have hpos := refs_pos_of_mem hmem
  have hle := refs_le_totalRefs hm b
  have := (h.refs_eq_zero hb).1
  omega

lemma refCnt_nonneg (hb : (p.blocks b).isNull = false) : 0 ≤ (p.blocks b).refCnt := by
  rw [h.refCnt_eq b ((h.free.isNull_eq_false_iff b).1 hb)]
  exact Int.natCast_nonneg _

lemma lt_of_mem_blocksOf (hm : ms[i]? = some m) (hb : b ∈ m.blocksOf id) : b < p.numGpuBlocks := by
  have hpos := refs_pos_of_mem hb
  have hle := refs_le_totalRefs hm b
  exact h.block_lt b (by omega)

/-- A manager changes its tables and the pool together.  The reference counts follow the tables,
the blocks `new` come from the free queue and lose their keys, and every table entry is an old one,
a new block at its index `idx`, or a block whose key names its place. -/
lemma update (hm : ms[i]? = some m) (hpool : SamePool p p')
    (hgroup : SameGroup m m') (hfree : p'.FreeInv Q')
    (hcnt : ∀ b, b ≠ p.nullBlock → (p'.blocks b).refCnt + ((m.refs b + held.count b : ℕ) : ℤ) =
        (p.blocks b).refCnt + ((m'.refs b + held'.count b : ℕ) : ℤ))
    (hlt : ∀ b, 0 < m'.refs b + held'.count b → 0 < m.refs b + held.count b ∨ b < p.numGpuBlocks)
    (new : List ℕ) (idx : ℕ → ℕ) (hnew : ∀ b ∈ new, b ∈ Q ∧ p'.keysOf b = [])
    (hkeys : ∀ b, p'.keysOf b ⊆ p.keysOf b)
    (htable : ∀ id j b, (m'.blocksOf id)[j]? = some b → b ≠ p.nullBlock →
      (∃ id', (m.blocksOf id')[j]? = some b) ∨ (b ∈ new ∧ j = idx b) ∨
        (b ∉ new ∧ ∃ key ∈ p.keysOf b, KeyAt p.hasher m.blockSize i j key))
    (hnull : m.spec.isFullAttention = true → ∀ id, p.nullBlock ∈ m'.blocksOf id →
      ∃ id', p.nullBlock ∈ m.blocksOf id')
    (hbh : p.hasher.CollisionFree) : KvInv p' Q' (ms.set i m') held' := by
  have htotal : ∀ b, totalRefs (ms.set i m') b + m.refs b = totalRefs ms b + m'.refs b :=
    fun b => sum_map_set (·.refs b) m' hm
  have hself : (ms.set i m')[i]? = some m' :=
    getElem?_set_self (List.getElem?_eq_some_iff.1 hm).1
  refine ⟨hfree, fun b hb => ?_, fun b hb => ?_, ?_, fun b hb => ?_, fun hc b => ?_,
    fun k m1 hk => ?_, fun m1 hm1 hfull id hmem => ?_⟩
  · rw [hpool.nullBlock_eq] at hb
    have h1 := h.refCnt_eq b hb
    have h2 := hcnt b hb
    have h3 := htotal b
    omega
  · rw [hpool.numGpuBlocks_eq]
    have h3 := htotal b
    have hle := refs_le_totalRefs hm b
    by_cases hpos : 0 < totalRefs ms b + held.count b
    · exact h.block_lt b hpos
    · rcases hlt b (by omega) with hold | hb
      · omega
      · exact hb
  · obtain ⟨pos, hpos⟩ := h.placed
    exact ⟨_, hpos.update hbh hm hpool hgroup (fun b hb => (hnew b hb).2)
      (fun b hb k m1 hk id => h.not_mem_of_mem_queue (hnew b hb).1 hk id) hkeys htable⟩
  · rw [hpool.nullBlock_eq, hpool.numGpuBlocks_eq]
    refine h.keyed b fun hnil => hb ?_
    exact eq_nil_of_subset_nil (hnil ▸ hkeys b)
  · rw [hpool.enableCaching_eq] at hc
    exact eq_nil_of_subset_nil (h.noCaching hc b ▸ hkeys b)
  · rw [hpool.enableCaching_eq]
    by_cases hki : k = i
    · subst hki
      obtain rfl : m' = m1 := some.inj (hself.symm.trans hk)
      rw [hgroup.kvCacheGroupId_eq, hgroup.enableCaching_eq]
      exact h.group k m hm
    · rw [getElem?_set_ne (Ne.symm hki)] at hk
      exact h.group k m1 hk
  · rw [hpool.nullBlock_eq] at hmem
    rcases mem_or_eq_of_mem_set hm1 with hold | rfl
    · exact h.noNull m1 hold hfull id hmem
    · rw [hgroup.spec_eq] at hfull
      obtain ⟨id', hmem'⟩ := hnull hfull id hmem
      exact h.noNull m (mem_of_getElem? hm) hfull id' hmem'

/-- Callers give references back, blocks lose keys, and with caching enabled blocks in tables get
keys that name their place. -/
lemma changePool (hpool : SamePool p p') (hfree : p'.FreeInv Q')
    (hcnt : ∀ b, (p'.blocks b).refCnt + held.count b = (p.blocks b).refCnt + held'.count b)
    (hheld : ∀ b, held'.count b ≤ held.count b)
    (hkeys : ∀ b, ∀ key ∈ p'.keysOf b, key ∈ p.keysOf b ∨ p.enableCaching = true ∧
      ∃ i m id j, ms[i]? = some m ∧ (m.blocksOf id)[j]? = some b ∧ b ≠ p.nullBlock ∧
        KeyAt p.hasher m.blockSize i j key) : KvInv p' Q' ms held' := by
  refine ⟨hfree, fun b hb => ?_, fun b hb => ?_, ?_, fun b hb => ?_, fun hc b => ?_,
    fun k m1 hk => ?_, by rw [hpool.nullBlock_eq]; exact h.noNull⟩
  · rw [hpool.nullBlock_eq] at hb
    have h1 := h.refCnt_eq b hb
    have h2 := hcnt b
    omega
  · rw [hpool.numGpuBlocks_eq]
    have h2 := hheld b
    exact h.block_lt b (by omega)
  · obtain ⟨pos, hpos⟩ := h.placed
    refine ⟨pos, fun k m1 hk id j b hj hb => ?_, fun b key hkey => ?_⟩
    · rw [hpool.nullBlock_eq] at hb
      exact hpos.table k m1 hk id j b hj hb
    · rw [hpool.hasher_eq]
      rcases hkeys b key hkey with hold | ⟨-, k, m1, id, j, hk, hj, hb, hat⟩
      · exact hpos.keys b key hold
      · rw [hpos.table k m1 hk id j b hj hb]
        exact ⟨m1, hk, hat⟩
  · rw [hpool.nullBlock_eq, hpool.numGpuBlocks_eq]
    obtain ⟨key, hkey⟩ := exists_mem_of_ne_nil _ hb
    rcases hkeys b key hkey with hold | ⟨-, k, m1, id, j, hk, hj, hne, -⟩
    · exact h.keyed b (ne_nil_of_mem hold)
    · exact ⟨hne, h.lt_of_mem_blocksOf hk (mem_of_getElem? hj)⟩
  · rw [hpool.enableCaching_eq] at hc
    refine eq_nil_iff_forall_not_mem.2 fun key hkey => ?_
    rcases hkeys b key hkey with hold | ⟨hcaching, -⟩
    · rw [h.noCaching hc b] at hold
      cases hold
    · rw [hc] at hcaching
      cases hcaching
  · rw [hpool.enableCaching_eq]
    exact h.group k m1 hk

end KvInv

end Lvllm
