import Lvllm.KVCache.TableOps

/-!
# `cache_blocks` of a manager

`CachedAt` describes the keys that caching the first tokens of a request can add: block `j` of its
table gets a hash of the request whose chain ends inside block `j` and within the tokens to cache.
Full blocks are cached from the number of cached blocks on; the prompt tail may be cached before it
fills its block.
-/

namespace Lvllm

open Nat SingleTypeKVCacheManager

variable {H : Type} [DecidableEq H]

open SingleTypeKVCacheManager BlockPool

/-- Caching `n` tokens of the request may store block `b` under `key`. -/
def CachedAt (p : BlockPool H) (m : SingleTypeKVCacheManager) (r : Request H) (n b : ℕ)
    (key : BlockHashWithGroupId H) : Prop :=
  ∃ j d hash, (m.blocksOf r.requestId)[j]? = some b ∧ (p.blocks b).isNull = false ∧
    key = ⟨hash, m.kvCacheGroupId⟩ ∧ 0 < d ∧ r.blockHashes[d - 1]? = some hash ∧
    j * m.blockSize < d * p.hasher.hashBlockSize ∧
    d * p.hasher.hashBlockSize ≤ (j + 1) * m.blockSize ∧ d * p.hasher.hashBlockSize ≤ n ∧
    (d * p.hasher.hashBlockSize % m.blockSize = 0 →
      (m.numCachedBlock.get? r.requestId).getD 0 ≤ j)

/-- What caching did when it returned. -/
structure CacheStep (p p' : BlockPool H) (m m' : SingleTypeKVCacheManager) (r : Request H)
    (n : ℕ) : Prop where
  keys : NewKeys p (CachedAt p m r n) p'
  group : SameGroup m m'
  blocksOf_eq : ∀ id, m'.blocksOf id = m.blocksOf id
  refs_eq : ∀ b, m'.refs b = m.refs b
  partialHitReqs_eq : m'.partialHitReqs = m.partialHitReqs
  numCachedBlock_eq : m'.numCachedBlock = m.numCachedBlock ∨
    m.spec.participatesInPrefixCaching = true ∧
      (m.numCachedBlock.get? r.requestId).getD 0 < n / m.blockSize ∧
      m'.numCachedBlock = m.numCachedBlock.set r.requestId (n / m.blockSize)

variable {p p' : BlockPool H} {m m' : SingleTypeKVCacheManager} {r : Request H} {n : ℕ}

omit [DecidableEq H] in
lemma CacheStep.refl (hp : p.IndexInv) : CacheStep p p m m r n :=
  ⟨.refl hp, .refl m, fun _ => rfl, fun _ => rfl, rfl, .inl rfl⟩

variable {retention : Option ℕ} {key : BlockHashWithGroupId H}

/-- Full blocks are cached under the hashes of the request. -/
lemma baseCacheBlocks_ok (hp : p.IndexInv) (hpart : m.spec.participatesInPrefixCaching = true)
    (hrun : baseCacheBlocks r n retention (p, m) = .ok () (p', m')) :
    CacheStep p p' m m' r n := by
  unfold baseCacheBlocks at hrun
  rw [bind_get] at hrun
  dsimp only at hrun
  split at hrun
  · cases hrun
    exact .refl hp
  · rename_i hlt
    obtain ⟨mask, t, hmask, hrun1⟩ := bind_eq_ok.1 hrun
    obtain ⟨p₁, hmask', rfl⟩ := onPool_eq_ok.1 hmask
    obtain ⟨-, rfl⟩ := ofExcept_eq_ok.1 hmask'
    rw [bind_ok (modifyManager_apply _ _ _)] at hrun1
    obtain ⟨⟨⟩, t, hfull, hrun2⟩ := bind_eq_ok.1 hrun1
    obtain ⟨p2, hfull', rfl⟩ := onPool_eq_ok.1 hfull
    cases hrun2
    refine ⟨newKeys_cacheFullBlocks hp ?_ hfull', ⟨rfl, rfl, rfl⟩,
      fun id => blocksOf_readBlocks m _ id, fun b => ?_, rfl, .inr ⟨hpart, by omega, rfl⟩⟩
    · intro j b hash resolved hlo hhi hj hnull hres hhash
      obtain ⟨d, hd, hget, heq⟩ := resolveBlockHashes_index m.blockSize_pos hres hhash
      have hpos := m.blockSize_pos
      refine ⟨j, d, hash, hj, hnull, rfl, hd, hget, ?_, heq.le, ?_, fun _ => hlo⟩
      · rw [heq, add_mul]
        omega
      · rw [heq]
        exact (mul_le_mul_right _ hhi).trans (div_mul_le_self n m.blockSize)
    · rw [← refs_readBlocks m r.requestId b]
      exact refs_congr rfl rfl b

/-- The prompt tail is cached inside its block. -/
lemma cachePartialTailBlock_ok (hp : p.IndexInv)
    (hrun : cachePartialTailBlock r n (p, m) = .ok () (p', m')) :
    CacheStep p p' m m' r n ∧ m'.numCachedBlock = m.numCachedBlock := by
  unfold cachePartialTailBlock at hrun
  rw [bind_get] at hrun
  dsimp only at hrun
  split at hrun
  · cases hrun
    exact ⟨.refl hp, rfl⟩
  · rename_i hskip
    obtain ⟨hzero, hle, hmod⟩ : r.numPromptTokens / p.hasher.hashBlockSize *
        p.hasher.hashBlockSize ≠ 0 ∧ r.numPromptTokens / p.hasher.hashBlockSize *
        p.hasher.hashBlockSize ≤ n ∧ r.numPromptTokens / p.hasher.hashBlockSize *
        p.hasher.hashBlockSize % m.blockSize ≠ 0 := by
      refine ⟨fun h => hskip (.inl h), ?_, fun h => hskip (.inr (.inr h))⟩
      by_contra h
      exact hskip (.inr (.inl (by omega)))
    rw [bind_ok (modifyManager_apply _ _ _)] at hrun
    have hstep : CacheStep p p m (m.readBlocks r.requestId) r n :=
      ⟨.refl hp, ⟨rfl, rfl, rfl⟩, fun id => blocksOf_readBlocks m _ id,
        fun b => refs_readBlocks m _ b, rfl, .inl rfl⟩
    cases hblock : (m.blocksOf r.requestId)[r.numPromptTokens / p.hasher.hashBlockSize *
        p.hasher.hashBlockSize / m.blockSize]? with
    | none =>
      simp only [hblock] at hrun
      cases hrun
      exact ⟨hstep, rfl⟩
    | some block =>
      simp only [hblock] at hrun
      obtain ⟨result, t, hpartial, hrun1⟩ := bind_eq_ok.1 hrun
      obtain ⟨p₁, hpartial', rfl⟩ := onPool_eq_ok.1 hpartial
      cases hrun1
      refine ⟨{ hstep with keys := newKeys_cachePartialBlock hp ?_ hpartial' }, rfl⟩
      intro hash hnull hmod' hdiv hget
      -- The boundary lies strictly inside the block.
      generalize hbt : r.numPromptTokens / p.hasher.hashBlockSize * p.hasher.hashBlockSize =
        boundary at *
      have hd : boundary / p.hasher.hashBlockSize * p.hasher.hashBlockSize = boundary :=
        Nat.div_mul_cancel (Nat.dvd_of_mod_eq_zero hmod')
      have hdm := Nat.div_add_mod boundary m.blockSize
      have hmlt := Nat.mod_lt boundary m.blockSize_pos
      refine ⟨boundary / m.blockSize, boundary / p.hasher.hashBlockSize, hash, hblock, hnull, rfl,
        pos_of_ne_zero hdiv, hget, ?_, ?_, ?_, fun h => ?_⟩
      · rw [hd, mul_comm]
        omega
      · rw [hd, add_mul, one_mul, mul_comm]
        omega
      · rw [hd]
        exact hle
      · rw [hd] at h
        exact absurd h hmod

omit [DecidableEq H] in
lemma CachedAt.congr {p₁ : BlockPool H} {m₁ : SingleTypeKVCacheManager} {b : ℕ}
    (hframe : p.IndexFrame p₁) (hgroup : SameGroup m m₁)
    (hblocks : ∀ id, m₁.blocksOf id = m.blocksOf id)
    (hcached : (m.numCachedBlock.get? r.requestId).getD 0 ≤
      (m₁.numCachedBlock.get? r.requestId).getD 0)
    (h : CachedAt p₁ m₁ r n b key) : CachedAt p m r n b key := by
  obtain ⟨j, d, hash, hj, hnull, hkey, hd, hget, hlo, hhi, hle, hfull⟩ := h
  rw [hblocks] at hj
  rw [hframe.isNull_eq] at hnull
  rw [hgroup.kvCacheGroupId_eq] at hkey
  rw [hgroup.blockSize_eq, hframe.hasher_eq] at *
  exact ⟨j, d, hash, hj, hnull, hkey, hd, hget, hlo, hhi, hle, fun hmod =>
    hcached.trans (hfull hmod)⟩

/-- `cache_blocks` adds keys that name the places of the request's blocks. -/
lemma cacheBlocks_ok (hp : p.IndexInv) (hrun : cacheBlocks r n retention (p, m) = .ok () (p', m')) :
    CacheStep p p' m m' r n := by
  unfold cacheBlocks at hrun
  rw [bind_get] at hrun
  cases hkind : m.spec.kind with
  | circularBuffer | kpoolTail =>
    simp only [hkind] at hrun
    cases hrun
    exact .refl hp
  | slidingWindow | chunkedLocalAttention =>
    simp only [hkind] at hrun
    exact baseCacheBlocks_ok hp (by simp [KVCacheSpec.participatesInPrefixCaching, hkind]) hrun
  | fullAttention =>
    simp only [hkind] at hrun
    obtain ⟨⟨⟩, ⟨p₁, m₁⟩, hbase, hrun1⟩ := bind_eq_ok.1 hrun
    have hstep :=
      baseCacheBlocks_ok hp (by simp [KVCacheSpec.participatesInPrefixCaching, hkind]) hbase
    split at hrun1
    · cases hrun1
      exact hstep
    · obtain ⟨htail, hnum⟩ := cachePartialTailBlock_ok hstep.keys.1.1 hrun1
      have hcached : (m.numCachedBlock.get? r.requestId).getD 0 ≤
          (m₁.numCachedBlock.get? r.requestId).getD 0 := by
        rcases hstep.numCachedBlock_eq with heq | ⟨-, hlt, heq⟩
        · rw [heq]
        · rw [heq, Dict.get?_set_self]
          exact hlt.le
      refine ⟨⟨⟨htail.keys.1.1, hstep.keys.1.2.trans htail.keys.1.2⟩, fun b key hkey => ?_⟩,
        ⟨htail.group.spec_eq.trans hstep.group.spec_eq,
          htail.group.kvCacheGroupId_eq.trans hstep.group.kvCacheGroupId_eq,
          htail.group.enableCaching_eq.trans hstep.group.enableCaching_eq⟩,
        fun id => (htail.blocksOf_eq id).trans (hstep.blocksOf_eq id),
        fun b => (htail.refs_eq b).trans (hstep.refs_eq b),
        htail.partialHitReqs_eq.trans hstep.partialHitReqs_eq, ?_⟩
      · rcases htail.keys.2 b key hkey with hold | hnew
        · exact hstep.keys.2 b key hold
        · exact .inr (hnew.congr hstep.keys.1.2 hstep.group hstep.blocksOf_eq hcached)
      · rw [hnum]
        exact hstep.numCachedBlock_eq

/-- A key that caching adds names the place of its block. -/
lemma CachedAt.keyAt {b g : ℕ} (h : CachedAt p m r n b key)
    (hr : r.HashesChained p.hasher) (hg : m.kvCacheGroupId = g) :
    ∃ j : ℕ, (m.blocksOf r.requestId)[j]? = some b ∧ (p.blocks b).isNull = false ∧
      KeyAt p.hasher m.blockSize g j key := by
  obtain ⟨j, d, hash, hj, hnull, rfl, hd, hget, hlo, hhi, -⟩ := h
  have hdepth := hr.depth hget
  rw [Nat.sub_add_cancel hd] at hdepth
  exact ⟨j, hj, hnull, hg, d, hdepth, hlo, hhi⟩

variable {Q held : List ℕ} {ms : List SingleTypeKVCacheManager} {i : ℕ}

/-- Caching keeps the tables in agreement with the pool. -/
lemma KvInv.cacheBlocks (h : KvInv p Q ms held) (hm : ms[i]? = some m)
    (hbh : p.hasher.CollisionFree) (hr : r.HashesChained p.hasher) (hc : p.enableCaching = true)
    (hrun : cacheBlocks r n retention (p, m) = .ok () (p', m')) :
    KvInv p' Q (ms.set i m') held := by
  have hstep := cacheBlocks_ok h.free.index hrun
  have hkeyed : KvInv p' Q ms held := by
    refine h.changeKeys hstep.keys.1.2 hstep.keys.1.1 fun b key hkey => ?_
    rcases hstep.keys.2 b key hkey with hold | hnew
    · exact .inl hold
    · obtain ⟨j, hj, hnull, hat⟩ := hnew.keyAt hr (h.group i m hm).1
      exact .inr ⟨hc, i, m, r.requestId, j, hm, hj, (h.free.isNull_eq_false_iff b).1 hnull, hat⟩
  refine hkeyed.retable hm ?_ hstep.group (fun b => by rw [hstep.refs_eq]) fun id j b hj => ?_
  · rw [hstep.keys.1.2.hasher_eq]
    exact hbh
  · rw [hstep.blocksOf_eq] at hj
    exact ⟨id, hj⟩

end Lvllm
