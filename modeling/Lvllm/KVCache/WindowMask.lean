import Lvllm.KVCache.LookupSound
import Lvllm.KVCache.CacheKeys

/-!
# Masked caching of a sliding window

With a sliding window only the blocks in front of an aligned boundary can serve a hit, and
`reachable_block_mask` lets only these into the prefix cache.  Whether a block is let through depends
on its position alone, not on the increment in which it is cached.  So the masked pool holds the keys
of the unmasked one whose positions are let through (`MaskedPool`), both have the same lengths at
which a hit may end, and the lookup returns the same one.
-/

namespace Lvllm

open List Option BlockPool SingleTypeKVCacheManager

variable {H : Type} [DecidableEq H]

/-! ## What caching adds -/

namespace BlockPool

/-- `key` is the key of block `j` of the table, which is one of the new full blocks. -/
structure NewFullBlock (hasher : BlockHasher H) (isNull : ℕ → Bool) (r : Request H)
    (blocks : List ℕ) (numCachedBlocks numFullBlocks blockSize g j b : ℕ)
    (key : BlockHashWithGroupId H) : Prop where
  cached_le : numCachedBlocks ≤ j
  lt_full : j < numFullBlocks
  block : blocks[j]? = some b
  notNull : isNull b = false
  hash : ∃ hash resolved, resolveBlockHashes r.blockHashes hasher.hashBlockSize blockSize =
    .ok resolved ∧ resolved[j]? = some hash ∧ key = ⟨hash, g⟩

/-- Which blocks are null. -/
def nulls (p : BlockPool H) (b : ℕ) : Bool := (p.blocks b).isNull

omit [DecidableEq H] in
lemma IndexFrame.nulls_eq {p p' : BlockPool H} (h : p.IndexFrame p') : p'.nulls = p.nulls :=
  funext h.isNull_eq

variable {blocks : List ℕ} {r : Request H}

section Adds

variable {p p' : BlockPool H} {nc nf bs g : ℕ} {mask : Option (List Bool)}

/-- The loop of `cache_full_blocks` over blocks without keys keeps all keys, and adds the key of each
block that is not masked out. -/
lemma cacheFullBlocksLoop_adds {hashes newHashes : List H} {i : ℕ} (hp : p.IndexInv)
    (hnodup : (blocks.filter fun b => !p.nulls b).Nodup)
    (hfresh : ∀ b ∈ blocks, p.nulls b = false → p.keysOf b = [])
    (hrun : cacheFullBlocksLoop hashes nc bs g mask i blocks p = .ok newHashes p') :
    (∀ b, ∀ key ∈ p.keysOf b, key ∈ p'.keysOf b) ∧
      ∀ (k b : ℕ) (hash : H), blocks[k]? = some b → p.nulls b = false →
        maskedOut mask (i + k) = false → hashes[i + k]? = some hash → ⟨hash, g⟩ ∈ p'.keysOf b := by
  induction blocks generalizing i p newHashes with
  | nil =>
    cases hrun
    exact ⟨fun _ _ hkey => hkey, fun k b hash hk => by simp at hk⟩
  | cons b blocks ih =>
    have hfresh' : ∀ c ∈ blocks, p.nulls c = false → p.keysOf c = [] := fun c hc =>
      hfresh c (mem_cons_of_mem _ hc)
    rw [cacheFullBlocksLoop, bind_get] at hrun
    by_cases hskip : ((p.blocks b).isNull || maskedOut mask i) = true
    · rw [if_pos hskip] at hrun
      obtain ⟨hold, hnew⟩ := ih hp ((sublist_cons_self b blocks).filter _ |>.nodup hnodup)
        hfresh' hrun
      refine ⟨hold, fun k c hash hk hnull hmask hhash => ?_⟩
      cases k with
      | zero =>
        obtain rfl : b = c := by simpa using hk
        rw [Nat.add_zero] at hmask
        change (p.nulls b || maskedOut mask i) = true at hskip
        rw [hnull, hmask] at hskip
        cases hskip
      | succ k =>
        rw [← Nat.add_assoc, Nat.add_right_comm] at hmask hhash
        exact hnew k c hash (by simpa using hk) hnull hmask hhash
    · rw [if_neg hskip] at hrun
      have hnull : p.nulls b = false := by
        rw [Bool.or_eq_true, not_or, Bool.not_eq_true] at hskip
        exact hskip.1
      cases hhash0 : hashes[i]? with
      | none =>
        rw [hhash0] at hrun
        cases hrun
      | some hash0 =>
        rw [hhash0] at hrun
        -- The block has no keys, so there is nothing to promote.
        have hprimary : (p.blocks b).blockHash = none := by
          have := hfresh b mem_cons_self hnull
          simpa [keysOf] using (append_eq_nil_iff.1 this).1
        have hpromote : promoteBlock b ((nc + i + 1) * bs) p = .ok () p := by
          rw [promoteBlock, bind_get, if_pos hprimary]
          rfl
        obtain ⟨p1, hinsert, hins⟩ := insertBlockHash_spec hp ⟨hash0, g⟩ b
          (some ((nc + i + 1) * bs))
        dsimp only at hrun
        rw [bind_ok hpromote, bind_ok hinsert] at hrun
        obtain ⟨rest, p2, hrest, hrun⟩ := bind_eq_ok.1 hrun
        cases hrun
        have hnotMem : b ∉ blocks.filter fun c => !p.nulls c := by
          rw [filter_cons_of_pos (by simp [hnull])] at hnodup
          exact (nodup_cons.1 hnodup).1
        have hother : ∀ c ∈ blocks, p.nulls c = false → c ≠ b := by
          rintro c hc hnull' rfl
          exact hnotMem (mem_filter.2 ⟨hc, by simp [hnull']⟩)
        have hnulls := hins.frame.nulls_eq
        obtain ⟨hold, hnew⟩ := ih hins.inv (by
            rw [hnulls]
            exact ((sublist_cons_self b blocks).filter _).nodup hnodup)
          (fun c hc hnull' => by
            rw [hnulls] at hnull'
            rw [hins.keysOf_eq, if_neg fun h => hother c hc hnull' h.1]
            exact hfresh' c hc hnull') hrest
        have hkeep : ∀ c, ∀ key ∈ p.keysOf c, key ∈ p1.keysOf c := by
          intro c key hkey
          rw [hins.keysOf_eq]
          split
          · rename_i hc
            exact mem_append_left _ (hc.1 ▸ hkey)
          · exact hkey
        refine ⟨fun c key hkey => hold c key (hkeep c key hkey), fun k c hash hk hnull' hmask hhash => ?_⟩
        cases k with
        | zero =>
          obtain rfl : b = c := by simpa using hk
          obtain rfl : hash0 = hash := some.inj (hhash0.symm.trans hhash)
          refine hold b _ ?_
          rw [hins.keysOf_eq, hfresh b mem_cons_self hnull, if_pos ⟨rfl, not_mem_nil⟩]
          exact mem_singleton_self _
        | succ k =>
          rw [← Nat.add_assoc, Nat.add_right_comm] at hmask hhash
          exact hnew k c hash (by simpa using hk) (hnulls ▸ hnull') hmask hhash

/-- `cache_full_blocks` of blocks without keys keeps all keys, and adds the key of each new full block
that is not masked out. -/
lemma cacheFullBlocks_adds (hp : p.IndexInv)
    (hnodup : (((blocks.take nf).drop nc).filter fun b => !p.nulls b).Nodup)
    (hfresh : ∀ b ∈ (blocks.take nf).drop nc, p.nulls b = false → p.keysOf b = [])
    (hrun : cacheFullBlocks r blocks nc nf bs g mask p = .ok () p') :
    (∀ b, ∀ key ∈ p.keysOf b, key ∈ p'.keysOf b) ∧
      ∀ j b key, NewFullBlock p.hasher p.nulls r blocks nc nf bs g j b key → maskedOut mask (j - nc) = false →
        key ∈ p'.keysOf b := by
  unfold cacheFullBlocks at hrun
  split at hrun
  · rename_i hle
    cases hrun
    exact ⟨fun _ _ hkey => hkey, fun j b key hnew => absurd hnew.lt_full (by
      have := hnew.cached_le
      omega)⟩
  · dsimp only at hrun
    split at hrun
    · rw [bind_get] at hrun
      obtain ⟨resolved, _, hresolve, hcache⟩ := bind_eq_ok.1 hrun
      obtain ⟨hresolved, rfl⟩ := ofExcept_eq_ok.1 hresolve
      obtain ⟨newHashes, p1, hloop, hemit⟩ := bind_eq_ok.1 hcache
      obtain ⟨hold, hnew⟩ := cacheFullBlocksLoop_adds hp hnodup hfresh hloop
      -- The event changes no key.
      have hkeys : ∀ b, p'.keysOf b = p1.keysOf b := by
        have := (keeps_emitBlockStored (I := fun q => ∀ b, q.keysOf b = p1.keysOf b)
          (fun _ _ h => h) r blocks nc nf bs g mask resolved newHashes).ok (fun _ => rfl) hemit
        exact this
      refine ⟨fun b key hkey => hkeys b ▸ hold b key hkey, fun j b key h hmask => ?_⟩
      obtain ⟨hash, resolved', hres, hhash, rfl⟩ := h.hash
      rw [hresolved, Except.ok.injEq] at hres
      subst hres
      rw [hkeys]
      have hj : nc + (j - nc) = j := Nat.add_sub_cancel' h.cached_le
      refine hnew (j - nc) b hash ?_ h.notNull (by rwa [Nat.zero_add]) ?_
      · rw [getElem?_drop, hj, getElem?_take_of_lt h.lt_full, h.block]
      · rw [getElem?_drop, Nat.zero_add, hj, hhash]
    · cases hrun

end Adds

/-! ## The masked pool -/

/-- `p` holds keys of `q` only, and each one of a position that is let through. -/
structure MaskedPool (blockSize : ℕ) (keep : ℕ → Prop) (p q : BlockPool H) : Prop where
  left : p.IndexInv
  right : q.IndexInv
  hasher_eq : p.hasher = q.hasher
  nulls_eq : p.nulls = q.nulls
  sub : ∀ b, ∀ key ∈ p.keysOf b, key ∈ q.keysOf b
  kept : ∀ b, ∀ key ∈ q.keysOf b, (∀ g j, KeyAt q.hasher blockSize g j key → keep j) →
    key ∈ p.keysOf b

section Masked

variable {p q p' q' : BlockPool H} {blockSize nc nf g : ℕ} {keep : ℕ → Prop}

variable {j window alignmentTokens : ℕ} {useEagle : Bool} {key : BlockHashWithGroupId H}
  {mask : Option (List Bool)} {groupIds : List ℕ} {hashes : List H}

/-- The key of a new full block names its position. -/
lemma NewFullBlock.keyAt {b : ℕ} (hb : 0 < blockSize) (hr : r.HashesChained q.hasher)
    (h : NewFullBlock q.hasher q.nulls r blocks nc nf blockSize g j b key) :
    KeyAt q.hasher blockSize g j key := by
  obtain ⟨hash, resolved, hres, hhash, rfl⟩ := h.hash
  obtain ⟨d, hd, heq⟩ := hr.chained.resolve hb hres j hash hhash
  refine ⟨rfl, d, hd, ?_, heq.le⟩
  rw [heq, Nat.add_mul]
  omega

omit [DecidableEq H] in
/-- A new full block is one of the new blocks. -/
lemma NewFullBlock.mem_newBlocks {b : ℕ}
    (h : NewFullBlock q.hasher q.nulls r blocks nc nf blockSize g j b key) :
    b ∈ (blocks.take nf).drop nc := by
  refine mem_of_getElem? (i := j - nc) ?_
  rw [getElem?_drop, Nat.add_sub_cancel' h.cached_le, getElem?_take_of_lt h.lt_full, h.block]

/-- All new keys are keys of new full blocks. -/
lemma cacheFullBlocks_newFullBlock (hp : p.IndexInv)
    (hrun : cacheFullBlocks r blocks nc nf blockSize g mask p = .ok () p') :
    NewKeys p (fun b key => ∃ j, NewFullBlock p.hasher p.nulls r blocks nc nf blockSize g j b key) p' :=
  newKeys_cacheFullBlocks hp (fun j _ hash resolved hle hlt hblock hnull hres hhash =>
    ⟨j, hle, hlt, hblock, hnull, hash, resolved, hres, hhash, rfl⟩) hrun

lemma MaskedPool.cacheFullBlocks (h : MaskedPool blockSize keep p q) (hb : 0 < blockSize)
    (hr : r.HashesChained q.hasher)
    (hmask : ∀ j, nc ≤ j → j < nf → keep j → maskedOut mask (j - nc) = false)
    (hnodup : (((blocks.take nf).drop nc).filter fun b => !q.nulls b).Nodup)
    (hfresh : ∀ b ∈ (blocks.take nf).drop nc, q.nulls b = false → q.keysOf b = [])
    (hp : cacheFullBlocks r blocks nc nf blockSize g mask p = .ok () p')
    (hq : cacheFullBlocks r blocks nc nf blockSize g none q = .ok () q') :
    MaskedPool blockSize keep p' q' ∧ q.IndexFrame q' ∧
      ∀ b ∉ (blocks.take nf).drop nc, q.keysOf b = [] → q'.keysOf b = [] := by
  obtain ⟨hpold, hpnew⟩ := cacheFullBlocks_adds h.left (by rwa [h.nulls_eq])
    (fun b hmem hnull => eq_nil_iff_forall_not_mem.2 fun key hkey => by
      rw [h.nulls_eq] at hnull
      exact absurd (hfresh b hmem hnull ▸ h.sub b key hkey) not_mem_nil) hp
  obtain ⟨hqold, hqnew⟩ := cacheFullBlocks_adds h.right hnodup hfresh hq
  obtain ⟨⟨hpinv, hpframe⟩, hpkeys⟩ := cacheFullBlocks_newFullBlock h.left hp
  obtain ⟨⟨hqinv, hqframe⟩, hqkeys⟩ := cacheFullBlocks_newFullBlock h.right hq
  rw [h.hasher_eq, h.nulls_eq] at hpnew hpkeys
  refine ⟨⟨hpinv, hqinv, ?_, ?_, fun b key hkey => ?_, fun b key hkey hkeep => ?_⟩, hqframe,
    fun b hb hnil => ?_⟩
  · rw [hpframe.hasher_eq, hqframe.hasher_eq, h.hasher_eq]
  · rw [hpframe.nulls_eq, hqframe.nulls_eq, h.nulls_eq]
  · rcases hpkeys b key hkey with hold | ⟨j, hnew⟩
    · exact hqold b key (h.sub b key hold)
    · exact hqnew j b key hnew rfl
  · rw [hqframe.hasher_eq] at hkeep
    rcases hqkeys b key hkey with hold | ⟨j, hnew⟩
    · exact hpold b key (h.kept b key hold hkeep)
    · exact hpnew j b key hnew (hmask j hnew.cached_le hnew.lt_full (hkeep g j (hnew.keyAt hb hr)))
  · refine eq_nil_iff_forall_not_mem.2 fun key hkey => ?_
    rcases hqkeys b key hkey with hold | ⟨j, hnew⟩
    · exact absurd (hnil ▸ hold) not_mem_nil
    · exact hb hnew.mem_newBlocks

/-! ## Calls of `cache_full_blocks` -/

/-- A call of `cache_full_blocks` for a sliding window group. -/
structure CacheCall (H : Type) where
  request : Request H
  blocks : List ℕ
  numCachedBlocks : ℕ
  numFullBlocks : ℕ
  kvCacheGroupId : ℕ
  reachableBoundaries : List ℕ

/-- The blocks of a call that get hashes. -/
def CacheCall.newBlocks (c : CacheCall H) : List ℕ :=
  (c.blocks.take c.numFullBlocks).drop c.numCachedBlocks

/-- One call after the other, each with its mask. -/
def cacheAll (blockSize : ℕ) (mask : CacheCall H → Option (List Bool)) :
    List (CacheCall H) → PoolM H Unit
  | [] => pure ()
  | c :: calls => do
    BlockPool.cacheFullBlocks c.request c.blocks c.numCachedBlocks c.numFullBlocks blockSize
      c.kvCacheGroupId (mask c)
    cacheAll blockSize mask calls

/-- The mask of `cache_blocks` without a retention interval. -/
def CacheCall.windowMask (window blockSize alignmentTokens : ℕ) (useEagle : Bool)
    (c : CacheCall H) : Option (List Bool) :=
  SingleTypeKVCacheManager.slidingWindowBlockMask window blockSize c.numCachedBlocks
    c.numFullBlocks alignmentTokens useEagle none c.reachableBoundaries

/-- The positions that the mask lets through. -/
def Reachable (window blockSize alignmentTokens : ℕ) (useEagle : Bool) (j : ℕ) : Prop :=
  let need := SingleTypeKVCacheManager.contiguousBlocksForHit window blockSize useEagle
  let shift := if useEagle then 1 else 0
  alignmentTokens / blockSize ≤ need ∨
    shift ≤ j ∧ alignmentTokens / blockSize - need ≤ (j - shift) % (alignmentTokens / blockSize)

omit [DecidableEq H] in
/-- Whether a block is let through depends on its position alone. -/
lemma CacheCall.maskedOut_windowMask (c : CacheCall H) (hj : c.numCachedBlocks ≤ j)
    (hlt : j < c.numFullBlocks) (hreach : Reachable window blockSize alignmentTokens useEagle j) :
    maskedOut (c.windowMask window blockSize alignmentTokens useEagle) (j - c.numCachedBlocks) =
      false := by
  unfold CacheCall.windowMask slidingWindowBlockMask
  dsimp only
  split
  · rfl
  · rename_i hneed
    simp only [any_some, decide_eq_true_eq] at hneed
    unfold maskedOut
    dsimp only
    rw [getElem?_map, getElem?_range' (by omega), map_some, Nat.one_mul, Nat.add_sub_cancel' hj]
    have hreach' := decide_eq_true (hreach.resolve_left hneed)
    rw [hreach', Bool.true_or]
    rfl

/-- Calls on blocks without keys, masked on one pool and not on the other. -/
lemma MaskedPool.cacheAll (hb : 0 < blockSize) {calls : List (CacheCall H)}
    (h : MaskedPool blockSize (Reachable window blockSize alignmentTokens useEagle) p q)
    (hr : ∀ c ∈ calls, c.request.HashesChained q.hasher)
    (hnodup : ((calls.flatMap CacheCall.newBlocks).filter fun b => !q.nulls b).Nodup)
    (hfresh : ∀ c ∈ calls, ∀ b ∈ c.newBlocks, q.nulls b = false → q.keysOf b = [])
    (hp : cacheAll blockSize (CacheCall.windowMask window blockSize alignmentTokens useEagle)
      calls p = .ok () p') (hq : cacheAll blockSize (fun _ => none) calls q = .ok () q') :
    MaskedPool blockSize (Reachable window blockSize alignmentTokens useEagle) p' q' ∧
      q'.hasher = q.hasher := by
  induction calls generalizing p q with
  | nil =>
    cases hp
    cases hq
    exact ⟨h, rfl⟩
  | cons c calls ih =>
    obtain ⟨_, p1, hp1, hp⟩ := bind_eq_ok.1 hp
    obtain ⟨_, q1, hq1, hq⟩ := bind_eq_ok.1 hq
    rw [flatMap_cons, filter_append] at hnodup
    obtain ⟨hhead, htail, hapart⟩ := nodup_append.1 hnodup
    obtain ⟨h1, hframe, hkeys⟩ := h.cacheFullBlocks hb (hr c mem_cons_self)
      (fun j hj hlt hreach => c.maskedOut_windowMask hj hlt hreach) hhead
      (hfresh c mem_cons_self) hp1 hq1
    have hfresh1 : ∀ c' ∈ calls, ∀ b ∈ c'.newBlocks, q1.nulls b = false → q1.keysOf b = [] := by
      intro c' hc' b hmem hnull
      rw [hframe.nulls_eq] at hnull
      refine hkeys b (fun hb' => ?_) (hfresh c' (mem_cons_of_mem _ hc') b hmem hnull)
      exact hapart b (mem_filter.2 ⟨hb', by simp [hnull]⟩) b
        (mem_filter.2 ⟨mem_flatMap.2 ⟨c', hc', hmem⟩, by simp [hnull]⟩) rfl
    obtain ⟨h', hhasher⟩ := ih h1
      (fun c' hc' => hframe.hasher_eq.symm ▸ hr c' (mem_cons_of_mem _ hc'))
      (by rwa [hframe.nulls_eq]) hfresh1 hp hq
    exact ⟨h', hhasher.trans hframe.hasher_eq⟩

/-! ## Lookups -/

omit [DecidableEq H] in
/-- A row is cached if each of its groups has a block with its key. -/
lemma isSome_getCachedBlock (hp : p.IndexInv) {hash : H} :
    (p.getCachedBlock hash groupIds).isSome = true ↔
      ∀ g ∈ groupIds, ∃ b, (⟨hash, g⟩ : BlockHashWithGroupId H) ∈ p.keysOf b := by
  induction groupIds with
  | nil => simp [getCachedBlock]
  | cons g groupIds ih =>
    have hone : p.cachedBlockHashToBlock.getOneBlock ⟨hash, g⟩ = (p.stored ⟨hash, g⟩).head? :=
      BlockHashToBlockMap.getOneBlock_eq _ _
    rw [forall_mem_cons, ← ih, getCachedBlock, hone]
    cases hstored : p.stored ⟨hash, g⟩ with
    | nil =>
      simp only [head?_nil, isSome_none, Bool.false_eq_true, false_iff, not_and]
      rintro ⟨b, hb⟩
      rw [← hp.mem_stored_iff, hstored] at hb
      cases hb
    | cons b bs =>
      have hb : (⟨hash, g⟩ : BlockHashWithGroupId H) ∈ p.keysOf b :=
        (hp.mem_stored_iff _ _).1 (hstored ▸ mem_cons_self)
      simp only [head?_cons, isSome_map]
      exact ⟨fun h => ⟨⟨b, hb⟩, h⟩, And.right⟩

/-- What is cached at a position in the masked pool is cached in the other one, and conversely if the
position is let through. -/
lemma MaskedPool.cachedAt (h : MaskedPool blockSize keep p q) (hq : q.hasher.CollisionFree)
    (hhashes : HashesAt q.hasher blockSize hashes) (hb : 0 < blockSize)
    (groupIds : List ℕ) (j : ℕ) :
    ((p.cachedAt groupIds hashes j).isSome = true → (q.cachedAt groupIds hashes j).isSome = true) ∧
      (keep j → (q.cachedAt groupIds hashes j).isSome = true →
        (p.cachedAt groupIds hashes j).isSome = true) := by
  unfold BlockPool.cachedAt
  cases hj : hashes[j]? with
  | none => exact ⟨id, fun _ => id⟩
  | some hash =>
    rw [bind_some, bind_some, isSome_getCachedBlock h.left, isSome_getCachedBlock h.right]
    refine ⟨fun hp g hg => (hp g hg).imp fun b => h.sub b _, fun hkeep hq' g hg => ?_⟩
    obtain ⟨b, hkey⟩ := hq' g hg
    refine ⟨b, h.kept b _ hkey fun g' j' hat => ?_⟩
    obtain ⟨d, hd, heq⟩ := hhashes j hash hj
    have hat' : KeyAt q.hasher blockSize g j ⟨hash, g⟩ :=
      ⟨rfl, d, hd, by rw [heq, Nat.add_mul]; omega, heq.le⟩
    exact hat.index_unique hq hat' ▸ hkeep

/-- Each block that a hit needs is let through. -/
lemma reachable_of_window {a k : ℕ} (hb : 0 < blockSize) (ha : 0 < a) (hdvd : a ∣ k) (hk : 0 < k)
    (hj : j < k ∧ k ≤ j + cdiv (window - 1) blockSize ∨ useEagle = true ∧ j = k) :
    Reachable window blockSize (a * blockSize) useEagle j := by
  unfold Reachable contiguousBlocksForHit
  rw [Nat.mul_div_cancel _ hb]
  obtain ⟨m, rfl⟩ := hdvd
  obtain ⟨m, rfl⟩ : ∃ m', m = m' + 1 := ⟨m - 1, by
    have : m ≠ 0 := fun h => by simp [h] at hk
    omega⟩
  rw [Nat.mul_succ] at hj hk
  refine or_iff_not_imp_left.2 fun hneed => ?_
  cases useEagle with
  | false =>
    simp only [Bool.false_eq_true, if_false, false_and, or_false, Nat.add_zero, Nat.sub_zero] at *
    have hmod : j % a = j - a * m := by
      rw [← Nat.sub_mul_mod (k := m) (by omega), Nat.mod_eq_of_lt (by omega)]
    omega
  | true =>
    simp only [if_true, true_and] at *
    have hmod : (j - 1) % a = j - 1 - a * m := by
      rw [← Nat.sub_mul_mod (k := m) (by omega), Nat.mod_eq_of_lt (by omega)]
    omega

/-- The masked pool has the same lengths at which a hit may end. -/
lemma MaskedPool.windowHits_eq
    (h : MaskedPool blockSize (Reachable window blockSize alignmentTokens useEagle) p q)
    (hq : q.hasher.CollisionFree) (hhashes : HashesAt q.hasher blockSize hashes)
    (hb : 0 < blockSize) (halign : 0 < alignmentTokens) (hdvd : blockSize ∣ alignmentTokens)
    (groupIds : List ℕ) (maxLength : ℕ) :
    p.windowHits groupIds hashes blockSize window alignmentTokens maxLength useEagle =
      q.windowHits groupIds hashes blockSize window alignmentTokens maxLength useEagle := by
  obtain ⟨a, rfl⟩ := hdvd
  rw [Nat.mul_comm blockSize a] at *
  have ha : 0 < a := Nat.pos_of_mul_pos_right halign
  ext n
  refine or_congr_right' fun hne => and_congr_right fun hn => and_congr_right fun _ => ?_
  obtain ⟨k, hak, rfl⟩ : ∃ k, a ∣ k ∧ n = k * blockSize := by
    obtain ⟨m, rfl⟩ := hn
    exact ⟨a * m, Nat.dvd_mul_right a m, by rw [Nat.mul_right_comm]⟩
  have hk : 0 < k := Nat.pos_of_ne_zero fun h0 => hne (by rw [h0, Nat.zero_mul])
  have hat := h.cachedAt hq hhashes hb groupIds
  rw [servesWindow_iff hb, servesWindow_iff hb]
  constructor
  · rintro ⟨hwindow, hahead⟩
    exact ⟨fun j hj hjw => (hat j).1 (hwindow j hj hjw), fun he => (hat k).1 (hahead he)⟩
  · rintro ⟨hwindow, hahead⟩
    exact ⟨fun j hj hjw => (hat j).2 (reachable_of_window hb ha hak hk (.inl ⟨hj, hjw⟩))
        (hwindow j hj hjw),
      fun he => (hat k).2 (reachable_of_window hb ha hak hk (.inr ⟨he, rfl⟩)) (hahead he)⟩

omit [DecidableEq H] in
/-- Pools with the same lengths at which a hit may end have the same hit length. -/
lemma hit_of_windowHits_eq {maxLength n : ℕ} {drop : Bool} {blockHashes : List H}
    (hb : 0 < blockSize) (halign : 0 < alignmentTokens)
    (hw : 1 < window ∨ drop = true) (hhasher : p.hasher = q.hasher)
    (hhits : ∀ hashes, resolveBlockHashes blockHashes q.hasher.hashBlockSize blockSize = .ok hashes →
      p.windowHits groupIds hashes blockSize window alignmentTokens maxLength drop =
        q.windowHits groupIds hashes blockSize window alignmentTokens maxLength drop)
    (h : ∃ rows, p.slidingWindowHit blockHashes maxLength groupIds blockSize window drop
      alignmentTokens = .ok (rows, n)) :
    ∃ rows, q.slidingWindowHit blockHashes maxLength groupIds blockSize window drop
      alignmentTokens = .ok (rows, n) := by
  obtain ⟨rows, hhit⟩ := h
  obtain ⟨hmod, hashes, hresolve, hcover⟩ := slidingWindowHit_inv hhit
  obtain ⟨rows1, n1, best1, hhit1, hbest1, hn1⟩ :=
    slidingWindowHit_longest hb halign hmod hresolve hcover groupIds hw
  rw [hhasher] at hresolve
  obtain ⟨rows2, n2, best2, hhit2, hbest2, hn2⟩ :=
    slidingWindowHit_longest hb halign hmod hresolve hcover groupIds hw
  rw [hhits hashes (resolveLookupHashes_eq_ok hresolve)] at hbest1
  rw [hhit, Except.ok.injEq, Prod.mk.injEq] at hhit1
  rw [hhit1.2, hn1, hbest1.unique hbest2, ← hn2]
  exact ⟨rows2, hhit2⟩

end Masked

/-- Masked caching loses no hits: requests are cached in any increments, once with
`reachable_block_mask` and once without, each full block in a block of its own.  Then every lookup of
every request returns the same length in both pools. -/
theorem reachable_mask_loses_no_hits (p₀ p q : BlockPool H) (hp₀ : PoolReachable p₀)
    (hfree : p₀.hasher.CollisionFree) (window blockSize alignmentTokens : ℕ) (useEagle : Bool)
    (hb : 0 < blockSize) (halign : 0 < alignmentTokens) (hdvd : blockSize ∣ alignmentTokens)
    (hw : 1 < window ∨ useEagle = true) (calls : List (CacheCall H))
    (hcalls : ∀ c ∈ calls, c.request.HashesChained p₀.hasher)
    (hnodup : ((calls.flatMap CacheCall.newBlocks).filter fun b => !(p₀.blocks b).isNull).Nodup)
    (hfresh : ∀ c ∈ calls, ∀ b ∈ c.newBlocks, (p₀.blocks b).isNull = false → p₀.keysOf b = [])
    (hp : cacheAll blockSize (CacheCall.windowMask window blockSize alignmentTokens useEagle) calls
      p₀ = .ok () p)
    (hq : cacheAll blockSize (fun _ => none) calls p₀ = .ok () q) (r : Request H)
    (hr : r.HashesChained p₀.hasher) (groupIds : List ℕ) (maxLength n : ℕ) :
    (∃ rows, p.slidingWindowHit r.blockHashes maxLength groupIds blockSize window useEagle
        alignmentTokens = .ok (rows, n)) ↔
      ∃ rows, q.slidingWindowHit r.blockHashes maxLength groupIds blockSize window useEagle
        alignmentTokens = .ok (rows, n) := by
  have hindex := hp₀.indexInv
  have hstart : MaskedPool blockSize (Reachable window blockSize alignmentTokens useEagle) p₀ p₀ :=
    ⟨hindex, hindex, rfl, rfl, fun _ _ hkey => hkey, fun _ _ hkey _ => hkey⟩
  obtain ⟨hmasked, hhasher⟩ := hstart.cacheAll hb hcalls hnodup hfresh hp hq
  have hhits : ∀ hashes, resolveBlockHashes r.blockHashes q.hasher.hashBlockSize blockSize =
      .ok hashes → p.windowHits groupIds hashes blockSize window alignmentTokens maxLength useEagle =
        q.windowHits groupIds hashes blockSize window alignmentTokens maxLength useEagle := by
    intro hashes hresolve
    rw [← hhasher] at hr hfree
    exact hmasked.windowHits_eq hfree (hr.chained.resolve hb hresolve) hb halign hdvd groupIds
      maxLength
  refine ⟨hit_of_windowHits_eq hb halign hw hmasked.hasher_eq hhits,
    hit_of_windowHits_eq hb halign hw hmasked.hasher_eq.symm fun hashes hresolve => ?_⟩
  exact (hhits hashes (hmasked.hasher_eq ▸ hresolve)).symm

/-- A request of twenty tokens. -/
def fiveBlocks : Request FreeHash := textRequest ((List.range 20).map Int.ofNat)

/-- Five blocks of a request, cached in two increments. -/
def twoIncrements : List (CacheCall FreeHash) :=
  [⟨fiveBlocks, [1, 2, 3, 4, 5], 0, 2, 0, []⟩,
    ⟨fiveBlocks, [1, 2, 3, 4, 5], 2, 5, 0, []⟩]

/-- Both ways of caching them, from an empty pool, can be evaluated. -/
lemma exists_cacheAll (window : ℕ) (Q : BlockPool FreeHash → BlockPool FreeHash →
      BlockPool FreeHash → Prop) [∀ p₀ p q, Decidable (Q p₀ p q)]
    (h : (init 8 true freeHasher false).toOption.any (fun p₀ =>
      match cacheAll 4 (CacheCall.windowMask window 4 8 false) twoIncrements p₀,
        cacheAll 4 (fun _ => none) twoIncrements p₀ with
      | .ok _ p, .ok _ q => decide (Q p₀ p q)
      | _, _ => false) = true) :
    ∃ p₀ p q, init 8 true freeHasher false = .ok p₀ ∧
      cacheAll 4 (CacheCall.windowMask window 4 8 false) twoIncrements p₀ = .ok () p ∧
      cacheAll 4 (fun _ => none) twoIncrements p₀ = .ok () q ∧ Q p₀ p q := by
  cases hp₀ : init 8 true freeHasher false with
  | error e =>
    rw [hp₀] at h
    cases h
  | ok p₀ =>
    rw [hp₀, Except.toOption, any_some] at h
    split at h
    · rename_i _ p _ q hp hq
      exact ⟨p₀, p, q, rfl, hp, hq, of_decide_eq_true h⟩
    · cases h

/-- A window of five tokens: of the five blocks the mask lets the second and the fourth through. -/
theorem masked_increments_lose_no_hits :
    ∃ p₀ p q : BlockPool FreeHash, BlockPool.init 8 true freeHasher false = .ok p₀ ∧
      cacheAll 4 (CacheCall.windowMask 5 4 8 false) twoIncrements p₀ = .ok () p ∧
      cacheAll 4 (fun _ => none) twoIncrements p₀ = .ok () q ∧ p.keysOf 3 = [] ∧ q.keysOf 3 ≠ [] ∧
      ∀ maxLength n, (∃ rows, p.slidingWindowHit fiveBlocks.blockHashes maxLength [0] 4 5 false 8 =
          .ok (rows, n)) ↔
        ∃ rows, q.slidingWindowHit fiveBlocks.blockHashes maxLength [0] 4 5 false 8 =
          .ok (rows, n) := by
  obtain ⟨p₀, p, q, hp₀, hp, hq, hmasked, hkept, hfresh, hhashes⟩ := exists_cacheAll 5
    (fun p₀ p q => p.keysOf 3 = [] ∧ q.keysOf 3 ≠ [] ∧
      (∀ c ∈ twoIncrements, ∀ b ∈ c.newBlocks, p₀.keysOf b = []) ∧
      fiveBlocks.blockHashes = chainHashes p₀.hasher
        ((List.range 5).map fun i => ((List.range 4).map fun k => Int.ofNat (4 * i + k), none)))
    (by decide +kernel)
  obtain ⟨-, _, _, -, hpool⟩ := init_eq_ok hp₀
  have hfree : p₀.hasher.CollisionFree := by
    rw [hpool]
    exact freeHasher_collisionFree
  have hchained : fiveBlocks.HashesChained p₀.hasher := ⟨_, hhashes⟩
  refine ⟨p₀, p, q, hp₀, hp, hq, hmasked, hkept, fun maxLength n => ?_⟩
  refine reachable_mask_loses_no_hits p₀ p q (.init hp₀) hfree 5 4 8 false (by decide) (by decide)
    (by decide) (.inl (by decide)) twoIncrements (fun c hc => ?_)
    (filter_sublist.nodup (by decide)) (fun c hc b hb _ => hfresh c hc b hb) hp hq _ hchained
    [0] maxLength n
  simp only [twoIncrements, mem_cons, not_mem_nil, or_false] at hc
  rcases hc with rfl | rfl
  · exact hchained
  · exact hchained

/-- With a window of one token and without EAGLE the mask lets nothing through, but the lookup is
content with one cached block in front of a boundary. -/
theorem one_token_window_mask_loses_hits :
    ∃ p₀ p q : BlockPool FreeHash, BlockPool.init 8 true freeHasher false = .ok p₀ ∧
      cacheAll 4 (CacheCall.windowMask 1 4 8 false) twoIncrements p₀ = .ok () p ∧
      cacheAll 4 (fun _ => none) twoIncrements p₀ = .ok () q ∧
      (p.slidingWindowHit fiveBlocks.blockHashes 20 [0] 4 1 false 8).toOption.map Prod.snd = some 0 ∧
      (q.slidingWindowHit fiveBlocks.blockHashes 20 [0] 4 1 false 8).toOption.map Prod.snd =
        some 16 := by
  exact exists_cacheAll 1 _ (by decide +kernel)

end BlockPool

end Lvllm
