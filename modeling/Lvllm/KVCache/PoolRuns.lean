import Lvllm.KVCache.HashIndex
import Lvllm.Request.IncrementalHashing

/-!
# Runs of the block pool

`PoolOp` lists the operations of the pool with their arguments, and `PoolOp.run` runs one.  A pool
is reachable when operations lead to it from a new pool; an operation that raises leads to the
state it raised in.

The operations on hashes touch neither the queue nor the reference counts, whether they return or
raise, and every operation keeps `IndexInv`.  From this the consistency of the hash index holds in
every reachable pool.
-/

namespace Lvllm

open List BlockHashToBlockMap BlockPool

namespace BlockPool

variable {H : Type} {p p' p₀ : BlockPool H} {α : Type} {b : ℕ}

/-! ## Parts that no hash depends on -/

/-- The invariant reads only the hashes and the index. -/
lemma IndexInv.congr (h : p.IndexInv)
    (hhash : ∀ b, (p'.blocks b).blockHash = (p.blocks b).blockHash)
    (hnum : ∀ b, (p'.blocks b).blockHashNumTokens = (p.blocks b).blockHashNumTokens)
    (hmap : p'.cachedBlockHashToBlock = p.cachedBlockHashToBlock)
    (hby : p'.cachedBlockHashesByBlock = p.cachedBlockHashesByBlock) : p'.IndexInv := by
  have hkeys : ∀ b, p'.keysOf b = p.keysOf b := fun b => by simp [keysOf, hhash, hby]
  have hstored : ∀ k, p'.stored k = p.stored k := fun k => by simp [stored, hmap]
  refine ⟨fun k b => ?_, fun b hb => ?_, hmap ▸ h.noEmptyDict, fun k => ?_, fun b => ?_,
    fun b hb => ?_⟩
  · rw [hkeys, hstored]
    exact h.mem_stored_iff k b
  · rw [hby]
    exact h.secondary_none b (hhash b ▸ hb)
  · rw [hstored]
    exact h.stored_nodup k
  · rw [hkeys]
    exact h.keysOf_nodup b
  · rw [hnum]
    exact h.numTokens_none b (hhash b ▸ hb)

/-- Changing the reference count of a block keeps the invariant. -/
lemma IndexInv.setRefCnt (h : p.IndexInv) (b : ℕ) (n : ℤ) :
    (p.setBlock b { p.blocks b with refCnt := n }).IndexInv := by
  refine h.congr (fun c => ?_) (fun c => ?_) rfl rfl
  · by_cases hc : c = b <;> simp [setBlock, hc]
  · by_cases hc : c = b <;> simp [setBlock, hc]

lemma IndexInv.setQueue (h : p.IndexInv) (q : FreeKVCacheBlockQueue) :
    ({ p with freeBlockQueue := q } : BlockPool H).IndexInv :=
  h.congr (fun _ => rfl) (fun _ => rfl) rfl rfl

/-- The hash index is consistent, and the rest of the pool is that of `p₀`. -/
def IndexAt (p₀ p : BlockPool H) : Prop := p.IndexInv ∧ p₀.IndexFrame p

/-- Code that keeps the index consistent and the rest of the pool keeps the index consistent. -/
lemma keeps_indexInv {m : PoolM H α} (h : ∀ p₀, Keeps (IndexAt p₀) m) : Keeps IndexInv m :=
  keeps_iff.2 fun p hp => (keeps_iff.1 (h p) p ⟨hp, .refl p⟩).1

/-- Code that keeps the index consistent and the rest of the pool keeps the rest of the pool. -/
lemma indexFrame_finalState {m : PoolM H α} (h : ∀ p₀, Keeps (IndexAt p₀) m)
    (hp : p.IndexInv) : p.IndexFrame (finalState m p) :=
  (keeps_iff.1 (h p) p ⟨hp, .refl p⟩).2

lemma IndexAt.addEvents (p : BlockPool H) (es : List (KVCacheEvent H)) (h : IndexAt p₀ p) :
    IndexAt p₀ { p with kvEventQueue := p.kvEventQueue ++ es } :=
  ⟨h.1.congr (fun _ => rfl) (fun _ => rfl) rfl rfl,
    h.2.trans ⟨rfl, rfl, rfl, rfl, rfl, rfl, fun _ => rfl, fun _ => rfl⟩⟩

lemma keeps_ofExcept (I : BlockPool H → Prop) (x : Except PyErr α) :
    Keeps I (ofExcept x : PoolM H α) := by
  cases x with
  | ok a => exact .pure a
  | error e => exact .throw e

/-! ## Operations on hashes -/

section Rules

variable {I : BlockPool H → Prop}
  (hI : ∀ p es, I p → I { p with kvEventQueue := p.kvEventQueue ++ es })

include hI

lemma keeps_emitBlockRemovedEvents (keys : List (BlockHashWithGroupId H)) :
    Keeps I (emitBlockRemovedEvents keys) := by
  refine .modify fun p hp => ?_
  split
  · exact hI p _ hp
  · exact hp

/-- `emit_block_stored` only adds events, so it keeps what does not depend on them. -/
lemma keeps_emitBlockStored (r : Request H) (blocks : List ℕ) (nc nf bs g : ℕ)
    (mask : Option (List Bool)) (hashes newHashes : List H) :
    Keeps I (emitBlockStored r blocks nc nf bs g mask hashes newHashes) := by
  refine .bind .get fun p => .ite ?_ (.pure _)
  have hrest : ∀ (x : Except PyErr (List (Option (List ExtraKey))))
      (event : List (Option (List ExtraKey)) → KVCacheEvent H),
      Keeps I (ofExcept x >>= fun l =>
        (modify fun p => { p with kvEventQueue := p.kvEventQueue ++ [event l] } :
          PoolM H Unit)) := by
    intro x event
    exact .bind (keeps_ofExcept _ _) fun _ => .modify fun p hp => hI p _ hp
  split
  · exact .bind (.pure _) fun _ => hrest _ _
  · split
    · exact .bind (.throw _) fun _ => hrest _ _
    · exact .bind (.pure _) fun _ => hrest _ _

variable [DecidableEq H]

lemma keeps_insertAndEmit {key : BlockHashWithGroupId H} {k : Option ℕ}
    (hinsert : Keeps I (insertBlockHash key b k)) (c : Bool)
    (event : BlockPool H → KVCacheEvent H) : Keeps I (do
      insertBlockHash key b k
      if c then
        modify fun p => { p with kvEventQueue := p.kvEventQueue ++ [event p] }
      else pure ()
      pure (some key)) :=
  .bind hinsert fun _ => .ite (.bind (.modify fun p hp => hI p _ hp) fun _ => .pure _) (.pure _)

variable (hremove : ∀ b, Keeps I (removeCachedBlockHashes b))

include hremove

lemma keeps_promoteBlock (b n : ℕ) : Keeps I (promoteBlock b n) := by
  refine .bind .get fun p => .ite (.pure _) (.ite ?_ (.throw _))
  exact .bind (hremove b) fun keys => keeps_emitBlockRemovedEvents hI keys

lemma keeps_maybeEvictCachedBlock (b : ℕ) : Keeps I (maybeEvictCachedBlock b) := by
  refine .bind (hremove b) fun keys => .ite (.pure _) ?_
  exact .bind (keeps_emitBlockRemovedEvents hI keys) fun _ => .pure _

/-- Evicting removes hashes and adds events. -/
lemma keeps_evictBlocks_of (bs : List ℕ) : Keeps I (evictBlocks bs) := by
  induction bs with
  | nil => exact .pure _
  | cons b bs ih =>
    refine .bind .get fun p => .ite ?_ (.throw _)
    exact .bind (keeps_maybeEvictCachedBlock hI hremove b) fun _ => ih

end Rules

section Hashes

variable [DecidableEq H]

lemma keeps_removeCachedBlockHashes (b : ℕ) : Keeps (IndexAt p₀) (removeCachedBlockHashes b) := by
  intro p hp
  obtain ⟨p', hrun, hinv, hframe, -⟩ := removeCachedBlockHashes_spec hp.1 b
  rw [hrun]
  exact ⟨hinv, hp.2.trans hframe⟩

lemma keeps_insertBlockHash (key : BlockHashWithGroupId H) (b : ℕ) (n : Option ℕ) :
    Keeps (IndexAt p₀) (insertBlockHash key b n) := by
  intro p hp
  obtain ⟨p', hrun, hins⟩ := insertBlockHash_spec hp.1 key b n
  rw [hrun]
  exact ⟨hins.inv, hp.2.trans hins.frame⟩

lemma keeps_cacheFullBlocksLoop (hashes : List H) (nc bs g : ℕ) (mask : Option (List Bool))
    (i : ℕ) (blocks : List ℕ) :
    Keeps (IndexAt p₀) (cacheFullBlocksLoop hashes nc bs g mask i blocks) := by
  induction blocks generalizing i with
  | nil => exact .pure _
  | cons b blocks ih =>
    refine .bind .get fun p => .ite (ih (i + 1)) ?_
    split
    · exact .throw _
    · refine .bind (keeps_promoteBlock IndexAt.addEvents keeps_removeCachedBlockHashes b _) fun _ =>
        .bind (keeps_insertBlockHash _ b _) fun _ => ?_
      exact .bind (ih (i + 1)) fun _ => .pure _

lemma keeps_cacheFullBlocks (r : Request H) (blocks : List ℕ) (nc nf bs g : ℕ)
    (mask : Option (List Bool)) :
    Keeps (IndexAt p₀) (cacheFullBlocks r blocks nc nf bs g mask) := by
  refine .ite (.pure _) (.ite ?_ (.throw _))
  refine .bind .get fun p => .bind (keeps_ofExcept _ _) fun hashes => ?_
  exact .bind (keeps_cacheFullBlocksLoop _ nc bs g mask 0 _) fun newHashes =>
    keeps_emitBlockStored IndexAt.addEvents r blocks nc nf bs g mask hashes newHashes

lemma keeps_cachePartialBlock (r : Request H) (b n g bs : ℕ) :
    Keeps (IndexAt p₀) (cachePartialBlock r b n g bs) := by
  refine .bind .get fun p => .ite (.pure _) (.ite (.throw _) ?_)
  refine .bind (keeps_ofExcept _ _) fun hash => .ite ?_
    (keeps_insertAndEmit IndexAt.addEvents (keeps_insertBlockHash _ b _) _ _)
  refine .bind (keeps_removeCachedBlockHashes b) fun keys => ?_
  exact .bind (keeps_emitBlockRemovedEvents IndexAt.addEvents keys) fun _ =>
    keeps_insertAndEmit IndexAt.addEvents (keeps_insertBlockHash _ b _) _ _

lemma keeps_insertBlockHashes (b : ℕ) (n : Option ℕ) (keys : List (BlockHashWithGroupId H)) :
    Keeps (IndexAt p₀) (insertBlockHashes b n keys) := by
  induction keys with
  | nil => exact .pure _
  | cons key keys ih => exact .bind (keeps_insertBlockHash key b n) fun _ => ih

lemma keeps_moveBlockHashes (src dst : ℕ) : Keeps (IndexAt p₀) (moveBlockHashes src dst) := by
  refine .bind .get fun p => .ite (.throw _) ?_
  exact .bind (keeps_removeCachedBlockHashes src) fun keys => keeps_insertBlockHashes dst _ keys

lemma keeps_evictBlocks (bs : List ℕ) : Keeps (IndexAt p₀) (evictBlocks bs) :=
  keeps_evictBlocks_of IndexAt.addEvents keeps_removeCachedBlockHashes bs

end Hashes

/-! ## Operations on references -/

variable {bs : List ℕ} {hasher : BlockHasher H} {n : ℕ} {groups : List ℕ}

section Rules

variable {I : BlockPool H → Prop} (hqueue : ∀ p q, I p → I { p with freeBlockQueue := q })

include hqueue

/-- Code on the free queue keeps what does not depend on it. -/
lemma keeps_onQueue (m : FreeKVCacheBlockQueue.QueueM α) : Keeps I (onQueue m : PoolM H α) := by
  refine keeps_iff.2 fun p hp => ?_
  unfold finalState onQueue zoomWith
  cases m p.freeBlockQueue <;> exact hqueue p _ hp

variable (href : ∀ p b n, I p → I (p.setBlock b { p.blocks b with refCnt := n }))

include href

lemma keeps_touch (bs : List ℕ) : Keeps I (touch bs : PoolM H Unit) := by
  induction bs with
  | nil => exact .pure _
  | cons b bs ih =>
    have hrest : Keeps I (do
        modify fun p => p.setBlock b { p.blocks b with refCnt := (p.blocks b).refCnt + 1 }
        touch bs : PoolM H Unit) :=
      .bind (.modify fun p hp => href p b _ hp) fun _ => ih
    exact .bind .get fun p => .ite (.bind (keeps_onQueue hqueue _) fun _ => hrest) hrest

lemma keeps_freeBlocks (bs : List ℕ) : Keeps I (freeBlocks bs : PoolM H Unit) := by
  have hrelease : Keeps I (releaseBlocks bs : PoolM H (List ℕ × List ℕ)) := by
    induction bs with
    | nil => exact .pure _
    | cons b bs ih =>
      refine .bind (.modify fun p hp => href p b _ hp) fun _ => .bind .get fun p => ?_
      exact .bind ih fun _ => .ite (.ite (.pure _) (.pure _)) (.pure _)
  refine .bind hrelease fun _ => ?_
  exact .bind (keeps_onQueue hqueue _) fun _ => keeps_onQueue hqueue _

/-- Getting blocks evicts them and takes a reference of each. -/
lemma keeps_getNewBlocks [DecidableEq H] (hevict : ∀ b, Keeps I (maybeEvictCachedBlock b))
    (n : ℕ) : Keeps I (getNewBlocks n : PoolM H (List ℕ)) := by
  have hclaim : ∀ bs, Keeps I (claimBlocks bs : PoolM H Unit) := by
    intro bs
    induction bs with
    | nil => exact .pure _
    | cons b bs ih =>
      have hrest : Keeps I (do
          let p ← get
          if (p.blocks b).refCnt ≠ 0 then throw .assertionError
          else
            set (p.setBlock b { p.blocks b with refCnt := (p.blocks b).refCnt + 1 })
            claimBlocks bs : PoolM H Unit) := by
        refine .get_bind fun p hp => ?_
        by_cases hzero : (p.blocks b).refCnt ≠ 0
        · rw [if_pos hzero]
          exact hp
        · rw [if_neg hzero]
          exact ih _ (href p b _ hp)
      exact .bind .get fun p => .ite (.bind (hevict b) fun _ => hrest) hrest
  refine .bind .get fun p => .ite (.throw _) (.bind (keeps_onQueue hqueue _) fun nodes => ?_)
  exact .bind (hclaim _) fun _ => .pure _

end Rules

section References

variable [DecidableEq H]

/-- `_maybe_evict_cached_block` takes every key from the block. -/
lemma maybeEvictCachedBlock_spec (h : p.IndexInv) (b : ℕ) :
    ∃ p' evicted, maybeEvictCachedBlock b p = .ok evicted p' ∧ p'.IndexInv ∧ p.IndexFrame p' ∧
      ∀ c, p'.keysOf c = if c = b then [] else p.keysOf c := by
  obtain ⟨p1, hrun, hinv, hframe, -, -, hkeys, -⟩ := removeCachedBlockHashes_spec h b
  unfold maybeEvictCachedBlock
  rw [bind_ok hrun]
  split
  · exact ⟨p1, false, rfl, hinv, hframe, hkeys⟩
  · refine ⟨_, true, rfl, ?_⟩
    dsimp only
    split
    · obtain ⟨hinv', hframe'⟩ := IndexAt.addEvents _ ((p.keysOf b).map fun key =>
          .blockRemoved { blockHashes := [key.blockHash], groupIdx := key.groupId }) ⟨hinv, hframe⟩
      exact ⟨hinv', hframe', hkeys⟩
    · exact ⟨hinv, hframe, hkeys⟩

/-- What the loop of `get_new_blocks` did to the pool when it returned. -/
structure Claimed (bs : List ℕ) (p p' : BlockPool H) : Prop where
  inv : p'.IndexInv
  numGpuBlocks_eq : p'.numGpuBlocks = p.numGpuBlocks
  enableCaching_eq : p'.enableCaching = p.enableCaching
  hasher_eq : p'.hasher = p.hasher
  freeBlockQueue_eq : p'.freeBlockQueue = p.freeBlockQueue
  nullBlock_eq : p'.nullBlock = p.nullBlock
  enableKvCacheEvents_eq : p'.enableKvCacheEvents = p.enableKvCacheEvents
  isNull_eq : ∀ b, (p'.blocks b).isNull = (p.blocks b).isNull
  refCnt_eq : ∀ b, (p'.blocks b).refCnt = if b ∈ bs then 1 else (p.blocks b).refCnt
  keysOf_eq : ∀ b, p'.keysOf b = if b ∈ bs ∧ p.enableCaching then [] else p.keysOf b

section

omit [DecidableEq H]

/-- Taking one reference of a block without references. -/
lemma Claimed.of_indexFrame (hinv : p'.IndexInv) (hframe : p.IndexFrame p')
    (hkeys : ∀ c, p'.keysOf c = if c = b ∧ p.enableCaching then [] else p.keysOf c)
    (href : (p'.blocks b).refCnt = 0) :
    Claimed [b] p (p'.setBlock b { p'.blocks b with refCnt := (p'.blocks b).refCnt + 1 }) := by
  refine ⟨hinv.setRefCnt b _, hframe.1, hframe.2, hframe.3, hframe.4, hframe.5, hframe.6,
    fun c => ?_, fun c => ?_, fun c => ?_⟩
  · by_cases hc : c = b
    · subst hc
      simpa [setBlock] using hframe.isNull_eq c
    · simpa [setBlock, hc] using hframe.isNull_eq c
  · by_cases hc : c = b
    · subst hc
      simp [setBlock, href]
    · simpa [setBlock, hc] using hframe.refCnt_eq c
  · have hkeep : (p'.setBlock b { p'.blocks b with refCnt := (p'.blocks b).refCnt + 1 }).keysOf c =
        p'.keysOf c := by
      by_cases hc : c = b <;> simp [setBlock, keysOf, hc]
    simp only [hkeep, hkeys, mem_singleton]

lemma Claimed.cons {p'' : BlockPool H} (h : Claimed [b] p p') (h' : Claimed bs p' p'') :
    Claimed (b :: bs) p p'' := by
  refine ⟨h'.inv, h'.2.trans h.2, h'.3.trans h.3, h'.4.trans h.4, h'.5.trans h.5, h'.6.trans h.6,
    h'.7.trans h.7, fun c => (h'.8 c).trans (h.8 c), fun c => ?_, fun c => ?_⟩
  · rw [h'.refCnt_eq, h.refCnt_eq]
    by_cases hc : c ∈ bs <;> simp [hc]
  · rw [h'.keysOf_eq, h.keysOf_eq, h.enableCaching_eq]
    by_cases hc : c ∈ bs <;> cases p.enableCaching <;> simp [hc]

lemma Claimed.nil (h : p.IndexInv) : Claimed [] p p := by
  constructor <;> first | exact h | simp

end

/-- One round of the loop of `get_new_blocks`. -/
lemma claimBlocks_cons (h : p.IndexInv) (b : ℕ) (bs : List ℕ) :
    ∃ p', p'.IndexInv ∧ p.IndexFrame p' ∧
      (∀ c, p'.keysOf c = if c = b ∧ p.enableCaching then [] else p.keysOf c) ∧
      claimBlocks (b :: bs) p = if (p'.blocks b).refCnt ≠ 0 then .error .assertionError p'
        else claimBlocks bs
          (p'.setBlock b { p'.blocks b with refCnt := (p'.blocks b).refCnt + 1 }) := by
  have hrest : ∀ p' : BlockPool H, (do
      let p ← get
      if (p.blocks b).refCnt ≠ 0 then throw .assertionError
      else
        set (p.setBlock b { p.blocks b with refCnt := (p.blocks b).refCnt + 1 })
        claimBlocks bs : PoolM H Unit) p' =
      if (p'.blocks b).refCnt ≠ 0 then .error .assertionError p' else claimBlocks bs
          (p'.setBlock b { p'.blocks b with refCnt := (p'.blocks b).refCnt + 1 }) := by
    intro p'
    by_cases href : (p'.blocks b).refCnt = 0 <;> simp [bind_apply, href]
  cases hc : p.enableCaching with
  | false =>
    refine ⟨p, h, .refl p, fun c => by simp, ?_⟩
    rw [← hrest p]
    simp only [claimBlocks]
    rw [bind_get]
    simp [hc]
  | true =>
    obtain ⟨p', evicted, hrun, hinv, hframe, hkeys⟩ := maybeEvictCachedBlock_spec h b
    refine ⟨p', hinv, hframe, fun c => by rw [hkeys]; simp, ?_⟩
    rw [← hrest p']
    simp only [claimBlocks]
    rw [bind_get]
    simp only [hc, if_true]
    rw [bind_ok hrun]

/-- When the loop of `get_new_blocks` returns, each block has one reference. -/
lemma claimBlocks_ok (h : p.IndexInv) (hrun : claimBlocks bs p = .ok () p') : Claimed bs p p' := by
  induction bs generalizing p with
  | nil =>
    cases hrun
    exact .nil h
  | cons b bs ih =>
    obtain ⟨p1, hinv, hframe, hkeys, heq⟩ := claimBlocks_cons h b bs
    rw [heq] at hrun
    split at hrun
    · cases hrun
    · rename_i href
      rw [not_not] at href
      have hclaimed := Claimed.of_indexFrame hinv hframe hkeys href
      exact hclaimed.cons (ih hclaimed.inv hrun)

/-- The loop of `get_new_blocks` returns on distinct blocks without references. -/
lemma claimBlocks_returns (h : p.IndexInv) (hnodup : bs.Nodup)
    (hzero : ∀ b ∈ bs, (p.blocks b).refCnt = 0) : ∃ p', claimBlocks bs p = .ok () p' := by
  induction bs generalizing p with
  | nil => exact ⟨p, rfl⟩
  | cons b bs ih =>
    obtain ⟨hb, hnodup⟩ := nodup_cons.1 hnodup
    obtain ⟨p1, hinv, hframe, hkeys, heq⟩ := claimBlocks_cons h b bs
    have href : (p1.blocks b).refCnt = 0 := (hframe.refCnt_eq b).trans (hzero b mem_cons_self)
    have hclaimed := Claimed.of_indexFrame hinv hframe hkeys href
    rw [heq, if_neg (not_not.2 href)]
    refine ih hclaimed.inv hnodup fun c hc => ?_
    have hne : c ∉ [b] := fun hcb => hb (mem_singleton.1 hcb ▸ hc)
    rw [hclaimed.refCnt_eq, if_neg hne]
    exact hzero c (mem_cons_of_mem b hc)

section

omit [DecidableEq H]

/-- A pool without any hash is consistent. -/
lemma IndexInv.of_noHashes (hmap : p.cachedBlockHashToBlock = {})
    (hby : ∀ b, p.cachedBlockHashesByBlock b = none) (hhash : ∀ b, (p.blocks b).blockHash = none)
    (hnum : ∀ b, (p.blocks b).blockHashNumTokens = none) : p.IndexInv := by
  have hkeys : ∀ b, p.keysOf b = [] := fun b => by simp [keysOf, hhash, hby]
  have hstored : ∀ k, p.stored k = [] := fun k => by simp [stored, hmap]
  refine ⟨fun k b => by simp [hkeys, hstored], fun b _ => hby b, ?_, fun k => by simp [hstored],
    fun b => by simp [hkeys], fun b _ => hnum b⟩
  rw [hmap]
  exact noEmptyDict_empty

lemma keeps_resetPrefixCache : Keeps (IndexAt p₀) (resetPrefixCache : PoolM H Bool) := by
  refine .get_bind fun p hp => ?_
  by_cases hused : (p.numGpuBlocks : ℤ) - p.getNumFreeBlocks ≠ 1
  · rw [if_pos hused]
    exact hp
  · rw [if_neg hused]
    exact ⟨.of_noHashes rfl (fun _ => rfl) (fun _ => rfl) (fun _ => rfl),
      hp.2.trans ⟨rfl, rfl, rfl, rfl, rfl, rfl, fun _ => rfl, fun _ => rfl⟩⟩

lemma keeps_takeEvents : Keeps (IndexAt p₀) (takeEvents : PoolM H (List (KVCacheEvent H))) := by
  intro p hp
  unfold takeEvents
  rw [bind_get]
  by_cases he : p.enableKvCacheEvents = true
  · rw [if_pos he]
    exact ⟨hp.1.congr (fun _ => rfl) (fun _ => rfl) rfl rfl,
      hp.2.trans ⟨rfl, rfl, rfl, rfl, rfl, rfl, fun _ => rfl, fun _ => rfl⟩⟩
  · rw [if_neg he]
    exact hp

end

/-- `get_new_blocks` returns blocks that have no key when caching is enabled. -/
lemma getNewBlocks_keysOf (h : p.IndexInv) (hrun : getNewBlocks n p = .ok bs p')
    (hc : p.enableCaching) : ∀ b ∈ bs, p'.keysOf b = [] := by
  unfold getNewBlocks at hrun
  rw [bind_get] at hrun
  split at hrun
  · cases hrun
  · obtain ⟨nodes, p1, hpop, hrun⟩ := bind_eq_ok.1 hrun
    obtain ⟨⟨⟩, p2, hclaim, hrun⟩ := bind_eq_ok.1 hrun
    cases hrun
    obtain ⟨q, -, rfl⟩ := zoomWith_eq_ok.1 hpop
    have hclaimed := claimBlocks_ok (h.setQueue q) hclaim
    intro b hb
    rw [hclaimed.keysOf_eq, if_pos ⟨hb, hc⟩]

end References

/-! ## Runs -/

section Runs

variable [DecidableEq H]

variable (H) in
/-- The operations of the pool. -/
inductive PoolOp where
  | getNewBlocks (numBlocks : ℕ)
  | touch (blocks : List ℕ)
  | freeBlocks (orderedBlocks : List ℕ)
  | cacheFullBlocks (request : Request H) (blocks : List ℕ)
      (numCachedBlocks numFullBlocks blockSize kvCacheGroupId : ℕ)
      (blockMask : Option (List Bool))
  | cachePartialBlock (request : Request H) (block numTokens kvCacheGroupId blockSize : ℕ)
  | moveBlockHashes (src dst : ℕ)
  | evictBlocks (blockIds : List ℕ)
  | resetPrefixCache
  | takeEvents

variable (H) in
/-- What an operation gives back to its caller. -/
inductive PoolResult where
  | none
  | blocks (blocks : List ℕ)
  | key (key : Option (BlockHashWithGroupId H))
  | flag (flag : Bool)
  | events (events : List (KVCacheEvent H))

/-- Run an operation. -/
def PoolOp.run : PoolOp H → PoolM H (PoolResult H)
  | .getNewBlocks n => PoolResult.blocks <$> BlockPool.getNewBlocks n
  | .touch bs => (fun _ => .none) <$> BlockPool.touch bs
  | .freeBlocks bs => (fun _ => .none) <$> BlockPool.freeBlocks bs
  | .cacheFullBlocks r blocks nc nf bs g mask =>
    (fun _ => .none) <$> BlockPool.cacheFullBlocks r blocks nc nf bs g mask
  | .cachePartialBlock r b n g bs => PoolResult.key <$> BlockPool.cachePartialBlock r b n g bs
  | .moveBlockHashes src dst => (fun _ => .none) <$> BlockPool.moveBlockHashes src dst
  | .evictBlocks bs => (fun _ => .none) <$> BlockPool.evictBlocks bs
  | .resetPrefixCache => PoolResult.flag <$> BlockPool.resetPrefixCache
  | .takeEvents => PoolResult.events <$> BlockPool.takeEvents

/-- The pools that operations lead to from a new pool.  An operation that raises leads to the
state it raised in. -/
inductive PoolReachable : BlockPool H → Prop
  | init {n : ℕ} {caching events : Bool} {hasher : BlockHasher H} {p : BlockPool H} :
      BlockPool.init n caching hasher events = .ok p → PoolReachable p
  | step {p : BlockPool H} (op : PoolOp H) :
      PoolReachable p → PoolReachable (finalState op.run p)

omit [DecidableEq H] in
/-- A mapped computation returns what the computation returns. -/
lemma map_eq_ok {β : Type} {m : PoolM H α} {f : α → β} {b : β} :
    (f <$> m) p = .ok b p' ↔ ∃ a, m p = .ok a p' ∧ b = f a := by
  rw [map_apply]
  cases m p with
  | ok a q => simp [eq_comm, and_comm]
  | error e q => simp

lemma keeps_run (op : PoolOp H) : Keeps IndexInv op.run := by
  have hqueue : ∀ (p : BlockPool H) q, p.IndexInv → _ := fun _ q hp => hp.setQueue q
  have href : ∀ (p : BlockPool H) b n, p.IndexInv → _ := fun _ b n hp => hp.setRefCnt b n
  cases op with
  | getNewBlocks n =>
    exact .map (keeps_getNewBlocks hqueue href (fun b => keeps_indexInv fun _ =>
      keeps_maybeEvictCachedBlock IndexAt.addEvents keeps_removeCachedBlockHashes b) n)
  | touch bs => exact .map (keeps_touch hqueue href bs)
  | freeBlocks bs => exact .map (keeps_freeBlocks hqueue href bs)
  | cacheFullBlocks r blocks nc nf bs g mask =>
    exact .map (keeps_indexInv fun _ => keeps_cacheFullBlocks r blocks nc nf bs g mask)
  | cachePartialBlock r b n g bs =>
    exact .map (keeps_indexInv fun _ => keeps_cachePartialBlock r b n g bs)
  | moveBlockHashes src dst => exact .map (keeps_indexInv fun _ => keeps_moveBlockHashes src dst)
  | evictBlocks bs => exact .map (keeps_indexInv fun _ => keeps_evictBlocks bs)
  | resetPrefixCache => exact .map (keeps_indexInv fun _ => keeps_resetPrefixCache)
  | takeEvents => exact .map (keeps_indexInv fun _ => keeps_takeEvents)

omit [DecidableEq H] in
lemma init_eq_ok {caching events : Bool} (h : init n caching hasher events = .ok p) :
    n ≠ 0 ∧ ∃ b q, FreeKVCacheBlockQueue.popleft (.init n) = .ok (.block b) q ∧
      p = { numGpuBlocks := n, enableCaching := caching, hasher := hasher,
            blocks := Function.update (fun _ => {}) b { isNull := true }, freeBlockQueue := q,
            nullBlock := b, enableKvCacheEvents := events } := by
  unfold init at h
  split at h
  · cases h
  · rename_i hn
    split at h
    · rename_i b q hpop
      cases h
      exact ⟨hn, b, q, hpop, rfl⟩
    · cases h
    · cases h

omit [DecidableEq H] in
lemma indexInv_init {caching events : Bool}
    (h : init n caching hasher events = .ok p) : p.IndexInv := by
  obtain ⟨-, b, q, -, rfl⟩ := init_eq_ok h
  refine .of_noHashes rfl (fun _ => rfl) (fun c => ?_) (fun c => ?_)
  · by_cases hc : c = b <;> simp [hc]
  · by_cases hc : c = b <;> simp [hc]

/-- The index is consistent in every reachable pool. -/
lemma PoolReachable.indexInv (h : PoolReachable p) : p.IndexInv := by
  induction h with
  | init h => exact indexInv_init h
  | step op _ ih => exact keeps_iff.1 (keeps_run op) _ ih

omit [DecidableEq H] in
/-- `get_cached_block` returns one block for each group, and the block is stored under the key of
the group. -/
lemma getCachedBlock_stored {hash : H} (h : p.getCachedBlock hash groups = some bs) :
    List.Forall₂ (fun g b => b ∈ p.stored ⟨hash, g⟩) groups bs := by
  induction groups generalizing bs with
  | nil =>
    cases h
    exact .nil
  | cons g groups ih =>
    simp only [getCachedBlock] at h
    split at h
    · cases h
    · rename_i b hb
      obtain ⟨rest, hrest, rfl⟩ := Option.map_eq_some_iff.1 h
      rw [getOneBlock_eq] at hb
      exact .cons (mem_of_mem_head? hb) (ih hrest)

omit [DecidableEq H] in
/-- A block that `get_cached_block` returns is stored under a key. -/
lemma exists_stored_of_mem_row {hash : H}
    (h : p.getCachedBlock hash groups = some bs) (hb : b ∈ bs) : ∃ key, b ∈ p.stored key := by
  replace h := getCachedBlock_stored h
  induction h with
  | nil => cases hb
  | cons hkey _ ih =>
    rcases mem_cons.1 hb with rfl | hb
    · exact ⟨_, hkey⟩
    · exact ih hb

/-- In every reachable pool a block is stored under a key iff it is its primary key or one of its
secondary keys, a block without a primary key has no secondary keys, and no key maps to an empty
dictionary.  Lookups therefore return only blocks that own the key, and with caching enabled a
block handed out by `get_new_blocks` is stored under no key. -/
theorem hash_index_consistent (hp : PoolReachable p) :
    (∀ key b, b ∈ p.cachedBlockHashToBlock.stored key ↔
      (p.blocks b).blockHash = some key ∨ key ∈ (p.cachedBlockHashesByBlock b).getD []) ∧
    (∀ b, (p.blocks b).blockHash = none → p.cachedBlockHashesByBlock b = none) ∧
    (∀ key bs, p.cachedBlockHashToBlock.cache key = some (.many bs) → bs ≠ []) ∧
    (∀ key b, p.cachedBlockHashToBlock.getOneBlock key = some b →
      (p.blocks b).blockHash = some key ∨ key ∈ (p.cachedBlockHashesByBlock b).getD []) ∧
    (∀ hash groups bs, p.getCachedBlock hash groups = some bs →
      List.Forall₂ (fun g b => (p.blocks b).blockHash = some ⟨hash, g⟩ ∨
        ⟨hash, g⟩ ∈ (p.cachedBlockHashesByBlock b).getD []) groups bs) ∧
    (p.enableCaching → ∀ n bs p', getNewBlocks n p = .ok bs p' →
      ∀ b ∈ bs, ∀ key, b ∉ p'.cachedBlockHashToBlock.stored key) := by
  have hinv := hp.indexInv
  have hiff : ∀ key b, b ∈ p.stored key ↔
      (p.blocks b).blockHash = some key ∨ key ∈ (p.cachedBlockHashesByBlock b).getD [] := by
    intro key b
    rw [hinv.mem_stored_iff, keysOf, mem_append, Option.mem_toList]
  refine ⟨hiff, hinv.secondary_none, fun key bs h hnil => hinv.noEmptyDict key _ h (hnil ▸ rfl), fun key b hb => ?_,
    fun hash groups bs h => ?_, fun hc n bs p' hrun b hb key hmem => ?_⟩
  · rw [getOneBlock_eq] at hb
    exact (hiff key b).1 (mem_of_mem_head? hb)
  · exact (getCachedBlock_stored h).imp fun g b hb => (hiff _ b).1 hb
  · have hinv' : p'.IndexInv := (keeps_run (.getNewBlocks n)).ok hinv (map_eq_ok.2 ⟨_, hrun, rfl⟩)
    exact hinv'.not_mem_stored (getNewBlocks_keysOf hinv hrun hc b hb) key hmem

/-- A text request with the given tokens, hashed in blocks of four. -/
def textRequest (tokens : List Token) : Request FreeHash :=
  { requestId := "text"
    priority := 0
    samplingParams := some { maxTokens := 16 }
    poolingParams := none
    loraRequest := none
    useStructuredOutput := false
    arrivalTime := 0
    status := .waiting
    maxTokens := 16
    promptTokenIds := some tokens
    promptEmbeds := none
    numPromptTokens := tokens.length
    allTokenIds := tokens
    cacheSalt := none
    mmFeatures := []
    blockHashes := chainHashes freeHasher
      ((List.range (tokens.length / 4)).map fun i => ((tokens.take (4 * i + 4)).drop (4 * i), none))
    skipReadingPrefixCache := false
    resumable := false
    abortImmediately := false }

/-- After one block is allocated and cached, it is stored under its key alone. -/
theorem hash_index_consistent_after_caching : ∃ p : BlockPool FreeHash, PoolReachable p ∧
      p.getCachedBlock (.block freeHasher.noneHash [1, 2, 3, 4] none) [0] = some [1] ∧
      (∀ key b, b ∈ p.cachedBlockHashToBlock.stored key ↔
        (p.blocks b).blockHash = some key ∨ key ∈ (p.cachedBlockHashesByBlock b).getD []) := by
  obtain ⟨p, hinit⟩ : ∃ p, init 4 true freeHasher true = .ok p := ⟨_, rfl⟩
  have h1 := (PoolReachable.init hinit).step (.getNewBlocks 2)
  have h2 := h1.step (.cacheFullBlocks (textRequest [1, 2, 3, 4, 5]) [1, 2] 0 1 4 0 none)
  refine ⟨_, h2, ?_, (hash_index_consistent h2).1⟩
  cases hinit
  decide +kernel

end Runs

end BlockPool

end Lvllm
