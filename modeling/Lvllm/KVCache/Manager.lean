import Lvllm.KVCache.HybridCoordinator

/-!
# The coordinator and the KV cache manager

`KVCacheCoordinator` runs one manager per KV cache group on a shared block pool, and
`KVCacheManager` is what the scheduler talks to.  Without prefix caching the coordinator has no
lookup; with one group it asks that group's manager; with several groups it is a hybrid coordinator
and reconciles their lookups.
-/

namespace Lvllm

/-- The coordinator with its managers, and the settings of the `KVCacheManager` around it. -/
structure KVCacheManager (H : Type) where
  maxModelLen : ℕ
  enableCaching : Bool
  watermarkBlocks : ℕ
  schedulerBlockSize : ℕ
  /-- Whether lookups may end inside a block. -/
  enablePartialHashHits : Bool
  numReprefillableTokens : ℕ
  eagleGroupIds : List ℕ
  retentionInterval : Option ℕ
  pool : BlockPool H
  managers : List SingleTypeKVCacheManager

/-- Code of the KV cache manager. -/
abbrev KvM (H : Type) := EStateM PyErr (KVCacheManager H)

/-- Run the code of each manager in order, the pool being passed on. -/
def runManagers {H α : Type} (f : ℕ → ManagerM H α) :
    ℕ → BlockPool H → List SingleTypeKVCacheManager →
      EStateM.Result PyErr (BlockPool H × List SingleTypeKVCacheManager) (List α)
  | _, p, [] => .ok [] (p, [])
  | i, p, m :: ms =>
    match f i (p, m) with
    | .error e (p, m) => .error e (p, m :: ms)
    | .ok a (p, m) =>
      match runManagers f (i + 1) p ms with
      | .error e (p, ms) => .error e (p, m :: ms)
      | .ok as (p, ms) => .ok (a :: as) (p, m :: ms)

namespace KVCacheManager

variable {H : Type}

/-- Run code on the pool. -/
def onPool {α : Type} (m : PoolM H α) : KvM H α :=
  zoomWith (fun s : KVCacheManager H => s.pool) (fun s p => { s with pool := p }) m

/-- Run the code of each manager in order. -/
def onManagers {α : Type} (f : ℕ → ManagerM H α) : KvM H (List α) := fun s =>
  match runManagers f 0 s.pool s.managers with
  | .error e (p, ms) => .error e { s with pool := p, managers := ms }
  | .ok as (p, ms) => .ok as { s with pool := p, managers := ms }

/-! ## Lookup -/

variable (s : KVCacheManager H)

/-- The coordinator of several groups: attention groups over one pool. -/
abbrev toHybrid : HybridCoordinator H :=
  { hashBlockSize := s.pool.hasher.hashBlockSize
    schedulerBlockSize := s.schedulerBlockSize
    enablePartialHashHits := s.enablePartialHashHits
    eagleGroupIds := s.eagleGroupIds
    kvCacheGroups := s.managers.map fun m => ⟨.attention m.spec, 0⟩
    blockPools := fun _ => s.pool }

/-- `find_longest_cache_hit` of the coordinator. -/
def findLongestCacheHit (s : KVCacheManager H) (blockHashes : List H) (maxCacheHitLength : ℕ) :
    Except PyErr (List (List ℕ) × ℕ × ℕ) :=
  if s.enableCaching then
    match s.managers with
    | [m] => do
      let (rows, hitLength) ← s.pool.findLongestCacheHit blockHashes maxCacheHitLength [0] m.spec
        (s.eagleGroupIds.contains 0) m.blockSize
      pure (columnsOf 1 rows, hitLength, 0)
    | _ => s.toHybrid.findLongestCacheHit blockHashes maxCacheHitLength
  else .ok (s.managers.map fun _ => [], 0, 0)

/-- `prefix_cache_lookup_enabled`. -/
def prefixCacheLookupEnabled (r : Request H) : Bool :=
  s.enableCaching && !r.skipReadingPrefixCache

/-- `get_computed_blocks`: the blocks of each group, the number of computed tokens and the shared
prefix boundary. -/
def getComputedBlocks (r : Request H) :
    Except PyErr (List (List ℕ) × ℕ × ℕ) :=
  if s.prefixCacheLookupEnabled r then do
    -- The last token is recomputed to get its logits.
    let (blocks, numNewComputedTokens, numUncached) ←
      s.findLongestCacheHit r.blockHashes (r.numTokens - 1)
    let sharedPrefixBoundary := if numUncached = 0 then 0 else numNewComputedTokens + numUncached
    pure (blocks, numNewComputedTokens, sharedPrefixBoundary)
  else .ok (s.managers.map fun _ => [], 0, 0)

/-- The loop of `truncate_computed_blocks` over the groups. -/
def truncateGroups (numComputedTokens : ℕ) :
    List SingleTypeKVCacheManager → List (List ℕ) → Except PyErr (List (List ℕ))
  | [], [] => .ok []
  | m :: ms, blocks :: rest =>
    if m.spec.participatesInPrefixCaching then
      if numComputedTokens % m.blockSize = 0 ∧ numComputedTokens / m.blockSize ≤ blocks.length then
        (truncateGroups numComputedTokens ms rest).map
          (blocks.take (numComputedTokens / m.blockSize) :: ·)
      else .error .assertionError
    else if blocks.isEmpty then (truncateGroups numComputedTokens ms rest).map ([] :: ·)
    else .error .assertionError
  | _, _ => .error (.valueError "zip() arguments have different lengths")

/-- `truncate_computed_blocks`: a lookup result cut at an aligned length. -/
def truncateComputedBlocks (blocks : List (List ℕ))
    (numComputedTokens : ℕ) : Except PyErr (List (List ℕ)) :=
  truncateGroups numComputedTokens s.managers blocks

/-! ## Allocation -/

/-- The number of blocks each manager needs, summed over the managers from index `i` on. -/
def sumBlocksToAllocate (p : BlockPool H) (requestId : String) (numTokens : ℕ)
    (newComputedBlocks : List (List ℕ)) (totalComputedTokens numLocalComputedTokens : ℕ)
    (applyAdmissionCap : Bool) : ℕ → List SingleTypeKVCacheManager → Except PyErr ℕ
  | _, [] => .ok 0
  | i, m :: ms => do
    let numBlocks ← m.getNumBlocksToAllocate p requestId numTokens
      (newComputedBlocks.getD i []) totalComputedTokens numLocalComputedTokens applyAdmissionCap
    let rest ← sumBlocksToAllocate p requestId numTokens newComputedBlocks totalComputedTokens
      numLocalComputedTokens applyAdmissionCap (i + 1) ms
    pure (numBlocks + rest)

/-- The coordinator's `get_num_blocks_to_allocate`. -/
def getNumBlocksToAllocate (requestId : String) (numTokens : ℕ)
    (newComputedBlocks : List (List ℕ)) (totalComputedTokens numLocalComputedTokens : ℕ)
    (applyAdmissionCap : Bool) : Except PyErr ℕ :=
  sumBlocksToAllocate s.pool requestId numTokens newComputedBlocks totalComputedTokens
    numLocalComputedTokens applyAdmissionCap 0 s.managers

variable [DecidableEq H]

/-- The coordinator's `allocate_new_computed_blocks`: the hits of every group are touched before
any group takes blocks for external tokens. -/
def allocateNewComputedBlocks (requestId : String) (newComputedBlocks : List (List ℕ))
    (numLocalComputedTokens numExternalComputedTokens : ℕ) : KvM H Unit := do
  let s ← get
  if s.managers.any fun m => m.numCachedBlock.contains requestId then
    if newComputedBlocks.all List.isEmpty then pure () else throw .assertionError
  else
    let _ ← onManagers fun i => SingleTypeKVCacheManager.addLocalComputedBlocks requestId
      (newComputedBlocks.getD i []) numLocalComputedTokens numExternalComputedTokens
    if numExternalComputedTokens > 0 then
      let _ ← onManagers fun _ => SingleTypeKVCacheManager.allocateExternalComputedBlocks
        requestId numLocalComputedTokens numExternalComputedTokens

/-- The coordinator's `allocate_new_blocks`. -/
def allocateNewBlocks (requestId : String) (numTokens : ℕ) : KvM H (List (List ℕ)) :=
  onManagers fun _ => SingleTypeKVCacheManager.allocateNewBlocks requestId numTokens

/-- The coordinator's `remove_skipped_blocks`. -/
def removeSkippedBlocks (requestId : String) (processedComputedTokens : ℕ) : KvM H Unit := do
  let _ ← onManagers fun _ =>
    SingleTypeKVCacheManager.removeSkippedBlocks requestId processedComputedTokens

/-- The hybrid coordinator's `_align_cacheable`. -/
def alignCacheable (numTokens : ℕ) : ℕ :=
  if s.enablePartialHashHits then numTokens
  else numTokens / s.schedulerBlockSize * s.schedulerBlockSize

/-- The number of tokens that the coordinator lets a manager cache. -/
def numTokensToCache (m : SingleTypeKVCacheManager)
    (numComputedTokens : ℕ) : ℕ :=
  let numFinalizedTokens := numComputedTokens - s.numReprefillableTokens
  if s.enableCaching && s.managers.length != 1 then
    if m.useEagle && decide (0 < s.alignCacheable numComputedTokens) then
      min numFinalizedTokens (s.alignCacheable numFinalizedTokens + m.blockSize)
    else s.alignCacheable numComputedTokens
  else numFinalizedTokens

/-- The coordinator's `cache_blocks`. -/
def coordinatorCacheBlocks (request : Request H) (numComputedTokens : ℕ) : KvM H Unit := do
  let s ← get
  let _ ← onManagers fun _ => do
    let (_, m) ← get
    SingleTypeKVCacheManager.cacheBlocks request (s.numTokensToCache m numComputedTokens)
      s.retentionInterval

/-- `cache_blocks`. -/
def cacheBlocks (request : Request H) (numComputedTokens : ℕ) : KvM H Unit := do
  if (← get).enableCaching then coordinatorCacheBlocks request numComputedTokens else pure ()

/-- The arguments of `allocate_slots` besides the request. -/
structure AllocateSlotsArgs where
  numNewTokens : ℕ
  numNewComputedTokens : ℕ := 0
  /-- The hits of each group; none for the empty `KVCacheBlocks`. -/
  newComputedBlocks : List (List ℕ) := []
  numLookaheadTokens : ℕ := 0
  numExternalComputedTokens : ℕ := 0
  delayCacheBlocks : Bool := false
  fullSequenceMustFit : Bool := false
  reservedBlocks : ℕ := 0
  hasScheduledReqs : Bool := true

namespace AllocateSlotsArgs

variable (a : AllocateSlotsArgs) (r : Request H)

/-- `num_local_computed_tokens`. -/
def numLocalComputedTokens : ℕ := r.numComputedTokens + a.numNewComputedTokens

/-- The computed tokens, those of the connector included. -/
def numComputedTokens : ℕ := a.numLocalComputedTokens r + a.numExternalComputedTokens

/-- `total_computed_tokens`. -/
def totalComputedTokens (maxModelLen : ℕ) : ℕ := min (a.numComputedTokens r) maxModelLen

/-- `num_tokens_need_slot`. -/
def numTokensNeedSlot (maxModelLen : ℕ) : ℕ :=
  min (a.totalComputedTokens r maxModelLen + a.numNewTokens + a.numLookaheadTokens) maxModelLen

end AllocateSlotsArgs

/-- The watermark applies to requests that are admitted when others are already scheduled. -/
def watermarkFor (a : AllocateSlotsArgs) (r : Request H) : ℕ :=
  if a.hasScheduledReqs && (r.status == .waiting || r.status == .preempted) then s.watermarkBlocks
  else 0

/-- The admission gate of `allocate_slots`: whether the whole sequence fits. -/
def fullSequenceFits (r : Request H) (a : AllocateSlotsArgs) :
    Except PyErr Bool :=
  if a.fullSequenceMustFit then do
    let numBlocksToAllocate ← s.getNumBlocksToAllocate r.requestId (min r.numTokens s.maxModelLen)
      a.newComputedBlocks (a.totalComputedTokens r s.maxModelLen) (a.numLocalComputedTokens r) true
    pure (decide (numBlocksToAllocate + s.watermarkFor a r ≤ s.pool.getNumFreeBlocks))
  else .ok true

/-- The part of `allocate_slots` that gives the request its blocks, after the capacity check. -/
def allocateBlocks (r : Request H) (a : AllocateSlotsArgs) : KvM H (List (List ℕ)) := do
  let s ← get
  if a.newComputedBlocks.any (!·.isEmpty) || decide (0 < a.numExternalComputedTokens) then
    allocateNewComputedBlocks r.requestId a.newComputedBlocks (a.numLocalComputedTokens r)
      a.numExternalComputedTokens
  else pure ()
  allocateNewBlocks r.requestId (a.numTokensNeedSlot r s.maxModelLen)

/-- `allocate_slots`: the new blocks of each group, or none when they do not fit. -/
def allocateSlots (r : Request H) (a : AllocateSlotsArgs) : KvM H (Option (List (List ℕ))) := do
  let s ← get
  if a.numNewTokens = 0 ∧ a.numExternalComputedTokens = 0 then
    throw (.valueError
      "num_new_tokens must be greater than 0 when there are no external computed tokens")
  else
    if ← onPool (BlockPool.ofExcept (s.fullSequenceFits r a)) then
      -- Blocks outside the attention window go first, also when the request does not fit.
      removeSkippedBlocks r.requestId
        (((a.totalComputedTokens r s.maxModelLen : ℤ) - r.numInFlightTokens).toNat)
      let s ← get
      let numBlocksToAllocate ← onPool (BlockPool.ofExcept (s.getNumBlocksToAllocate r.requestId
        (a.numTokensNeedSlot r s.maxModelLen) a.newComputedBlocks (a.numComputedTokens r)
        (a.numLocalComputedTokens r) false))
      if (numBlocksToAllocate + s.watermarkFor a r : ℤ) >
          (s.pool.getNumFreeBlocks : ℤ) - a.reservedBlocks then pure none
      else
        let newBlocks ← allocateBlocks r a
        if !s.enableCaching || a.delayCacheBlocks then pure (some newBlocks)
        else
          coordinatorCacheBlocks r
            (min (a.totalComputedTokens r s.maxModelLen + a.numNewTokens) r.numTokens)
          pure (some newBlocks)
    else pure none

/-! ## Freeing and the rest -/

/-- `free`. -/
def free (requestId : String) : KvM H Unit := do
  let _ ← onManagers fun _ => SingleTypeKVCacheManager.free requestId

/-- `pop_blocks_for_free`. -/
def popBlocksForFree (requestId : String) : KvM H (List ℕ) := do
  let blocks ← onManagers fun _ => SingleTypeKVCacheManager.popBlocksForFree requestId
  pure blocks.flatten

/-- `get_num_common_prefix_blocks`. -/
def getNumCommonPrefixBlocks (runningRequestId : String) : KvM H (List ℕ) := do
  let s ← get
  if s.enableCaching then
    onManagers fun _ => SingleTypeKVCacheManager.getNumCommonPrefixBlocks runningRequestId
  else pure (s.managers.map fun _ => 0)

/-- `evict_blocks`. -/
def evictBlocks (blockIds : List ℕ) : KvM H Unit := onPool (BlockPool.evictBlocks blockIds)

/-- `reset_prefix_cache`. -/
def resetPrefixCache : KvM H Bool := onPool BlockPool.resetPrefixCache

/-- The block table of a request in each group. -/
def getBlocks (s : KVCacheManager H) (requestId : String) : List (List ℕ) :=
  s.managers.map fun m => m.blocksOf requestId

/-- `take_kv_cache_block_copies`: the copies to make, and the blocks retained for them. -/
def takeKvCacheBlockCopies : KvM H (List (ℕ × ℕ) × List ℕ) := do
  let copies ← onManagers fun _ => SingleTypeKVCacheManager.takePendingCowCopies
  pure (copies.flatten, copies.flatten.flatMap fun (source, cow) => [source, cow])

/-- `take_new_block_ids`. -/
def takeNewBlockIds : KvM H (List ℕ) := do
  let ids ← onManagers fun _ => SingleTypeKVCacheManager.takeNewBlockIds
  pure ids.flatten

/-- Give references back to the pool, as deferred frees and finished copies do. -/
def freeBlocks (orderedBlocks : List ℕ) : KvM H Unit := onPool (BlockPool.freeBlocks orderedBlocks)

end KVCacheManager

end Lvllm
