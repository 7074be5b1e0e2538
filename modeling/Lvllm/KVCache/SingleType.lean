import Lvllm.Foundation.Dict
import Lvllm.KVCache.BlockPool
import Mathlib.Data.PNat.Defs

/-!
# Managers of one KV cache group

A model has one KV cache group per kind of attention layer, and one manager per group.  The manager
keeps the block table of each request, how many of its blocks are cached, and the copies that a
partial prefix hit still needs.  All managers work on one block pool.

The kinds modelled are full attention, sliding window, chunked local attention, and the two kinds
that hold one scratch block per request (circular buffer and kpool tail).
-/

namespace Lvllm

/-- `cdiv`: division rounded up. -/
def cdiv (a b : ℕ) : ℕ := (a + b - 1) / b

/-- The kinds of KV cache groups, with the fields that their managers read. -/
inductive KVCacheSpecKind where
  | fullAttention
  | slidingWindow (slidingWindow : ℕ+) (extraRetainedTokens : ℕ)
  | chunkedLocalAttention (attentionChunkSize : ℕ+)
  | circularBuffer
  | kpoolTail
  deriving DecidableEq

/-- `KVCacheSpec`.  The fields that only tell specs apart are one number, `layout`. -/
structure KVCacheSpec where
  kind : KVCacheSpecKind
  blockSize : ℕ
  blockSize_pos : 0 < blockSize
  layout : ℕ := 0
  deriving DecidableEq

namespace KVCacheSpec

/-- `isinstance(spec, FullAttentionSpec)`. -/
def isFullAttention (spec : KVCacheSpec) : Bool :=
  match spec.kind with
  | .fullAttention => true
  | _ => false

/-- `participates_in_prefix_caching`, which is also `prefix_cacheable`. -/
def participatesInPrefixCaching (spec : KVCacheSpec) : Bool :=
  match spec.kind with
  | .circularBuffer | .kpoolTail => false
  | _ => true

/-- `supports_fine_grained_hash_lookup` of the manager class. -/
def supportsFineGrainedHashLookup (spec : KVCacheSpec) : Bool := spec.isFullAttention

/-- `max_admission_blocks_per_request`, where the spec has one. -/
def maxAdmissionBlocksPerRequest (spec : KVCacheSpec) (maxInFlightTokens maxModelLen : ℕ) :
    Option ℕ :=
  match spec.kind with
  | .fullAttention | .circularBuffer => none
  | .slidingWindow window extra =>
    some (cdiv (min ((window : ℕ) - 1 + extra + maxInFlightTokens) maxModelLen) spec.blockSize + 1)
  | .chunkedLocalAttention chunk =>
    some (cdiv (min ((chunk : ℕ) + maxInFlightTokens) maxModelLen) spec.blockSize)
  | .kpoolTail => some 1

end KVCacheSpec

/-- `SingleTypeKVCacheManager`, without the pool it shares with the other managers. -/
structure SingleTypeKVCacheManager where
  spec : KVCacheSpec
  enableCaching : Bool
  kvCacheGroupId : ℕ
  cacheHitAlignmentTokens : ℕ
  useEagle : Bool := false
  maxAdmissionBlocksPerRequest : Option ℕ := none
  recordNewBlockIds : Bool := false
  newBlockIds : List ℕ := []
  /-- The block table of each request. -/
  reqToBlocks : Dict String (List ℕ) := .empty
  /-- The number of cached blocks of each request. -/
  numCachedBlock : Dict String ℕ := .empty
  /-- The requests whose prefix hit ends inside a block: the index of the block and the block. -/
  partialHitReqs : Dict String (ℕ × ℕ) := .empty
  /-- Copies the worker still has to make: source and destination. -/
  pendingCowCopies : List (ℕ × ℕ) := []

/-- Code of one manager, which works on the shared pool too. -/
abbrev ManagerM (H : Type) := EStateM PyErr (BlockPool H × SingleTypeKVCacheManager)

namespace SingleTypeKVCacheManager

variable {H : Type}

/-- The block size of the group. -/
def blockSize (m : SingleTypeKVCacheManager) : ℕ := m.spec.blockSize

variable (m : SingleTypeKVCacheManager)

lemma blockSize_pos : 0 < m.blockSize := m.spec.blockSize_pos

/-- `self.req_to_blocks.get(request_id, ())`. -/
def blocksOf (requestId : String) : List ℕ :=
  (m.reqToBlocks.get? requestId).getD []

/-- Write the block table of a request. -/
def setBlocks (requestId : String) (blocks : List ℕ) :
    SingleTypeKVCacheManager :=
  { m with reqToBlocks := m.reqToBlocks.set requestId blocks }

/-- Reading the default dictionary `req_to_blocks` makes an entry for the request. -/
def readBlocks (requestId : String) : SingleTypeKVCacheManager :=
  m.setBlocks requestId (m.blocksOf requestId)

/-- Run code on the pool. -/
def onPool {α : Type} (m : PoolM H α) : ManagerM H α :=
  zoomWith (fun s : BlockPool H × SingleTypeKVCacheManager => s.1) (fun s p => (p, s.2)) m

/-- Change the manager. -/
def modifyManager (f : SingleTypeKVCacheManager → SingleTypeKVCacheManager) : ManagerM H Unit :=
  modify fun s => (s.1, f s.2)

/-- `get_num_skipped_tokens`. -/
def getNumSkippedTokens (numComputedTokens : ℕ) : ℕ :=
  match m.spec.kind with
  | .fullAttention | .circularBuffer | .kpoolTail => 0
  | .slidingWindow window extra => numComputedTokens + 1 - (window + extra)
  | .chunkedLocalAttention chunk => numComputedTokens / chunk * chunk

/-- `_get_num_evictable_blocks`. -/
def getNumEvictableBlocks (p : BlockPool H) (blocks : List ℕ) : ℕ :=
  blocks.countP fun b => decide ((p.blocks b).refCnt = 0) && !(p.blocks b).isNull

/-- `_has_partial_local_hit`. -/
def hasPartialLocalHit (newComputedBlocks : List ℕ)
    (numLocalComputedTokens : ℕ) : Bool :=
  !newComputedBlocks.isEmpty && numLocalComputedTokens % m.blockSize != 0

/-- `get_num_blocks_to_allocate` of the base class. -/
def baseNumBlocksToAllocate (p : BlockPool H) (m : SingleTypeKVCacheManager) (requestId : String)
    (numTokens : ℕ) (newComputedBlocks : List ℕ)
    (totalComputedTokens numLocalComputedTokens : ℕ) (applyAdmissionCap : Bool) :
    Except PyErr ℕ :=
  let numRequiredBlocks := cdiv numTokens m.blockSize
  let numRequiredBlocks := match applyAdmissionCap, m.maxAdmissionBlocksPerRequest with
    | true, some cap => min numRequiredBlocks cap
    | _, _ => numRequiredBlocks
  let numReqBlocks := (m.blocksOf requestId).length
  if m.numCachedBlock.contains requestId then
    -- A running request has no new prefix-cache hits.
    if newComputedBlocks.isEmpty then .ok (numRequiredBlocks - numReqBlocks)
    else .error .assertionError
  else
    let numSkippedBlocks := m.getNumSkippedTokens totalComputedTokens / m.blockSize
    let numLocalComputedBlocks := newComputedBlocks.length + numReqBlocks
    let numNewBlocks := numRequiredBlocks - max numSkippedBlocks numLocalComputedBlocks
    let numSkippedNewComputedBlocks := numSkippedBlocks - numReqBlocks
    let numEvictableBlocks :=
      getNumEvictableBlocks p (newComputedBlocks.drop numSkippedNewComputedBlocks)
    -- The copy of a partial hit takes one more block.
    let numNewBlocks :=
      if m.hasPartialLocalHit newComputedBlocks numLocalComputedTokens then numNewBlocks + 1
      else numNewBlocks
    .ok (numNewBlocks + numEvictableBlocks)

/-- `get_num_blocks_to_allocate`. -/
def getNumBlocksToAllocate (p : BlockPool H) (m : SingleTypeKVCacheManager) (requestId : String)
    (numTokens : ℕ) (newComputedBlocks : List ℕ)
    (totalComputedTokens numLocalComputedTokens : ℕ) (applyAdmissionCap : Bool) :
    Except PyErr ℕ :=
  match m.spec.kind with
  | .kpoolTail => .ok (1 - (m.blocksOf requestId).length)
  | .circularBuffer => .ok (if (m.blocksOf requestId).isEmpty then 1 else 0)
  | _ => baseNumBlocksToAllocate p m requestId numTokens newComputedBlocks totalComputedTokens
    numLocalComputedTokens applyAdmissionCap

/-- The bookkeeping of `add_local_computed_blocks` after the hit blocks are touched. -/
def recordComputedBlocks (requestId : String)
    (numSkippedBlocks nullBlock : ℕ) (newComputedBlocks : List ℕ) (numLocalComputedTokens : ℕ) :
    SingleTypeKVCacheManager :=
  let reqBlocks := List.replicate numSkippedBlocks nullBlock ++ newComputedBlocks
  let m := { m.setBlocks requestId reqBlocks with
    numCachedBlock := m.numCachedBlock.set requestId reqBlocks.length }
  if m.hasPartialLocalHit newComputedBlocks numLocalComputedTokens then
    -- The tail is shared: it is copied before the request writes to it, and cached again once
    -- the copy is full.
    let blockIdx := numLocalComputedTokens / m.blockSize
    { m with
      partialHitReqs := m.partialHitReqs.set requestId
        (blockIdx, newComputedBlocks.getLastD nullBlock)
      numCachedBlock := m.numCachedBlock.set requestId blockIdx }
  else m

/-- `add_local_computed_blocks`. -/
def addLocalComputedBlocks (requestId : String) (newComputedBlocks : List ℕ)
    (numLocalComputedTokens numExternalComputedTokens : ℕ) : ManagerM H Unit := do
  let (p, m) ← get
  match m.spec.kind with
  | .circularBuffer | .kpoolTail => pure ()
  | _ =>
    if (m.blocksOf requestId).isEmpty then
      let numSkippedTokens :=
        m.getNumSkippedTokens (numLocalComputedTokens + numExternalComputedTokens)
      let numSkippedBlocks := numSkippedTokens / m.blockSize
      let newComputedBlocks := newComputedBlocks.drop numSkippedBlocks
      if m.enableCaching then onPool (BlockPool.touch newComputedBlocks)
      else if newComputedBlocks.isEmpty then pure ()
      else throw .assertionError
      modifyManager fun m => m.recordComputedBlocks requestId numSkippedBlocks p.nullBlock
        newComputedBlocks numLocalComputedTokens
    else throw .assertionError

variable [DecidableEq H]

/-- Append new blocks to the table of a request, and record their ids if the worker zeroes them. -/
def addBlocks (requestId : String) (newBlocks : List ℕ) :
    SingleTypeKVCacheManager :=
  { m.setBlocks requestId (m.blocksOf requestId ++ newBlocks) with
    newBlockIds := if m.recordNewBlockIds then m.newBlockIds ++ newBlocks else m.newBlockIds }

/-- Take new blocks from the pool and append them to the table of a request. -/
def appendNewBlocks (requestId : String) (numNewBlocks : ℕ) : ManagerM H (List ℕ) := do
  let newBlocks ← onPool (BlockPool.getNewBlocks numNewBlocks)
  modifyManager fun m => m.addBlocks requestId newBlocks
  pure newBlocks

/-- The circular buffer's `_claim_ring_block`, which the kpool tail has in the same form. -/
def claimRingBlock (requestId : String) : ManagerM H (List ℕ) := do
  let (_, m) ← get
  if (m.blocksOf requestId).isEmpty then appendNewBlocks requestId 1
  else pure []

/-- `allocate_external_computed_blocks`. -/
def allocateExternalComputedBlocks (requestId : String)
    (numLocalComputedTokens numExternalComputedTokens : ℕ) : ManagerM H Unit := do
  let (_, m) ← get
  match m.spec.kind with
  | .circularBuffer | .kpoolTail =>
    let _ ← claimRingBlock requestId
  | _ =>
    let numTotalComputedTokens := numLocalComputedTokens + numExternalComputedTokens
    let numSkippedTokens := m.getNumSkippedTokens numTotalComputedTokens
    let numExternalComputedTokens :=
      if numSkippedTokens > 0 then
        min (numTotalComputedTokens - numSkippedTokens) numExternalComputedTokens
      else numExternalComputedTokens
    if numExternalComputedTokens = 0 then pure ()
    else
      let numNewBlocks :=
        cdiv numTotalComputedTokens m.blockSize - (m.blocksOf requestId).length
      let _ ← appendNewBlocks requestId numNewBlocks

/-- `_apply_cow`: the request's table names the copy from now on.  The source keeps the reference
of the hit and the copy takes one more until the worker has made it. -/
def applyCow (requestId : String) (blockIdx sourceBlock cowBlock : ℕ) : ManagerM H Unit := do
  let (p, m) ← get
  let reqBlocks := m.blocksOf requestId
  if reqBlocks[blockIdx]? = some sourceBlock ∧ (p.blocks sourceBlock).isNull = false ∧
      0 < (p.blocks sourceBlock).refCnt then
    modifyManager fun m =>
      { m.setBlocks requestId (reqBlocks.set blockIdx cowBlock) with
        pendingCowCopies := m.pendingCowCopies ++ [(sourceBlock, cowBlock)] }
    onPool (modify fun p =>
      p.setBlock cowBlock { p.blocks cowBlock with refCnt := (p.blocks cowBlock).refCnt + 1 })
  else throw .assertionError

/-- The redirection of a partial hit in `allocate_new_blocks`. -/
def redirectPartialHit (requestId : String) : ManagerM H (List ℕ) := do
  let (_, m) ← get
  match m.partialHitReqs.get? requestId with
  | none => pure []
  | some (blockIdx, sourceBlock) =>
    modifyManager fun m => { m with partialHitReqs := m.partialHitReqs.erase requestId }
    match ← onPool (BlockPool.getNewBlocks 1) with
    | [] => throw .indexError
    | cowBlock :: _ =>
      applyCow requestId blockIdx sourceBlock cowBlock
      modifyManager fun m => { m with newBlockIds := m.newBlockIds ++ [cowBlock] }
      pure [cowBlock]

/-- `allocate_new_blocks`. -/
def allocateNewBlocks (requestId : String) (numTokens : ℕ) : ManagerM H (List ℕ) := do
  let (_, m) ← get
  match m.spec.kind with
  | .circularBuffer | .kpoolTail => claimRingBlock requestId
  | _ =>
    let cowBlocks ← redirectPartialHit requestId
    let (_, m) ← get
    let numRequiredBlocks := cdiv numTokens m.blockSize
    let numReqBlocks := (m.blocksOf requestId).length
    if numRequiredBlocks ≤ numReqBlocks then
      modifyManager fun m => m.readBlocks requestId
      pure cowBlocks
    else
      let newBlocks ← appendNewBlocks requestId (numRequiredBlocks - numReqBlocks)
      pure (cowBlocks ++ newBlocks)

/-- `take_new_block_ids`. -/
def takeNewBlockIds : ManagerM H (List ℕ) := do
  let (p, m) ← get
  set (p, { m with newBlockIds := [] })
  pure m.newBlockIds

/-- `take_pending_cow_copies`. -/
def takePendingCowCopies : ManagerM H (List (ℕ × ℕ)) := do
  let (p, m) ← get
  set (p, { m with pendingCowCopies := [] })
  pure m.pendingCowCopies

/-! ## Caching -/

/-- `_contiguous_blocks_for_hit`. -/
def contiguousBlocksForHit (windowSize blockSize : ℕ) (useEagle : Bool) : ℕ :=
  cdiv (windowSize - 1) blockSize + if useEagle then 1 else 0

/-- `reachable_block_mask` of the sliding window: the blocks that can serve a hit. -/
def slidingWindowBlockMask (windowSize blockSize startBlock endBlock alignmentTokens : ℕ)
    (useEagle : Bool) (retentionInterval : Option ℕ) (reachableBoundaries : List ℕ) :
    Option (List Bool) :=
  let need := contiguousBlocksForHit windowSize blockSize useEagle
  let shift := if useEagle then 1 else 0
  let segmentTokens := match retentionInterval with
    | none => some alignmentTokens
    | some 0 => none
    | some n => some n
  -- Tails at segment boundaries.
  let segmentTail := fun i => match segmentTokens with
    | none => false
    | some segment =>
      decide (shift ≤ i ∧ segment / blockSize - need ≤ (i - shift) % (segment / blockSize))
  -- Tails at the boundaries that a replay or a shared prefix can reach.
  let boundaryTail := fun j => retentionInterval.isSome && reachableBoundaries.any fun boundary =>
    let stop := boundary / alignmentTokens * alignmentTokens / blockSize + shift
    decide (stop - need ≤ j ∧ j < stop)
  if segmentTokens.any fun segment => segment / blockSize ≤ need then none
  else some ((List.range' startBlock (endBlock - startBlock)).map fun i =>
    segmentTail i || boundaryTail i)

/-- `reachable_block_mask`. -/
def reachableBlockMask (startBlock endBlock : ℕ)
    (retentionInterval : Option ℕ) (reachableBoundaries : List ℕ) :
    Except PyErr (Option (List Bool)) :=
  match m.spec.kind with
  | .slidingWindow window _ =>
    if m.cacheHitAlignmentTokens % m.blockSize = 0 then
      .ok (slidingWindowBlockMask window m.blockSize startBlock endBlock
        m.cacheHitAlignmentTokens m.useEagle retentionInterval reachableBoundaries)
    else .error .assertionError
  | _ => .ok none

/-- `cache_blocks` of the base class. -/
def baseCacheBlocks (request : Request H) (numTokens : ℕ) (retentionInterval : Option ℕ) :
    ManagerM H Unit := do
  let (_, m) ← get
  let numCachedBlocks := (m.numCachedBlock.get? request.requestId).getD 0
  let numFullBlocks := numTokens / m.blockSize
  if numCachedBlocks ≥ numFullBlocks then pure ()
  else
    let reachableBoundaries :=
      (if request.numPromptTokens = 0 then [] else [request.numPromptTokens - 1]) ++
        if request.sharedPrefixBoundary = 0 then [] else [request.sharedPrefixBoundary]
    let blockMask ← onPool (BlockPool.ofExcept
      (m.reachableBlockMask numCachedBlocks numFullBlocks retentionInterval reachableBoundaries))
    modifyManager fun m => m.readBlocks request.requestId
    onPool (BlockPool.cacheFullBlocks request (m.blocksOf request.requestId) numCachedBlocks
      numFullBlocks m.blockSize m.kvCacheGroupId blockMask)
    modifyManager fun m =>
      { m with numCachedBlock := m.numCachedBlock.set request.requestId numFullBlocks }

/-- `_cache_partial_tail_block`: cache the prompt tail when it ends inside a block. -/
def cachePartialTailBlock (request : Request H) (numTokens : ℕ) : ManagerM H Unit := do
  let (p, m) ← get
  let hashBlockSize := p.hasher.hashBlockSize
  let boundaryTokens := request.numPromptTokens / hashBlockSize * hashBlockSize
  if boundaryTokens = 0 ∨ boundaryTokens > numTokens ∨ boundaryTokens % m.blockSize = 0 then pure ()
  else
    let blocks := m.blocksOf request.requestId
    modifyManager fun m => m.readBlocks request.requestId
    match blocks[boundaryTokens / m.blockSize]? with
    | none => pure ()
    | some block =>
      let _ ← onPool (BlockPool.cachePartialBlock request block boundaryTokens m.kvCacheGroupId
        m.blockSize)

/-- `cache_blocks`. -/
def cacheBlocks (request : Request H) (numTokens : ℕ) (retentionInterval : Option ℕ) :
    ManagerM H Unit := do
  let (p, m) ← get
  match m.spec.kind with
  | .circularBuffer | .kpoolTail => pure ()
  | .fullAttention =>
    baseCacheBlocks request numTokens retentionInterval
    if m.blockSize = p.hasher.hashBlockSize then pure ()
    else cachePartialTailBlock request numTokens
  | _ => baseCacheBlocks request numTokens retentionInterval

/-! ## Freeing -/

/-- Forget a request. -/
def forgetRequest (requestId : String) : SingleTypeKVCacheManager :=
  { m with
    reqToBlocks := m.reqToBlocks.erase requestId
    numCachedBlock := m.numCachedBlock.erase requestId
    partialHitReqs := m.partialHitReqs.erase requestId }

/-- `pop_blocks_for_free`. -/
def popBlocksForFree (requestId : String) : ManagerM H (List ℕ) := do
  let (p, m) ← get
  set (p, m.forgetRequest requestId)
  pure (m.blocksOf requestId)

/-- `free`: the tail blocks first. -/
def free (requestId : String) : ManagerM H Unit := do
  let blocks ← popBlocksForFree requestId
  onPool (BlockPool.freeBlocks blocks.reverse)

/-- The loop of `_remove_blocks_in_range` from position `i - 1` down: the blocks to free, and the
table with null blocks in their place. -/
def nullBlocksDownFrom (nullBlock : ℕ) : ℕ → List ℕ → List ℕ × List ℕ
  | 0, blocks => ([], blocks)
  | i + 1, blocks =>
    match blocks[i]? with
    | none => ([], blocks)
    | some b =>
      if b = nullBlock then ([], blocks)
      else
        let (freed, blocks) := nullBlocksDownFrom nullBlock i (blocks.set i nullBlock)
        (b :: freed, blocks)

/-- `remove_skipped_blocks`. -/
def removeSkippedBlocks (requestId : String) (processedComputedTokens : ℕ) : ManagerM H Unit := do
  let (p, m) ← get
  let numSkippedTokens := m.getNumSkippedTokens processedComputedTokens
  if numSkippedTokens = 0 then pure ()
  else
    let blocks := m.blocksOf requestId
    let numSkippedBlocks := min (numSkippedTokens / m.blockSize) blocks.length
    let (freed, blocks) := nullBlocksDownFrom p.nullBlock numSkippedBlocks blocks
    modifyManager fun m => m.setBlocks requestId blocks
    if freed.isEmpty then pure () else onPool (BlockPool.freeBlocks freed)

/-- `get_num_common_prefix_blocks`. -/
def getNumCommonPrefixBlocks (runningRequestId : String) : ManagerM H ℕ := do
  let (p, m) ← get
  match m.spec.kind with
  | .fullAttention =>
    modifyManager fun m => m.readBlocks runningRequestId
    let numRequests := (m.readBlocks runningRequestId).reqToBlocks.size
    pure ((m.blocksOf runningRequestId).takeWhile fun b =>
      (p.blocks b).refCnt == (numRequests : ℤ)).length
  | _ => pure 0

end SingleTypeKVCacheManager

end Lvllm
