import Lvllm.KVCache.FreeQueue
import Lvllm.Request.BlockHasher

/-!
# The block pool

`BlockPool` and `BlockHashToBlockMap` (`vllm/v1/core/block_pool.py`): the pool owns all KV-cache
blocks, hands out free ones, counts references, and keeps the index from block hashes to cached
blocks that prefix caching reads.

Blocks are named by their ids; `blocks b` is the record of block `b`.  Operations are terms of
`PoolM`, so an exception leaves the pool as far as it got.  Python sets are lists in insertion
order.
-/

namespace Lvllm

/-- `BlockHashWithGroupId`: a block hash together with the id of a KV cache group. -/
structure BlockHashWithGroupId (H : Type) where
  blockHash : H
  groupId : ℕ
  deriving DecidableEq, Repr

/-- `KVCacheBlock`, without the links of the free queue. -/
structure KVCacheBlock (H : Type) where
  /-- The number of references to the block. -/
  refCnt : ℤ := 0
  /-- The primary hash key, if the block is cached. -/
  blockHash : Option (BlockHashWithGroupId H) := none
  /-- The number of prefix tokens the primary hash covers. -/
  blockHashNumTokens : Option ℕ := none
  /-- Whether this is the placeholder block. -/
  isNull : Bool := false
  deriving DecidableEq, Repr

/-- `KVCacheBlock.reset_hash`. -/
def KVCacheBlock.resetHash {H : Type} (blk : KVCacheBlock H) : KVCacheBlock H :=
  { blk with blockHash := none, blockHashNumTokens := none }

/-- `BlockStored`: blocks have become reachable under the listed hashes. -/
structure BlockStored (H : Type) where
  blockHashes : List H
  parentBlockHash : Option H
  tokenIds : List Token
  blockSize : ℕ
  loraId : Option ℤ
  medium : String := "GPU"
  loraName : Option String
  extraKeys : Option (List (Option (List ExtraKey)))
  groupIdx : ℕ
  deriving DecidableEq, Repr

/-- `BlockRemoved`: blocks have ceased to be reachable under the listed hashes. -/
structure BlockRemoved (H : Type) where
  blockHashes : List H
  medium : String := "GPU"
  groupIdx : ℕ
  deriving DecidableEq, Repr

/-- The events of the pool. -/
inductive KVCacheEvent (H : Type) where
  | blockStored (e : BlockStored H)
  | blockRemoved (e : BlockRemoved H)
  | allBlocksCleared
  deriving DecidableEq, Repr

/-! ## The index from hashes to blocks -/

/-- What a key maps to: one block, or a dictionary of blocks keyed by their ids. -/
inductive CachedBlocks where
  | one (b : ℕ)
  | many (bs : List ℕ)
  deriving DecidableEq, Repr

/-- The ids of the blocks, in order. -/
def CachedBlocks.ids : CachedBlocks → List ℕ
  | .one b => [b]
  | .many bs => bs

/-- `BlockHashToBlockMap`. -/
structure BlockHashToBlockMap (H : Type) where
  cache : BlockHashWithGroupId H → Option CachedBlocks := fun _ => none

namespace BlockHashToBlockMap

variable {H : Type}

/-- `get_one_block`: the first block stored under the key. -/
def getOneBlock (m : BlockHashToBlockMap H) (key : BlockHashWithGroupId H) : Option ℕ :=
  match m.cache key with
  | none => none
  | some (.one b) => some b
  | some (.many bs) => bs.head?

/-- `contain`. -/
def contain (m : BlockHashToBlockMap H) (key : BlockHashWithGroupId H) (b : ℕ) : Bool :=
  match m.cache key with
  | none => false
  | some (.one b') => b' == b
  | some (.many bs) => bs.contains b

variable [DecidableEq H]

/-- `insert`. -/
def insert (m : BlockHashToBlockMap H) (key : BlockHashWithGroupId H) (b : ℕ) :
    BlockHashToBlockMap H :=
  let blocks : CachedBlocks := match m.cache key with
    | none => .one b
    | some (.one b') => .many (if b' = b then [b'] else [b', b])
    | some (.many bs) => .many (if b ∈ bs then bs else bs ++ [b])
  { cache := Function.update m.cache key (some blocks) }

/-- `pop`: the block popped, if any, and the index without it. -/
def pop (m : BlockHashToBlockMap H) (key : BlockHashWithGroupId H) (b : ℕ) :
    Option ℕ × BlockHashToBlockMap H :=
  match m.cache key with
  | none => (none, m)
  | some (.one b') =>
    if b' = b then (some b', { cache := Function.update m.cache key none }) else (none, m)
  | some (.many bs) =>
    let rest := bs.erase b
    (if b ∈ bs then some b else none,
      { cache := Function.update m.cache key (if rest.isEmpty then none else some (.many rest)) })

end BlockHashToBlockMap

/-! ## The pool -/

/-- `BlockPool`. -/
structure BlockPool (H : Type) where
  numGpuBlocks : ℕ
  enableCaching : Bool
  /-- The hash parameters of the engine, `hash_block_size` among them. -/
  hasher : BlockHasher H
  blocks : ℕ → KVCacheBlock H
  freeBlockQueue : FreeKVCacheBlockQueue
  cachedBlockHashToBlock : BlockHashToBlockMap H := {}
  /-- The secondary keys of a block. -/
  cachedBlockHashesByBlock : ℕ → Option (List (BlockHashWithGroupId H)) := fun _ => none
  nullBlock : ℕ
  enableKvCacheEvents : Bool
  kvEventQueue : List (KVCacheEvent H) := []

/-- Code that works on the pool. -/
abbrev PoolM (H : Type) := EStateM PyErr (BlockPool H)

/-- `resolve_block_hashes`, without fine-grained lookup: the hashes at the granularity of
`blockSize`. -/
def resolveBlockHashes {H : Type} (blockHashes : List H) (hashBlockSize blockSize : ℕ) :
    Except PyErr (List H) :=
  if blockSize = hashBlockSize then .ok blockHashes
  else if blockSize % hashBlockSize ≠ 0 then .error .assertionError
  else
    let scaleFactor := blockSize / hashBlockSize
    .ok ((List.range (blockHashes.length / scaleFactor)).filterMap fun idx =>
      blockHashes[(idx + 1) * scaleFactor - 1]?)

namespace BlockPool

variable {H : Type}

/-- Run code on the free queue. -/
def onQueue {α : Type} (m : FreeKVCacheBlockQueue.QueueM α) : PoolM H α :=
  zoomWith (fun p : BlockPool H => p.freeBlockQueue) (fun p q => { p with freeBlockQueue := q }) m

/-- Raise what a computation without effects raises. -/
def ofExcept {α : Type} : Except PyErr α → PoolM H α
  | .ok a => pure a
  | .error e => throw e

/-- Change the record of block `b`. -/
def setBlock (p : BlockPool H) (b : ℕ) (blk : KVCacheBlock H) : BlockPool H :=
  { p with blocks := Function.update p.blocks b blk }

/-- `BlockPool.__init__`: the first block becomes the null block. -/
def init (numGpuBlocks : ℕ) (enableCaching : Bool) (hasher : BlockHasher H)
    (enableKvCacheEvents : Bool) : Except PyErr (BlockPool H) :=
  if numGpuBlocks = 0 then .error .assertionError
  else
    match FreeKVCacheBlockQueue.popleft (.init numGpuBlocks) with
    | .ok (.block nullBlock) queue =>
      .ok {
        numGpuBlocks := numGpuBlocks
        enableCaching := enableCaching
        hasher := hasher
        blocks := Function.update (fun _ => {}) nullBlock { isNull := true }
        freeBlockQueue := queue
        nullBlock := nullBlock
        enableKvCacheEvents := enableKvCacheEvents }
    | .ok _ _ => .error .assertionError
    | .error e _ => .error e

/-- `get_num_free_blocks`. -/
def getNumFreeBlocks (p : BlockPool H) : ℕ := p.freeBlockQueue.numFreeBlocks

/-- `get_cached_block`: one block per group, or none if some group has none. -/
def getCachedBlock (p : BlockPool H) (blockHash : H) : List ℕ → Option (List ℕ)
  | [] => some []
  | groupId :: groupIds =>
    match p.cachedBlockHashToBlock.getOneBlock ⟨blockHash, groupId⟩ with
    | none => none
    | some b => (p.getCachedBlock blockHash groupIds).map (b :: ·)

/-- `is_block_writable`. -/
def isBlockWritable (p : BlockPool H) (b : ℕ) : Bool :=
  !(p.blocks b).isNull && (p.blocks b).refCnt == 1 && (p.blocks b).blockHash.isNone

variable [DecidableEq H]

/-- The loop of `_remove_cached_block_hashes`: pop block `b` from every key in the list, and
return the keys it was found under. -/
def popHashes (b : ℕ) : List (BlockHashWithGroupId H) → PoolM H (List (BlockHashWithGroupId H))
  | [] => pure []
  | key :: keys => do
    let p ← get
    let (popped, m) := p.cachedBlockHashToBlock.pop key b
    set { p with cachedBlockHashToBlock := m }
    let removed ← popHashes b keys
    pure (if popped.isSome then key :: removed else removed)

/-- The primary key of a block followed by its secondary keys. -/
def keysOf (p : BlockPool H) (b : ℕ) : List (BlockHashWithGroupId H) :=
  (p.blocks b).blockHash.toList ++ (p.cachedBlockHashesByBlock b).getD []

/-- `_remove_cached_block_hashes`. -/
def removeCachedBlockHashes (b : ℕ) : PoolM H (List (BlockHashWithGroupId H)) := do
  let p ← get
  let blockHashes := p.keysOf b
  set { p with cachedBlockHashesByBlock := Function.update p.cachedBlockHashesByBlock b none }
  if blockHashes.isEmpty then pure []
  else
    let removedHashes ← popHashes b blockHashes
    modify fun p => p.setBlock b (p.blocks b).resetHash
    pure removedHashes

/-- `_emit_block_removed_events`. -/
def emitBlockRemovedEvents (keys : List (BlockHashWithGroupId H)) : PoolM H Unit :=
  modify fun p =>
    if p.enableKvCacheEvents then
      { p with kvEventQueue := p.kvEventQueue ++ keys.map fun key =>
          .blockRemoved { blockHashes := [key.blockHash], groupIdx := key.groupId } }
    else p

/-- `KVCacheBlock.set_block_hash`. -/
def setBlockHash (b : ℕ) (key : BlockHashWithGroupId H) (numTokens : Option ℕ) :
    PoolM H Unit := do
  let p ← get
  if (p.blocks b).blockHash = none ∧ (p.blocks b).blockHashNumTokens = none then
    set (p.setBlock b { p.blocks b with blockHash := some key, blockHashNumTokens := numTokens })
  else throw .assertionError

/-- Add a secondary key to a block. -/
def addSecondaryHash (p : BlockPool H) (b : ℕ) (key : BlockHashWithGroupId H) : BlockPool H :=
  let keys := (p.cachedBlockHashesByBlock b).getD []
  let keys := if key ∈ keys then keys else keys ++ [key]
  { p with
    cachedBlockHashesByBlock := Function.update p.cachedBlockHashesByBlock b (some keys) }

/-- `_insert_block_hash`. -/
def insertBlockHash (key : BlockHashWithGroupId H) (b : ℕ) (numTokens : Option ℕ) :
    PoolM H Unit := do
  let p ← get
  if (p.blocks b).blockHash = some key then pure ()
  else if p.cachedBlockHashToBlock.contain key b then pure ()
  else
    if (p.blocks b).blockHash = none then setBlockHash b key numTokens
    else modify fun p => p.addSecondaryHash b key
    modify fun p => { p with cachedBlockHashToBlock := p.cachedBlockHashToBlock.insert key b }

/-- Whether the block at offset `i` of the new blocks is masked out. -/
def maskedOut (blockMask : Option (List Bool)) (i : ℕ) : Bool :=
  match blockMask with
  | none => false
  | some mask => mask[i]? == some false

/-- In `cache_full_blocks` a new full block may have a hash only if it is promoted from a partial
entry; the old keys go. -/
def promoteBlock (b : ℕ) (numHashTokens : ℕ) : PoolM H Unit := do
  let p ← get
  if (p.blocks b).blockHash = none then pure ()
  else if (p.blocks b).blockHashNumTokens.any (· < numHashTokens) then
    let removedHashes ← removeCachedBlockHashes b
    emitBlockRemovedEvents removedHashes
  else throw .assertionError

/-- The loop of `cache_full_blocks` over the new full blocks from offset `i` on; returns the
hashes of the blocks cached. -/
def cacheFullBlocksLoop (newBlockHashes : List H) (numCachedBlocks blockSize kvCacheGroupId : ℕ)
    (blockMask : Option (List Bool)) : ℕ → List ℕ → PoolM H (List H)
  | _, [] => pure []
  | i, b :: bs => do
    let p ← get
    if (p.blocks b).isNull || maskedOut blockMask i then
      cacheFullBlocksLoop newBlockHashes numCachedBlocks blockSize kvCacheGroupId blockMask
        (i + 1) bs
    else
      match newBlockHashes[i]? with
      | none => throw .indexError
      | some blockHash =>
        let numHashTokens := (numCachedBlocks + i + 1) * blockSize
        promoteBlock b numHashTokens
        insertBlockHash ⟨blockHash, kvCacheGroupId⟩ b (some numHashTokens)
        let newHashes ← cacheFullBlocksLoop newBlockHashes numCachedBlocks blockSize
          kvCacheGroupId blockMask (i + 1) bs
        pure (blockHash :: newHashes)

/-- The extra keys of the blocks from index `i` on, for a `BlockStored` event. -/
def storedExtraKeys (p : BlockPool H) (r : Request H) (blocks : List ℕ)
    (numCachedBlocks blockSize : ℕ) (blockMask : Option (List Bool)) :
    ℕ → ℕ → ℤ → Except PyErr (List (Option (List ExtraKey)))
  | 0, _, _ => .ok []
  | fuel + 1, i, currMmIdx =>
    match blocks[i]? with
    | none => .error .indexError
    | some b =>
      if (p.blocks b).isNull || maskedOut blockMask (i - numCachedBlocks) then
        storedExtraKeys p r blocks numCachedBlocks blockSize blockMask fuel (i + 1) currMmIdx
      else
        let (extraKeys, currMmIdx) := generateBlockHashExtraKeys p.hasher r (i * blockSize)
          (i * blockSize + blockSize) currMmIdx
        (storedExtraKeys p r blocks numCachedBlocks blockSize blockMask fuel (i + 1)
          currMmIdx).map (extraKeys :: ·)

/-- `_build_block_stored_event`. -/
def buildBlockStoredEvent (r : Request H) (blockHashes : List H) (parentBlockHash : Option H)
    (startTokenIdx endTokenIdx blockSize kvCacheGroupId : ℕ)
    (extraKeysList : List (Option (List ExtraKey))) : KVCacheEvent H :=
  .blockStored {
    blockHashes := blockHashes
    parentBlockHash := parentBlockHash
    tokenIds := (r.allTokenIds.take endTokenIdx).drop startTokenIdx
    blockSize := blockSize
    loraId := r.loraRequest.map LoRARequest.loraIntId
    loraName := r.loraRequest.map LoRARequest.loraName
    extraKeys := tupleOrNone extraKeysList
    groupIdx := kvCacheGroupId }

/-- The end of `cache_full_blocks`: the `BlockStored` event of the new blocks. -/
def emitBlockStored (r : Request H) (blocks : List ℕ)
    (numCachedBlocks numFullBlocks blockSize kvCacheGroupId : ℕ) (blockMask : Option (List Bool))
    (blockHashes newHashes : List H) : PoolM H Unit := do
  let p ← get
  if p.enableKvCacheEvents then
    let parentBlockHash ← match numCachedBlocks with
      | 0 => pure none
      | k + 1 => match blockHashes[k]? with
        | none => throw .indexError
        | some h => pure (some h)
    let extraKeysList ← ofExcept (p.storedExtraKeys r blocks numCachedBlocks blockSize blockMask
      (numFullBlocks - numCachedBlocks) numCachedBlocks 0)
    let event := buildBlockStoredEvent r newHashes parentBlockHash (numCachedBlocks * blockSize)
      (numFullBlocks * blockSize) blockSize kvCacheGroupId extraKeysList
    modify fun p => { p with kvEventQueue := p.kvEventQueue ++ [event] }
  else pure ()

/-- `cache_full_blocks`. -/
def cacheFullBlocks (r : Request H) (blocks : List ℕ)
    (numCachedBlocks numFullBlocks blockSize kvCacheGroupId : ℕ)
    (blockMask : Option (List Bool)) : PoolM H Unit := do
  if numCachedBlocks ≥ numFullBlocks then pure ()
  else
    let newFullBlocks := (blocks.take numFullBlocks).drop numCachedBlocks
    if blockMask.all (·.length == newFullBlocks.length) then
      let p ← get
      let blockHashes ← ofExcept
        (resolveBlockHashes r.blockHashes p.hasher.hashBlockSize blockSize)
      let newHashes ← cacheFullBlocksLoop (blockHashes.drop numCachedBlocks) numCachedBlocks
        blockSize kvCacheGroupId blockMask 0 newFullBlocks
      emitBlockStored r blocks numCachedBlocks numFullBlocks blockSize kvCacheGroupId blockMask
        blockHashes newHashes
    else throw .assertionError

/-- `_get_partial_block_hash`. -/
def getPartialBlockHash (p : BlockPool H) (r : Request H) (numTokens : ℕ) : Except PyErr H :=
  let numHashBlocks := numTokens / p.hasher.hashBlockSize
  if numTokens % p.hasher.hashBlockSize ≠ 0 then .error .assertionError
  else if numHashBlocks = 0 then .error .assertionError
  else
    match r.blockHashes[numHashBlocks - 1]? with
    | none => .error .assertionError
    | some h => .ok h

/-- The `BlockStored` event of a partial entry. -/
def partialStoredEvent (p : BlockPool H) (r : Request H) (blockHash : H)
    (numTokens kvCacheGroupId : ℕ) : KVCacheEvent H :=
  let numHashBlocks := numTokens / p.hasher.hashBlockSize
  let blockStart := (numHashBlocks - 1) * p.hasher.hashBlockSize
  let (extraKeys, _) := generateBlockHashExtraKeys p.hasher r blockStart numTokens
    (if blockStart > 0 then -1 else 0)
  .blockStored {
    blockHashes := [blockHash]
    parentBlockHash := if numHashBlocks > 1 then r.blockHashes[numHashBlocks - 2]? else none
    tokenIds := (r.allTokenIds.take numTokens).drop blockStart
    blockSize := numTokens - blockStart
    loraId := r.loraRequest.map LoRARequest.loraIntId
    loraName := r.loraRequest.map LoRARequest.loraName
    extraKeys := some [extraKeys]
    groupIdx := kvCacheGroupId }

/-- `cache_partial_block`. -/
def cachePartialBlock (r : Request H) (b numTokens kvCacheGroupId blockSize : ℕ) :
    PoolM H (Option (BlockHashWithGroupId H)) := do
  let p ← get
  let hashBlockSize := p.hasher.hashBlockSize
  if (p.blocks b).isNull then pure none
  else if blockSize ≤ hashBlockSize ∨ blockSize % hashBlockSize ≠ 0 ∨ numTokens % blockSize = 0 then
    throw .assertionError
  else
    let blockHash ← ofExcept (p.getPartialBlockHash r numTokens)
    let numHashTokens := numTokens / hashBlockSize * hashBlockSize
    let key : BlockHashWithGroupId H := ⟨blockHash, kvCacheGroupId⟩
    let alreadyCached := decide ((p.blocks b).blockHash = some key) ||
      p.cachedBlockHashToBlock.contain key b
    if !alreadyCached && (p.blocks b).blockHash.isSome &&
        (p.blocks b).blockHashNumTokens.any (· < numHashTokens) then
      let removedHashes ← removeCachedBlockHashes b
      emitBlockRemovedEvents removedHashes
    else pure ()
    insertBlockHash key b (some numHashTokens)
    if p.enableKvCacheEvents && !alreadyCached then
      modify fun p => { p with
        kvEventQueue := p.kvEventQueue ++ [p.partialStoredEvent r blockHash numTokens
          kvCacheGroupId] }
    else pure ()
    pure (some key)

/-- The loop of `move_block_hashes`. -/
def insertBlockHashes (b : ℕ) (numTokens : Option ℕ) :
    List (BlockHashWithGroupId H) → PoolM H Unit
  | [] => pure ()
  | key :: keys => do
    insertBlockHash key b numTokens
    insertBlockHashes b numTokens keys

/-- `move_block_hashes`. -/
def moveBlockHashes (src dst : ℕ) : PoolM H Unit := do
  let p ← get
  if (p.blocks dst).blockHash ≠ none ∨ p.cachedBlockHashesByBlock dst ≠ none then
    throw .assertionError
  else
    let numTokens := (p.blocks src).blockHashNumTokens
    let keys ← removeCachedBlockHashes src
    insertBlockHashes dst numTokens keys

/-- `_maybe_evict_cached_block`. -/
def maybeEvictCachedBlock (b : ℕ) : PoolM H Bool := do
  let evictedHashes ← removeCachedBlockHashes b
  if evictedHashes.isEmpty then pure false
  else
    emitBlockRemovedEvents evictedHashes
    pure true

/-- The loop of `get_new_blocks` over the blocks taken from the queue. -/
def claimBlocks : List ℕ → PoolM H Unit
  | [] => pure ()
  | b :: bs => do
    if (← get).enableCaching then let _ ← maybeEvictCachedBlock b
    let p ← get
    if (p.blocks b).refCnt ≠ 0 then throw .assertionError
    else
      set (p.setBlock b { p.blocks b with refCnt := (p.blocks b).refCnt + 1 })
      claimBlocks bs

/-- `get_new_blocks`. -/
def getNewBlocks (numBlocks : ℕ) : PoolM H (List ℕ) := do
  let p ← get
  if numBlocks > p.getNumFreeBlocks then
    throw (.valueError s!"Cannot get {numBlocks} free blocks from the pool")
  else
    let nodes ← onQueue (FreeKVCacheBlockQueue.popleftN numBlocks)
    let ret := nodes.filterMap FreeNode.blockId?
    claimBlocks ret
    pure ret

/-- `touch`. -/
def touch : List ℕ → PoolM H Unit
  | [] => pure ()
  | b :: bs => do
    let p ← get
    if (p.blocks b).refCnt = 0 ∧ (p.blocks b).isNull = false then
      onQueue (FreeKVCacheBlockQueue.remove b)
    else pure ()
    modify fun p => p.setBlock b { p.blocks b with refCnt := (p.blocks b).refCnt + 1 }
    touch bs

/-- The loop of `free_blocks`: drop one reference of each block, and sort the blocks that become
free into those to evict last and those to evict first. -/
def releaseBlocks : List ℕ → PoolM H (List ℕ × List ℕ)
  | [] => pure ([], [])
  | b :: bs => do
    modify fun p => p.setBlock b { p.blocks b with refCnt := (p.blocks b).refCnt - 1 }
    let p ← get
    let (evictLast, evictFirst) ← releaseBlocks bs
    if (p.blocks b).refCnt = 0 ∧ (p.blocks b).isNull = false then
      if (p.blocks b).blockHash = none ∨ p.enableCaching = false then
        pure (evictLast, b :: evictFirst)
      else pure (b :: evictLast, evictFirst)
    else pure (evictLast, evictFirst)

/-- `free_blocks`. -/
def freeBlocks (orderedBlocks : List ℕ) : PoolM H Unit := do
  let (blocksToEvictLast, blocksToEvictFirst) ← releaseBlocks orderedBlocks
  onQueue (FreeKVCacheBlockQueue.prependN blocksToEvictFirst)
  onQueue (FreeKVCacheBlockQueue.appendN blocksToEvictLast)

/-- `evict_blocks`. -/
def evictBlocks : List ℕ → PoolM H Unit
  | [] => pure ()
  | b :: bs => do
    let p ← get
    if b < p.numGpuBlocks then
      let _ ← maybeEvictCachedBlock b
      evictBlocks bs
    else throw .assertionError

/-- `reset_prefix_cache`. -/
def resetPrefixCache : PoolM H Bool := do
  let p ← get
  -- The null block is always marked as used.
  if (p.numGpuBlocks : ℤ) - p.getNumFreeBlocks ≠ 1 then pure false
  else
    set { p with
      cachedBlockHashToBlock := {}
      cachedBlockHashesByBlock := fun _ => none
      blocks := fun b => (p.blocks b).resetHash
      kvEventQueue := if p.enableKvCacheEvents then p.kvEventQueue ++ [KVCacheEvent.allBlocksCleared]
        else p.kvEventQueue }
    pure true

/-- `take_events`. -/
def takeEvents : PoolM H (List (KVCacheEvent H)) := do
  let p ← get
  if p.enableKvCacheEvents then
    set { p with kvEventQueue := [] }
    pure p.kvEventQueue
  else pure []

end BlockPool

end Lvllm
