import Lvllm.Offload.CachePolicy

/-!
# The CPU offload pool

`CPUOffloadingManager` tracks which blocks are offloaded to the CPU buffer and where.  A slot of the
buffer is fresh, in use by a block, or in the free list.  A store reserves slots for the keys that
are not there yet, evicting idle blocks if it has to, and the blocks become readable when it
completes; a load counts as a reader of its blocks until it completes.

Keys are compared and never looked into, so `Key` is any type.  The counters that only feed the
statistics are left out.
-/

namespace Lvllm

/-- `LookupResult` -/
inductive LookupResult where
  | miss
  | hit
  | hitPending
  | retry
  deriving DecidableEq, Repr

/-- What the pool tells about its keys: stored, or removed. -/
structure OffloadingEvent (Key : Type) where
  keys : List Key
  removed : Bool
  deriving DecidableEq, Repr

/-- `PrepareStoreOutput`; the store specification is the list of slots. -/
structure PrepareStoreOutput (Key : Type) where
  keysToStore : List Key
  storeSpec : List ℕ
  evictedKeys : List Key
  deriving DecidableEq, Repr

/-- `CPUOffloadingManager` -/
structure CPUOffloadingManager (Key : Type) where
  numBlocks : ℕ
  numAllocatedBlocks : ℕ
  freeList : List ℕ
  /-- The events that were not taken yet, if events are enabled. -/
  events : Option (List (OffloadingEvent Key))
  policy : CachePolicy Key
  /-- The number of blocks with `ref_cnt` 0. -/
  numEvictableCacheBlocks : ℤ
  /-- The number of blocks with a store in flight. -/
  numWritePendingBlocks : ℤ
  storeThreshold : ℤ
  maxTrackerSize : ℤ
  /-- How often keys were offered for a store, if stores are filtered. -/
  counts : Option (Dict Key ℕ)

/-- Code of the pool. -/
abbrev OffloadM (Key : Type) := EStateM PyErr (CPUOffloadingManager Key)

namespace CPUOffloadingManager

variable {Key : Type}

/-- `CPUOffloadingManager.__init__` -/
def init (numBlocks : ℕ) (cachePolicy : CachePolicyName) (enableEvents : Bool)
    (storeThreshold maxTrackerSize : ℤ) (round : ℚ → ℚ) : CPUOffloadingManager Key where
  numBlocks := numBlocks
  numAllocatedBlocks := 0
  freeList := []
  events := if enableEvents then some [] else none
  policy := .ofName cachePolicy numBlocks round
  numEvictableCacheBlocks := 0
  numWritePendingBlocks := 0
  storeThreshold := storeThreshold
  maxTrackerSize := maxTrackerSize
  counts := if 2 ≤ storeThreshold then some .empty else none

/-- `_get_num_free_blocks` -/
def getNumFreeBlocks (m : CPUOffloadingManager Key) : ℤ :=
  m.freeList.length + m.numBlocks - m.numAllocatedBlocks

/-- `_allocate_blocks`: fresh slots first, then slots from the end of the free list. -/
def allocateBlocks (n : ℕ) : OffloadM Key (List BlockStatus) := do
  let m ← get
  let numFresh := min (n : ℤ) (m.numBlocks - m.numAllocatedBlocks)
  let numReused := n - numFresh
  if numReused ≤ m.freeList.length then
    let fresh := (List.range numFresh.toNat).map (m.numAllocatedBlocks + ·)
    let reused := m.freeList.reverse.take numReused.toNat
    set { m with
      numAllocatedBlocks := m.numAllocatedBlocks + numFresh.toNat
      freeList := m.freeList.take (m.freeList.length - numReused.toNat) }
    pure ((fresh ++ reused).map BlockStatus.new)
  else throw .assertionError

/-- `_free_block` -/
def freeBlock (m : CPUOffloadingManager Key) (block : BlockStatus) : CPUOffloadingManager Key :=
  { m with freeList := m.freeList ++ [block.blockId] }

/-- An event is recorded if events are enabled and there are keys. -/
def emit (m : CPUOffloadingManager Key) (keys : List Key) (removed : Bool) :
    CPUOffloadingManager Key :=
  if keys.isEmpty then m
  else { m with events := m.events.map (· ++ [{ keys := keys, removed := removed }]) }

variable [DecidableEq Key]

/-- `_record_access` -/
def recordAccess (maxTrackerSize : ℤ) (counts : Dict Key ℕ) (key : Key) :
    Except PyErr (Dict Key ℕ) :=
  match counts.get? key with
  | some n => .ok ((counts.moveToEnd key).set key (n + 1))
  | none =>
    if maxTrackerSize ≤ counts.size then
      -- `popitem` raises when there is nothing to pop.
      if counts.size = 0 then .error .keyError else .ok ((counts.dropFirst 1).set key 1)
    else .ok (counts.set key 1)

/-- `lookup` -/
def lookup (m : CPUOffloadingManager Key) (key : Key) : LookupResult :=
  match m.policy.get key with
  | none => .miss
  | some block => if block.isReady then .hit else .hitPending

/-- An idle block is taken into use. -/
def takeIdle (key : Key) : OffloadM Key PUnit := do
  let m ← get
  let policy ← liftExcept (m.policy.markNonEvictable key)
  set { m with policy := policy, numEvictableCacheBlocks := m.numEvictableCacheBlocks - 1 }
  if m.numEvictableCacheBlocks - 1 < 0 then throw .assertionError else pure ⟨⟩

/-- One key of `prepare_load`. -/
def prepareLoadOne (key : Key) : OffloadM Key ℕ := do
  let m ← get
  match m.policy.get key with
  | none => throw .assertionError
  | some block =>
    if block.isReady then do
      (if block.refCnt = 0 then takeIdle key else pure ⟨⟩)
      modify fun m => { m with policy := m.policy.setRefCnt key (int32 (block.refCnt + 1)) }
      pure block.blockId
    else throw .assertionError

/-- `prepare_load`: the slots of the keys. -/
def prepareLoad (keys : List Key) : OffloadM Key (List ℕ) := keys.mapM prepareLoadOne

/-- `touch` -/
def touch (m : CPUOffloadingManager Key) (keys : List Key) : CPUOffloadingManager Key :=
  { m with policy := m.policy.touch keys }

/-- One key of `complete_load`. -/
def completeLoadOne (key : Key) : OffloadM Key PUnit := do
  let m ← get
  match m.policy.get key with
  | none => throw .assertionError
  | some block =>
    if 0 < block.refCnt then
      let refCnt := int32 (block.refCnt - 1)
      let policy := m.policy.setRefCnt key refCnt
      if refCnt = 0 then
        set { m with
          policy := policy.markEvictable key
          numEvictableCacheBlocks := m.numEvictableCacheBlocks + 1 }
      else set { m with policy := policy }
    else throw .assertionError

/-- `complete_load` -/
def completeLoad (keys : List Key) : OffloadM Key PUnit := keys.forM completeLoadOne

/-- The store filter of `prepare_store`: a key has to be offered several times. -/
def admitted (keys : List Key) : OffloadM Key (List Key) := do
  let m ← get
  match m.counts with
  | none => pure keys
  | some counts =>
    let counts ← liftExcept (keys.foldlM (recordAccess m.maxTrackerSize) counts)
    set { m with counts := some counts }
    pure (keys.filter fun key => m.storeThreshold ≤ ((counts.get? key).getD 0 : ℕ))

/-- The eviction of `prepare_store`: room for `n` blocks, or `none`. -/
def makeRoom (n : ℕ) (protectedKeys : List Key) : OffloadM Key (Option (List Key)) := do
  let m ← get
  let numBlocksToEvict := n - m.getNumFreeBlocks
  if 0 < numBlocksToEvict then
    if m.numEvictableCacheBlocks < numBlocksToEvict then pure none
    else do
      let (evicted, policy) ← liftExcept (m.policy.evict numBlocksToEvict.toNat protectedKeys)
      match evicted with
      | none => pure none
      | some evicted => do
        set { m with
          policy := policy
          numEvictableCacheBlocks := m.numEvictableCacheBlocks - evicted.length }
        if m.numEvictableCacheBlocks - evicted.length < 0 then throw .assertionError
        modify fun m => evicted.foldl (fun m e => m.freeBlock e.2) m
        pure (some (evicted.map Prod.fst))
  else pure (some [])

/-- `prepare_store` -/
def prepareStore (keys : List Key) : OffloadM Key (Option (PrepareStoreOutput Key)) := do
  let keys ← admitted keys
  let m ← get
  let keysToStore := keys.filter fun key => (m.policy.get key).isNone
  if keysToStore.isEmpty then
    pure (some { keysToStore := [], storeSpec := [], evictedKeys := [] })
  else do
    match ← makeRoom keysToStore.length keys with
    | none => pure none
    | some toEvict => do
      modify (·.emit toEvict true)
      let blocks ← allocateBlocks keysToStore.length
      if blocks.length = keysToStore.length then
        modify fun m => { m with
          policy := (keysToStore.zip blocks).foldl (fun p e => p.insert e.1 e.2) m.policy
          numWritePendingBlocks := m.numWritePendingBlocks + keysToStore.length }
        pure (some {
          keysToStore := keysToStore
          storeSpec := blocks.map BlockStatus.blockId
          evictedKeys := toEvict })
      else throw .assertionError

/-- One key of a store that succeeded: whether it was pending. -/
def storeSucceeded (key : Key) : OffloadM Key Bool := do
  let m ← get
  match m.policy.get key with
  | none => pure false
  | some block =>
    if block.isReady then pure false
    else do
      set { m with
        policy := (m.policy.setRefCnt key 0).markEvictable key
        numWritePendingBlocks := m.numWritePendingBlocks - 1
        numEvictableCacheBlocks := m.numEvictableCacheBlocks + 1 }
      pure true

/-- One key of a store that failed. -/
def storeFailed (key : Key) : OffloadM Key PUnit := do
  let m ← get
  match m.policy.get key with
  | none => pure ()
  | some block =>
    if block.isReady then pure ()
    else do
      modify fun m => { m with numWritePendingBlocks := m.numWritePendingBlocks - 1 }
      let policy ← liftExcept (m.policy.remove key)
      modify fun m => freeBlock { m with policy := policy } block

/-- The keys of a store that succeeded; those that were pending are returned. -/
def storesSucceeded : List Key → OffloadM Key (List Key)
  | [] => pure []
  | key :: keys => do
    let stored ← storeSucceeded key
    let more ← storesSucceeded keys
    pure (if stored then key :: more else more)

/-- `complete_store` -/
def completeStore (keys : List Key) (success : Bool) : OffloadM Key PUnit :=
  if success then do
    let stored ← storesSucceeded keys
    modify (·.emit stored false)
  else keys.forM storeFailed

/-- `reset_cache` -/
def resetCache (m : CPUOffloadingManager Key) : CPUOffloadingManager Key :=
  { m with
    policy := m.policy.clear
    numEvictableCacheBlocks := 0
    numWritePendingBlocks := 0
    freeList := []
    numAllocatedBlocks := 0 }

/-- `take_events` -/
def takeEvents : OffloadM Key (List (OffloadingEvent Key)) := do
  let m ← get
  set { m with events := m.events.map fun _ => [] }
  pure (m.events.getD [])

end CPUOffloadingManager

end Lvllm
