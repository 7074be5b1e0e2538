import Lvllm.KVCache.Mamba

/-!
# Hybrid models with Mamba groups

`HybridKVCacheCoordinator` looks hits up in a model whose groups are of several kinds, Mamba groups
among them, and possibly in several block pools.  The groups with one spec and one pool are looked up
together.  A candidate length is shortened by one lookup after the other until all of them accept
it; full attention is looked up once and cut at the end.
-/

namespace Lvllm

open List

/-- The specs of the KV cache groups of a hybrid model. -/
inductive HybridSpec where
  | attention (spec : KVCacheSpec)
  | mamba (spec : MambaSpec) (layout : ℕ)
  deriving DecidableEq

namespace HybridSpec

/-- The tokens of a block. -/
def blockSize : HybridSpec → ℕ
  | attention spec => spec.blockSize
  | mamba spec _ => spec.blockSize

lemma blockSize_pos (spec : HybridSpec) : 0 < spec.blockSize := by
  cases spec with
  | attention spec | mamba spec _ => exact spec.blockSize_pos

/-- `isinstance(spec, FullAttentionSpec)`. -/
def isFullAttention : HybridSpec → Bool
  | attention spec => spec.isFullAttention
  | mamba _ _ => false

/-- `isinstance(spec, MambaSpec)`. -/
def isMamba : HybridSpec → Bool
  | attention _ => false
  | mamba _ _ => true

/-- `participates_in_prefix_caching`, which is also `prefix_cacheable`. -/
def participatesInPrefixCaching : HybridSpec → Bool
  | attention spec => spec.participatesInPrefixCaching
  | mamba _ _ => true

/-- `supports_fine_grained_hash_lookup` of the manager class. -/
def supportsFineGrainedHashLookup : HybridSpec → Bool
  | attention spec => spec.supportsFineGrainedHashLookup
  | mamba _ _ => true

/-- `find_longest_cache_hit` of the manager class.  Mamba lookups drop nothing for EAGLE. -/
def findLongestCacheHit {H : Type} (spec : HybridSpec) (p : BlockPool H) (blockHashes : List H)
    (maxLength : ℕ) (groupIds : List ℕ) (dropEagleBlock : Bool) (alignmentTokens : ℕ) :
    Except PyErr (List (List ℕ) × ℕ) :=
  match spec with
  | attention spec =>
    p.findLongestCacheHit blockHashes maxLength groupIds spec dropEagleBlock alignmentTokens
  | mamba spec _ => p.mambaHit blockHashes maxLength groupIds spec.blockSize alignmentTokens

end HybridSpec

/-- A group of the KV cache configuration: its spec and its block pool. -/
structure KVCacheGroupSpec where
  spec : HybridSpec
  poolId : ℕ

/-- `SpecGroup`: groups with one spec and one pool. -/
structure HybridSpecGroup where
  spec : HybridSpec
  groupIds : List ℕ
  useEagle : Bool
  poolId : ℕ

/-- `HybridKVCacheCoordinator`, as far as lookups read it. -/
structure HybridCoordinator (H : Type) where
  hashBlockSize : ℕ
  schedulerBlockSize : ℕ
  /-- Whether lookups may end inside a block. -/
  enablePartialHashHits : Bool
  eagleGroupIds : List ℕ
  kvCacheGroups : List KVCacheGroupSpec
  blockPools : ℕ → BlockPool H

namespace HybridCoordinator

variable {H : Type}

variable (c : HybridCoordinator H)

/-- `_cache_hit_alignment_tokens`. -/
def cacheHitAlignmentTokens : ℕ :=
  if c.enablePartialHashHits then c.hashBlockSize else c.schedulerBlockSize

/-- Add group `i` to the spec groups. -/
def addToAttentionGroups (g : KVCacheGroupSpec) (i : ℕ) (useEagle : Bool) :
    List HybridSpecGroup → List HybridSpecGroup
  | [] => [⟨g.spec, [i], useEagle, g.poolId⟩]
  | group :: groups =>
    if group.spec = g.spec ∧ group.poolId = g.poolId then
      { group with groupIds := group.groupIds ++ [i], useEagle := group.useEagle || useEagle } ::
        groups
    else group :: addToAttentionGroups g i useEagle groups

/-- One round of the loop of `verify_and_split_kv_cache_groups`. -/
def splitGroup (eagleGroupIds : List ℕ) (groups : List HybridSpecGroup)
    (x : KVCacheGroupSpec × ℕ) : List HybridSpecGroup :=
  if x.1.spec.participatesInPrefixCaching then
    addToAttentionGroups x.1 x.2 (eagleGroupIds.contains x.2) groups
  else groups

/-- `verify_and_split_kv_cache_groups`: full attention first. -/
def attentionGroups : List HybridSpecGroup :=
  let groups := c.kvCacheGroups.zipIdx.foldl (splitGroup c.eagleGroupIds) []
  groups.filter (·.spec.isFullAttention) ++ groups.filter (!·.spec.isFullAttention)

/-- Whether fine-grained hits are possible: some Mamba block is longer than a hash unit, and every
group that needs block-aligned lookups has blocks of one hash unit. -/
def partialHashHits (hashBlockSize : ℕ) (groups : List KVCacheGroupSpec) : Bool :=
  groups.any (fun g => g.spec.isMamba && decide (hashBlockSize < g.spec.blockSize)) &&
    groups.all fun g => !g.spec.participatesInPrefixCaching ||
      g.spec.supportsFineGrainedHashLookup || g.spec.blockSize == hashBlockSize

/-- `scheduler_block_size` of `resolve_kv_cache_block_sizes`, for several groups. -/
def lcmBlockSize (groups : List KVCacheGroupSpec) : ℕ :=
  (groups.map (·.spec.blockSize)).foldr Nat.lcm 1

/-- The constructor, with the block sizes of `resolve_kv_cache_block_sizes`. -/
def init (groups : List KVCacheGroupSpec) (eagleGroupIds : List ℕ) (hashBlockSize : ℕ)
    (blockPools : ℕ → BlockPool H) : Except PyErr (HybridCoordinator H) :=
  let c : HybridCoordinator H :=
    { hashBlockSize := hashBlockSize
      schedulerBlockSize := lcmBlockSize groups
      enablePartialHashHits := partialHashHits hashBlockSize groups
      eagleGroupIds := eagleGroupIds
      kvCacheGroups := groups
      blockPools := blockPools }
  if groups.all (fun g => !g.spec.participatesInPrefixCaching ||
      decide (g.spec.blockSize % hashBlockSize = 0)) && !c.attentionGroups.isEmpty then .ok c
  else .error .assertionError

/-- The variables of the hybrid lookup. -/
structure HitSearch where
  /-- The candidate length. -/
  currHitLength : ℕ
  longestHitLength : ℕ := 0
  /-- The hit of each group, once it is looked up. -/
  hits : Dict ℕ (List ℕ × ℕ) := .empty
  /-- The spec groups whose EAGLE block is dropped at the candidate length. -/
  eagleVerified : List ℕ := []

/-- How much longer a lookup is that drops its end. -/
def eagleMargin (group : HybridSpecGroup) : ℕ :=
  if c.enablePartialHashHits && group.spec.supportsFineGrainedHashLookup &&
      decide (c.hashBlockSize < group.spec.blockSize) then c.hashBlockSize
  else group.spec.blockSize

/-- The lookup of one spec group, at the candidate length. -/
def lookUpGroup (blockHashes : List H) (maxCacheHitLength idx : ℕ)
    (group : HybridSpecGroup) (search : HitSearch) :
    Except PyErr HitSearch := do
  let dropEagleBlock := group.useEagle && !search.eagleVerified.contains idx
  let maxLength :=
    if dropEagleBlock && !group.spec.isMamba then
      min (search.currHitLength + c.eagleMargin group) maxCacheHitLength
    else search.currHitLength
  let (rows, newHitLength) ← group.spec.findLongestCacheHit (c.blockPools group.poolId)
    blockHashes maxLength group.groupIds dropEagleBlock c.cacheHitAlignmentTokens
  let eagleVerified :=
    if dropEagleBlock then search.eagleVerified ++ [idx]
    else if newHitLength < search.currHitLength then []
    else search.eagleVerified
  let hits := (group.groupIds.zip (columnsOf group.groupIds.length rows)).foldl
    (fun hits (groupId, blocks) => hits.set groupId (blocks, newHitLength)) search.hits
  pure {
    currHitLength := newHitLength
    longestHitLength := max search.longestHitLength newHitLength
    hits := hits
    eagleVerified := eagleVerified }

/-- One spec group in the loop of `find_longest_cache_hit`. -/
def lookupSpecGroup (blockHashes : List H) (maxCacheHitLength idx : ℕ)
    (group : HybridSpecGroup) (search : HitSearch) :
    Except PyErr HitSearch :=
  match group.spec.isFullAttention, group.groupIds.head?.bind search.hits.get? with
  | true, some (_, length) =>
    -- Full attention is looked up once; later it is only cut.
    .ok { search with currHitLength := min search.currHitLength length }
  | _, _ => c.lookUpGroup blockHashes maxCacheHitLength idx group search

/-- One pass over the spec groups from index `idx` on. -/
def lookupPass (c : HybridCoordinator H) (blockHashes : List H) (maxCacheHitLength : ℕ) :
    ℕ → List HybridSpecGroup → HitSearch → Except PyErr HitSearch
  | _, [], search => .ok search
  | idx, group :: groups, search => do
    let search ← c.lookupSpecGroup blockHashes maxCacheHitLength idx group search
    c.lookupPass blockHashes maxCacheHitLength (idx + 1) groups search

/-- The loop.  Each pass that does not end it makes the candidate shorter. -/
def lookupLoop (c : HybridCoordinator H) (blockHashes : List H) (maxCacheHitLength : ℕ)
    (isSimpleHybrid : Bool) :
    ℕ → HitSearch → Except PyErr HitSearch
  | 0, search => .ok search
  | fuel + 1, search => do
    let hitLength := search.currHitLength
    let search ← c.lookupPass blockHashes maxCacheHitLength 0 c.attentionGroups search
    if search.currHitLength ≥ hitLength then pure { search with currHitLength := hitLength }
    else if isSimpleHybrid then pure search
    else c.lookupLoop blockHashes maxCacheHitLength isSimpleHybrid fuel search

/-- The blocks of a group at the final length: full attention is cut to it. -/
def finalHit (hits : Dict ℕ (List ℕ × ℕ)) (hitLength : ℕ) (g : KVCacheGroupSpec) (i : ℕ) : List ℕ :=
  match hits.get? i with
  | none => []
  | some (blocks, _) =>
    if g.spec.isFullAttention then blocks.take (cdiv hitLength g.spec.blockSize) else blocks

/-- One full attention spec and one other need only one pass. -/
def isSimpleHybrid : Bool :=
  match c.attentionGroups with
  | [g, _] => g.spec.isFullAttention
  | _ => false

/-- `find_longest_cache_hit`: the blocks of each group, the length of the hit, and by how much some
group could serve more. -/
def findLongestCacheHit (blockHashes : List H)
    (maxCacheHitLength : ℕ) : Except PyErr (List (List ℕ) × ℕ × ℕ) := do
  let search ← c.lookupLoop blockHashes maxCacheHitLength c.isSimpleHybrid (maxCacheHitLength + 2)
    { currHitLength := maxCacheHitLength }
  let hitLength := search.currHitLength
  pure (c.kvCacheGroups.zipIdx.map fun x => finalHit search.hits hitLength x.1 x.2, hitLength,
    search.longestHitLength - hitLength)

/-- `find_longest_cache_hit_per_group`: each spec group by itself, at the full length. -/
def findLongestCacheHitPerGroup (blockHashes : List H)
    (maxCacheHitLength : ℕ) : Except PyErr (List (List ℕ) × List ℕ) := do
  let hits ← c.attentionGroups.foldlM (fun hits group => do
    -- The world sizes are those of `manager`, a name that is bound nowhere: to read it raises.
    let _ ← (throw .nameError : Except PyErr (ℕ × ℕ))
    let (rows, groupHit) ← group.spec.findLongestCacheHit (c.blockPools group.poolId) blockHashes
      maxCacheHitLength group.groupIds group.useEagle c.cacheHitAlignmentTokens
    pure ((group.groupIds.zip (columnsOf group.groupIds.length rows)).foldl
      (fun hits (groupId, blocks) => hits.set groupId (blocks, groupHit)) hits))
    (.empty : Dict ℕ (List ℕ × ℕ))
  let hits := c.kvCacheGroups.zipIdx.map fun x => (hits.get? x.2).getD ([], 0)
  pure (hits.map Prod.fst, hits.map Prod.snd)

end HybridCoordinator

end Lvllm
