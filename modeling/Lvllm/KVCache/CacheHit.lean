import Lvllm.KVCache.SingleType

/-!
# Finding the longest cache hit

Each kind of group looks its own blocks up: full attention from the left until a block is missing,
the sliding window from the right until enough blocks in a row are there, chunked local attention
inside the last chunk.  A model with several groups needs one length that all of them can serve;
the hybrid coordinator shortens a candidate until every group accepts it.

A lookup covers several groups with one spec at once.  Its result is kept as rows, one row per
block position and one block per group in each row.
-/

namespace Lvllm

variable {H : Type}

/-- `resolve_block_hashes` for lookups: the fine-grained view keeps the hashes as they are. -/
def resolveLookupHashes (blockHashes : List H) (hashBlockSize blockSize alignmentTokens : ℕ)
    (supportsFineGrained : Bool) : Except PyErr (List H) :=
  if blockSize = hashBlockSize then .ok blockHashes
  else if supportsFineGrained && decide (alignmentTokens < blockSize ∧
      blockSize % alignmentTokens = 0) then .ok blockHashes
  else resolveBlockHashes blockHashes hashBlockSize blockSize

/-- The blocks of each group from rows that have one block per group. -/
def columnsOf (numGroups : ℕ) (rows : List (List ℕ)) : List (List ℕ) :=
  (List.range numGroups).map fun j => rows.filterMap (·[j]?)

namespace BlockPool

/-- The rows of the cached blocks from the left, up to the first block that is missing. -/
def cachedRun (p : BlockPool H) (groupIds : List ℕ) : List H → List (List ℕ)
  | [] => []
  | h :: hs =>
    match p.getCachedBlock h groupIds with
    | none => []
    | some row => row :: cachedRun p groupIds hs

/-- The partial hit of full attention: the first cached hash from index `stop + n - 1` down to
`stop`, and its index. -/
def cachedTail (p : BlockPool H) (groupIds : List ℕ) (hashes : List H) (stop : ℕ) :
    ℕ → Option (List ℕ × ℕ)
  | 0 => none
  | n + 1 =>
    match hashes[stop + n]?.bind (p.getCachedBlock · groupIds) with
    | some row => some (row, stop + n)
    | none => cachedTail p groupIds hashes stop n

variable (p : BlockPool H) (blockHashes : List H) (maxLength : ℕ) (groupIds : List ℕ)

/-- `FullAttentionManager.find_longest_cache_hit`. -/
def fullAttentionHit (blockSize : ℕ) (dropEagleBlock : Bool) (alignmentTokens : ℕ) :
    Except PyErr (List (List ℕ) × ℕ) := do
  let blockHashes ← resolveLookupHashes blockHashes p.hasher.hashBlockSize blockSize
    alignmentTokens true
  let fineGrained := decide (alignmentTokens < blockSize ∧ blockSize % alignmentTokens = 0)
  let fullBlockHashes ←
    if fineGrained then resolveBlockHashes blockHashes alignmentTokens blockSize
    else pure blockHashes
  let rows := p.cachedRun groupIds (fullBlockHashes.take (maxLength / blockSize))
  let (rows, hitLength) :=
    if fineGrained then
      let scaleFactor := blockSize / alignmentTokens
      let firstPartialIdx := rows.length * scaleFactor
      let maxPartialIdx := min (min (firstPartialIdx + scaleFactor - 1)
        (maxLength / alignmentTokens)) blockHashes.length
      match p.cachedTail groupIds blockHashes firstPartialIdx (maxPartialIdx - firstPartialIdx) with
      | some (row, fineIdx) => (rows ++ [row], (fineIdx + 1) * alignmentTokens)
      | none => (rows, rows.length * blockSize)
    else (rows, rows.length * blockSize)
  -- EAGLE has the last block, or hash unit, recomputed.
  let hitLength :=
    if dropEagleBlock && decide (0 < hitLength) then hitLength - min alignmentTokens blockSize
    else hitLength
  let hitLength := hitLength - hitLength % alignmentTokens
  pure (rows.take (cdiv hitLength blockSize), hitLength)

/-- The search of the sliding window from position `i - 1` to the left: the rows, the number of
cached blocks in a row, and whether it is large enough. -/
def slidingWindowScan (p : BlockPool H) (groupIds : List ℕ) (hashes : List H)
    (blockSize contiguousBlocks alignmentTokens : ℕ) (dropEagleBlock : Bool) :
    ℕ → List (List ℕ) → ℕ → Except PyErr (List (List ℕ) × ℕ × Bool)
  | 0, rows, numContiguous => .ok (rows, numContiguous, false)
  | i + 1, rows, numContiguous =>
    match hashes[i]? with
    | none => .error .indexError
    | some h =>
      match p.getCachedBlock h groupIds with
      | none =>
        slidingWindowScan p groupIds hashes blockSize contiguousBlocks alignmentTokens
          dropEagleBlock i rows 0
      | some row =>
        let postPopBlocks := if dropEagleBlock then i else i + 1
        if numContiguous = 0 ∧ blockSize ≠ alignmentTokens ∧
            postPopBlocks * blockSize % alignmentTokens ≠ 0 then
          -- A hit may not end here.
          slidingWindowScan p groupIds hashes blockSize contiguousBlocks alignmentTokens
            dropEagleBlock i rows numContiguous
        else
          let rows := rows.set i row
          let numContiguous := numContiguous + 1
          if numContiguous ≥ contiguousBlocks then
            .ok (rows.take (i + numContiguous), numContiguous, true)
          else
            slidingWindowScan p groupIds hashes blockSize contiguousBlocks alignmentTokens
              dropEagleBlock i rows numContiguous

/-- Pop rows until the length is aligned. -/
def alignRows (blockSize alignmentTokens : ℕ) : ℕ → List (List ℕ) → List (List ℕ)
  | 0, rows => rows
  | n + 1, rows =>
    if blockSize ≠ alignmentTokens ∧ rows.length * blockSize % alignmentTokens ≠ 0 then
      alignRows blockSize alignmentTokens n rows.dropLast
    else rows

/-- `SlidingWindowManager.find_longest_cache_hit`. -/
def slidingWindowHit (blockSize slidingWindow : ℕ) (dropEagleBlock : Bool) (alignmentTokens : ℕ) :
    Except PyErr (List (List ℕ) × ℕ) := do
  if alignmentTokens % blockSize = 0 then pure () else throw .assertionError
  let blockHashes ← resolveLookupHashes blockHashes p.hasher.hashBlockSize blockSize
    alignmentTokens false
  let contiguousBlocks :=
    SingleTypeKVCacheManager.contiguousBlocksForHit slidingWindow blockSize dropEagleBlock
  let maxNumBlocks := maxLength / blockSize
  let nullRow := groupIds.map fun _ => p.nullBlock
  let (rows, numContiguous, matchFound) ← p.slidingWindowScan groupIds blockHashes blockSize
    contiguousBlocks alignmentTokens dropEagleBlock maxNumBlocks
    (List.replicate maxNumBlocks nullRow) 0
  let rows :=
    if matchFound then rows
    else
      -- The first blocks are a hit even if they are too few for a window.
      alignRows blockSize alignmentTokens maxNumBlocks (rows.take numContiguous)
  let rows :=
    if dropEagleBlock && !rows.isEmpty then
      alignRows blockSize alignmentTokens maxNumBlocks rows.dropLast
    else rows
  pure (rows, rows.length * blockSize)

/-- The loop of chunked local attention over `n` positions from `i` on. -/
def chunkScan (p : BlockPool H) (groupIds : List ℕ) (hashes : List H) :
    ℕ → ℕ → Except PyErr (List (List ℕ))
  | 0, _ => .ok []
  | n + 1, i =>
    match hashes[i]? with
    | none => .error .indexError
    | some h =>
      match p.getCachedBlock h groupIds with
      | none => .ok []
      | some row => (chunkScan p groupIds hashes n (i + 1)).map (row :: ·)

/-- `ChunkedLocalAttentionManager.find_longest_cache_hit`. -/
def chunkedLocalHit (blockSize attentionChunkSize : ℕ) (dropEagleBlock : Bool)
    (alignmentTokens : ℕ) : Except PyErr (List (List ℕ) × ℕ) := do
  if dropEagleBlock = false ∧ blockSize = alignmentTokens then pure ()
  else throw .assertionError
  let blockHashes ← resolveLookupHashes blockHashes p.hasher.hashBlockSize blockSize
    alignmentTokens false
  let startIdx := maxLength / attentionChunkSize * attentionChunkSize
  let startBlockIdx := startIdx / blockSize
  let nullRow := groupIds.map fun _ => p.nullBlock
  let cached ← p.chunkScan groupIds blockHashes (maxLength / blockSize - startBlockIdx)
    startBlockIdx
  let rows := List.replicate startBlockIdx nullRow ++ cached
  pure (rows, rows.length * blockSize)

/-- `find_longest_cache_hit` of the manager class of a spec. -/
def findLongestCacheHit (spec : KVCacheSpec) (dropEagleBlock : Bool) (alignmentTokens : ℕ) :
    Except PyErr (List (List ℕ) × ℕ) :=
  match spec.kind with
  | .fullAttention =>
    p.fullAttentionHit blockHashes maxLength groupIds spec.blockSize dropEagleBlock alignmentTokens
  | .slidingWindow window _ =>
    p.slidingWindowHit blockHashes maxLength groupIds spec.blockSize window dropEagleBlock
      alignmentTokens
  | .chunkedLocalAttention chunk =>
    p.chunkedLocalHit blockHashes maxLength groupIds spec.blockSize chunk dropEagleBlock
      alignmentTokens
  | .circularBuffer | .kpoolTail => .ok ([], 0)

end BlockPool

end Lvllm
