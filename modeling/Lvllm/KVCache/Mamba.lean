import Lvllm.KVCache.CacheHit

/-!
# Cache hits of a Mamba group

A Mamba layer keeps one state per request, not one entry per token: the state at the end of a block
serves all tokens before it, so a hit is one block, found from the right.
-/

namespace Lvllm

/-- `MambaSpec`, as far as its manager reads it. -/
structure MambaSpec where
  blockSize : ℕ
  blockSize_pos : 0 < blockSize
  numSpeculativeBlocks : ℕ := 0
  numPrefillCheckpointBlocks : ℕ := 0

instance : DecidableEq MambaSpec := fun a b => decidable_of_iff
  (a.blockSize = b.blockSize ∧ a.numSpeculativeBlocks = b.numSpeculativeBlocks ∧
    a.numPrefillCheckpointBlocks = b.numPrefillCheckpointBlocks) (by cases a; cases b; simp)

namespace BlockPool

variable {H : Type}

/-- The search of a Mamba group from position `i - 1` to the left: the state at the end of a block
serves the tokens before it. -/
def mambaScan (p : BlockPool H) (groupIds : List ℕ) (hashes : List H)
    (blockSize alignmentTokens : ℕ) : ℕ → Except PyErr (List (List ℕ) × ℕ)
  | 0 => .ok ([], 0)
  | i + 1 =>
    match hashes[i]? with
    | none => .error .indexError
    | some h =>
      match p.getCachedBlock h groupIds with
      | none => mambaScan p groupIds hashes blockSize alignmentTokens i
      | some row =>
        if blockSize ≠ alignmentTokens ∧ (i + 1) * blockSize % alignmentTokens ≠ 0 then
          -- A hit may not end here.
          mambaScan p groupIds hashes blockSize alignmentTokens i
        else
          .ok (List.replicate i (groupIds.map fun _ => p.nullBlock) ++ [row], (i + 1) * blockSize)

/-- `MambaManager.find_longest_cache_hit`. -/
def mambaHit (p : BlockPool H) (blockHashes : List H) (maxLength : ℕ) (groupIds : List ℕ)
    (blockSize alignmentTokens : ℕ) : Except PyErr (List (List ℕ) × ℕ) := do
  let blockHashes ← resolveLookupHashes blockHashes p.hasher.hashBlockSize blockSize
    alignmentTokens true
  if alignmentTokens < blockSize ∧ blockSize % alignmentTokens = 0 then
    let scaleFactor := blockSize / alignmentTokens
    match p.cachedTail groupIds blockHashes 0
      (min (maxLength / alignmentTokens) blockHashes.length) with
    | some (row, fineIdx) =>
      pure (List.replicate (fineIdx / scaleFactor) (groupIds.map fun _ => p.nullBlock) ++ [row],
        (fineIdx + 1) * alignmentTokens)
    | none => pure ([], 0)
  else p.mambaScan groupIds blockHashes blockSize alignmentTokens (maxLength / blockSize)

end BlockPool

end Lvllm
