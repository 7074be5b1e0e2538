import Lvllm.Sched.State

/-!
# How many tokens a step takes

The helpers of `Scheduler.schedule` that decide how long the next chunk of a request is: the reserve
for the drafter's look-ahead, the alignment of chunks with the states of Mamba layers, and the
scheduling of encoder inputs, which cuts a chunk in front of an item that cannot be encoded now.
-/

namespace Lvllm

variable {H : Type}

namespace SchedulerConfig

/-- `_reserve_prefill_lookahead`. -/
def reservePrefillLookahead (c : SchedulerConfig H) (r : Request H) (numComputedTokens : ℕ)
    (numNewTokens : ℤ) : ℤ :=
  let remaining : ℤ := (r.numTokens : ℤ) - numComputedTokens - numNewTokens
  max
    (if 0 < remaining ∧ remaining < c.numPrefillLookahead then
      numNewTokens - (c.numPrefillLookahead - remaining)
    else numNewTokens) 0

/-- The last position at a block boundary whose Mamba state can be cached. -/
def lastCachePosition (c : SchedulerConfig H) (r : Request H) : ℤ :=
  let position : ℤ := (r.numTokens : ℤ) - (r.numTokens : ℤ) % c.cacheBlockSize
  if c.useEagle then max (position - c.cacheBlockSize) 0 else position

/-- The end of a chunk that does not finish the prefill, moved back to a block boundary unless the
block is too wide for one chunk. -/
def alignedEnd (c : SchedulerConfig H) (start : ℕ) (chunkEnd : ℤ) : ℤ :=
  let maxPrefillTokens :=
    if 0 < c.longPrefillTokenThreshold then
      min c.maxNumScheduledTokens c.longPrefillTokenThreshold
    else c.maxNumScheduledTokens
  let aligned := chunkEnd / c.cacheBlockSize * c.cacheBlockSize
  if aligned > start ∨ c.cacheBlockSize ≤ maxPrefillTokens then aligned else chunkEnd

/-- The positions at which a chunk has to stop; zero where there is no stop. -/
def mandatoryStops (c : SchedulerConfig H) (r : Request H) (start : ℕ) (chunkEnd lastPosition : ℤ) :
    List ℤ :=
  let blockSize := c.cacheBlockSize
  let tailBoundary : ℕ :=
    if c.mambaPartialCacheHit then r.numPromptTokens / c.hashBlockSize * c.hashBlockSize else 0
  [ if start % blockSize ≠ 0 then ((start / blockSize + 1) * blockSize : ℕ) else 0,
    lastPosition,
    if lastPosition < tailBoundary ∧ tailBoundary < r.numPromptTokens then tailBoundary else 0,
    if start < r.sharedPrefixBoundary ∧ (r.sharedPrefixBoundary : ℤ) < chunkEnd then
      (start + (r.sharedPrefixBoundary - start) / blockSize * blockSize : ℕ)
    else 0 ]

/-- `_mamba_block_aligned_split`; the chunk starts behind the computed tokens, those found at
admission included. -/
def mambaBlockAlignedSplit (c : SchedulerConfig H) (r : Request H) (start : ℕ)
    (numNewTokens : ℤ) : ℤ :=
  let prefillEnd : ℕ := max r.numPromptTokens (r.numTokens - 1)
  if start ≥ prefillEnd then numNewTokens
  else
    let useInternalCheckpoint :=
      c.mambaHasPrefillCheckpointBlocks && decide (start % c.cacheBlockSize = 0)
    let lastPosition := if useInternalCheckpoint then 0 else c.lastCachePosition r
    let chunkEnd : ℤ := start + numNewTokens
    let chunkEnd :=
      if chunkEnd < prefillEnd ∧ useInternalCheckpoint = false then c.alignedEnd start chunkEnd
      else chunkEnd
    -- The earliest stop strictly inside the chunk.
    let stops := (c.mandatoryStops r start chunkEnd lastPosition).filter
      fun stop => decide ((start : ℤ) < stop ∧ stop < chunkEnd)
    let chunkEnd := stops.foldl min chunkEnd
    max (chunkEnd - start) 0

end SchedulerConfig

/-! ## Encoder inputs -/

/-- `bisect.bisect_left` with a key, between `lo` and `hi`; the interval shrinks in each round. -/
def bisectLeft {α : Type} (l : List α) (key : α → ℕ) (x : ℤ) : ℕ → ℕ → ℕ → ℕ
  | 0, lo, _ => lo
  | fuel + 1, lo, hi =>
    if lo < hi then
      let mid := (lo + hi) / 2
      match l[mid]? with
      | none => lo
      | some a =>
        if (key a : ℤ) < x then bisectLeft l key x fuel (mid + 1) hi
        else bisectLeft l key x fuel lo mid
    else lo

/-- `get_mm_features_in_window`: the first feature that ends behind `start`, and the first that
begins at or behind `windowEnd`. -/
def getMmFeaturesInWindow (features : List MultiModalFeatureSpec) (start : ℕ) (windowEnd : ℤ) :
    ℕ × ℕ :=
  let n := features.length
  (bisectLeft features (fun f => f.mmPosition.offset + f.mmPosition.length) (start + 1) n 0 n,
    bisectLeft features (fun f => f.mmPosition.offset) windowEnd n 0 n)

/-- `embeds_cumsum[idx - 1]`, or zero for the empty prefix. -/
def embedsBefore (mask : List Bool) (idx : ℤ) : Except PyErr ℤ :=
  if 0 < idx then
    if idx ≤ mask.length then .ok ((mask.take idx.toNat).count true) else .error .indexError
  else .ok 0

/-- `get_embeds_indices_in_range`. -/
def PlaceholderRange.getEmbedsIndicesInRange (range : PlaceholderRange) (startIdx endIdx : ℤ) :
    Except PyErr (ℤ × ℤ) :=
  match range.isEmbed with
  | none => .ok (startIdx, endIdx)
  | some mask => do
    let embedsStart ← embedsBefore mask startIdx
    let embedsEnd ← embedsBefore mask endIdx
    pure (embedsStart, embedsEnd)

/-- The variables of `_try_schedule_encoder_inputs`.  `cachedHashes` is not in the source: it records
the items that are skipped because the encoder cache holds them. -/
structure EncoderSchedule where
  encoderInputsToSchedule : List ℕ := []
  numNewTokens : ℤ
  encoderComputeBudget : ℤ
  mmHashesToSchedule : List String := []
  numEmbedsToSchedule : ℕ := 0
  cachedHashes : List String := []

namespace EncoderSchedule

/-- The chunk without encoder inputs. -/
def none (numNewTokens encoderComputeBudget : ℤ) : EncoderSchedule :=
  { numNewTokens := numNewTokens, encoderComputeBudget := encoderComputeBudget }

/-- Whether the chunk covers only a part of an item that must not be split. -/
def splitsItem (acc : EncoderSchedule) (disableChunkedMmInput : Bool) (position : PlaceholderRange)
    (numComputedTokens : ℕ) : Bool :=
  disableChunkedMmInput && decide (numComputedTokens < position.offset ∧
    (numComputedTokens : ℤ) + acc.numNewTokens < (position.offset + position.length : ℕ))

/-- Take an input into the schedule. -/
def take (acc : EncoderSchedule) (inputId : ℕ) (feature : MultiModalFeatureSpec) :
    EncoderSchedule :=
  let numEncoderEmbeds := feature.mmPosition.getNumEmbeds
  { acc with
    encoderInputsToSchedule := acc.encoderInputsToSchedule ++ [inputId]
    encoderComputeBudget := acc.encoderComputeBudget - numEncoderEmbeds
    mmHashesToSchedule := acc.mmHashesToSchedule ++ [feature.identifier]
    numEmbedsToSchedule := acc.numEmbedsToSchedule + numEncoderEmbeds }

end EncoderSchedule

/-- The embeddings of an item that the chunk with the given window covers. -/
def embedsInWindow (position : PlaceholderRange) (numComputedTokens : ℕ) (windowEnd : ℤ) :
    Except PyErr (ℤ × ℤ) :=
  position.getEmbedsIndicesInRange (max 0 ((numComputedTokens : ℤ) - position.offset))
    (min position.length (windowEnd - position.offset))

/-- The loop of `_try_schedule_encoder_inputs` over the inputs in the window. -/
def encoderInputLoop (disableChunkedMmInput : Bool) (request : Request H) (numComputedTokens : ℕ)
    (windowEnd : ℤ) (shiftComputedTokens : ℕ) :
    List ℕ → EncoderSchedule → EncoderM EncoderSchedule
  | [], acc => pure acc
  | inputId :: rest, acc => do
    let feature ← liftExcept (request.mmFeature inputId)
    let position := feature.mmPosition
    let continueWith := encoderInputLoop disableChunkedMmInput request numComputedTokens windowEnd
      shiftComputedTokens rest
    if feature.identifier ∈ acc.mmHashesToSchedule then continueWith acc
    else if ← EncoderCacheManager.checkAndUpdateCache request inputId then
      continueWith { acc with cachedHashes := acc.cachedHashes ++ [feature.identifier] }
    else if acc.splitsItem disableChunkedMmInput position numComputedTokens then
      pure { acc with
        numNewTokens := max 0 ((position.offset : ℤ) - (numComputedTokens + shiftComputedTokens)) }
    else if ← EncoderCacheManager.canAllocate request inputId acc.encoderComputeBudget
        acc.numEmbedsToSchedule then
      let (embedsStart, embedsEnd) ←
        liftExcept (embedsInWindow position numComputedTokens windowEnd)
      if embedsEnd - embedsStart = 0 then continueWith acc else continueWith (acc.take inputId feature)
    else
      pure { acc with
        numNewTokens :=
          if numComputedTokens + shiftComputedTokens < position.offset then
            (position.offset : ℤ) - (numComputedTokens + shiftComputedTokens)
          else 0 }

/-- `_try_schedule_encoder_inputs` of a decoder-only model without an encoder-cache connector. -/
def tryScheduleEncoderInputs (c : SchedulerConfig H) (request : Request H) (numComputedTokens : ℕ)
    (numNewTokens encoderComputeBudget : ℤ) : EncoderM EncoderSchedule :=
  if numNewTokens = 0 ∨ request.hasEncoderInputs = false then
    pure (.none numNewTokens encoderComputeBudget)
  else
    let windowEnd := numComputedTokens + numNewTokens + c.numPrefillLookahead
    let (lo, hi) := getMmFeaturesInWindow request.mmFeatures numComputedTokens windowEnd
    encoderInputLoop c.disableChunkedMmInput request numComputedTokens windowEnd
      c.numPrefillLookahead ((List.range hi).drop lo) (.none numNewTokens encoderComputeBudget)

end Lvllm
