import Mathlib.Data.List.Nodup
import Mathlib.Tactic.Linarith
import Lvllm.Foundation.PrefixSums

/-!
# Splitting a batch into micro-batches

`maybeCreateUbatchSlices` cuts the tokens of a batch at multiples of a split point, and
`splitAttnMetadata` builds the attention metadata of every piece.  A request cut by a boundary has rows in
several micro-batches: the row's start offset is corrected for the tokens of earlier pieces and its sequence
length for the tokens of later ones.  `MicroBatch` gives the metadata of one piece in closed form: in terms
of the offsets of the whole batch, every offset is clamped to the piece.
-/

namespace Lvllm

open List

/-! ## Slices -/

/-- `UBatchSlice`: the requests and the tokens of a micro-batch. -/
structure UBatchSlice where
  reqStart : ℕ
  reqStop : ℕ
  tokStart : ℕ
  tokStop : ℕ
  deriving DecidableEq

/-- `UBatchSlice.is_empty`. -/
def UBatchSlice.isEmpty (u : UBatchSlice) : Bool :=
  u.reqStart == u.reqStop || u.tokStart == u.tokStop

/-- `UBatchSlice.num_tokens`. -/
def UBatchSlice.numTokens (u : UBatchSlice) : ℤ := u.tokStop - u.tokStart

/-- The offsets of the requests, the total at the end. -/
def cuNumTokens (numScheduledTokens : List ℕ) : List ℕ :=
  (List.range (numScheduledTokens.length + 1)).map (prefixSum numScheduledTokens)

/-- `np.searchsorted` with `side="right"`. -/
def searchRight (cu : List ℕ) (x : ℕ) : ℕ := cu.countP (fun c => decide (c ≤ x))

/-- `np.searchsorted` with `side="left"`. -/
def searchLeft (cu : List ℕ) (x : ℕ) : ℕ := cu.countP (fun c => decide (c < x))

/-- The loop of `maybe_create_ubatch_slices` over the end points of the slices. -/
def ubatchSlices (cu : List ℕ) : ℕ → List ℕ → List UBatchSlice
  | _, [] => []
  | startToken, endToken :: points =>
    { reqStart := searchRight cu startToken - 1, reqStop := searchLeft cu endToken,
      tokStart := startToken, tokStop := endToken } :: ubatchSlices cu endToken points

/-- `_pad_out_ubatch_slices`. -/
def padOutUbatchSlices (us : List UBatchSlice) (numTotalTokens numReqsPadded : ℕ) :
    List UBatchSlice :=
  us.modify (us.length - 1) fun u => { u with reqStop := numReqsPadded, tokStop := numTotalTokens }

/-- The end points of the slices: the multiples of the split point, and the number of tokens. -/
def ubatchPoints (splitPoint numUbatches numTokens : ℕ) : List ℕ :=
  (List.range (numUbatches - 1)).map (fun i => splitPoint * (i + 1)) ++ [numTokens]

/-- `maybe_create_ubatch_slices`: the slices and the padded slices.  The outer `none` is an exception:
a division by zero or the assertion on the padded slices. -/
def maybeCreateUbatchSlices (shouldUbatch : Bool) (numScheduledTokens : List ℕ)
    (numTokensPadded numReqsPadded numUbatches : ℕ) (splitPoint : Option ℕ) :
    Option (Option (List UBatchSlice × List UBatchSlice)) :=
  if !shouldUbatch then some none
  else if splitPoint.isNone && numUbatches == 0 then none
  else
    let split := splitPoint.getD (numTokensPadded / numUbatches)
    let us := ubatchSlices (cuNumTokens numScheduledTokens) 0
      (ubatchPoints split numUbatches numScheduledTokens.sum)
    let padded := padOutUbatchSlices us numTokensPadded numReqsPadded
    if (padded.map UBatchSlice.numTokens).sum = numTokensPadded then some (some (us, padded))
    else none

/-! ## Metadata -/

/-- The fields of `CommonAttentionMetadata` that a split reads and fills in.  Tensors are lists; the
offsets and the lengths are natural numbers. -/
structure CommonAttentionMetadata (B S : Type) where
  queryStartLoc : List ℕ
  queryStartLocCpu : List ℕ
  seqLens : List ℕ
  numReqs : ℕ
  numActualTokens : ℕ
  maxQueryLen : ℕ
  maxSeqLen : ℕ
  blockTable : List B
  slotMapping : List S
  seqLensCpuUpperBound : Option (List ℕ)
  seqLensCpu : Option (List ℕ)
  numComputedTokensCpu : Option (List ℕ)
  deriving DecidableEq

variable {B S : Type}

/-- The property `num_computed_tokens_cpu`: the stored counts, or else the sequence lengths minus the
query lengths. -/
def CommonAttentionMetadata.numComputed (m : CommonAttentionMetadata B S) : List ℕ :=
  m.numComputedTokensCpu.getD <| List.zipWith (· - ·) (m.seqLensCpu.getD m.seqLens)
    (List.zipWith (· - ·) (m.queryStartLocCpu.drop 1) m.queryStartLocCpu)

/-- The Python slice `l[start:stop]`. -/
def slice {α : Type} (l : List α) (start stop : ℕ) : List α := (l.take stop).drop start

/-- `slice_query_start_locs`. -/
def sliceQueryStartLocs (queryStartLoc : List ℕ) (start stop : ℕ) : List ℕ :=
  (slice queryStartLoc start (stop + 1)).map (· - queryStartLoc.getD start 0)

/-- `x[1:] -= k`. -/
def subTail (l : List ℕ) (k : ℕ) : List ℕ := l.take 1 ++ (l.drop 1).map (· - k)

/-- `x[-1] -= k`. -/
def subLast (l : List ℕ) (k : ℕ) : List ℕ := l.modify (l.length - 1) (· - k)

/-- The offsets of a slice: shifted by the tokens of the first request that belong to earlier slices, the
last one by the tokens of the last request that belong to later slices. -/
def ubatchStartLocs (u : UBatchSlice) (queryStartLoc : List ℕ) (skippedFirst skippedLast : ℕ) :
    List ℕ :=
  let locs := sliceQueryStartLocs queryStartLoc u.reqStart u.reqStop
  let locs := if 0 < skippedFirst then subTail locs skippedFirst else locs
  if 0 < skippedLast then subLast locs skippedLast else locs

/-- The sequence lengths of a slice. -/
def ubatchSeqLens (u : UBatchSlice) (seqLens : List ℕ) (skippedLast : ℕ) : List ℕ :=
  let lens := slice seqLens u.reqStart u.reqStop
  if 0 < skippedLast then subLast lens skippedLast else lens

/-- The largest distance of neighbouring offsets. -/
def maxQueryLenOf (locs : List ℕ) : ℕ :=
  (List.zipWith (fun a b => max (a - b) (b - a)) (locs.drop 1) locs).foldl max 0

/-- `_make_metadata_with_slice`; `none` where an assertion or an index fails. -/
def makeMetadataWithSlice (m : CommonAttentionMetadata B S) (u : UBatchSlice) :
    Option (CommonAttentionMetadata B S) := do
  guard (!u.isEmpty)
  let startLocs := m.queryStartLocCpu
  let firstLoc ← startLocs[u.reqStart]?
  let secondLoc ← startLocs[u.reqStart + 1]?
  guard (decide (firstLoc ≤ u.tokStart) && decide (u.tokStart < secondLoc))
  let stopLoc ← startLocs[u.reqStop]?
  -- both are positive exactly if the request at that end of the slice is split
  let skippedFirst := u.tokStart - firstLoc
  let skippedLast := stopLoc - u.tokStop
  let queryStartLocCpu := ubatchStartLocs u startLocs skippedFirst skippedLast
  let queryStartLoc := ubatchStartLocs u m.queryStartLoc skippedFirst skippedLast
  guard (decide (2 ≤ queryStartLoc.length))
  let upperBound ← m.seqLensCpuUpperBound.map (ubatchSeqLens u · skippedLast)
  let maxQueryLen := maxQueryLenOf queryStartLocCpu
  return {
    queryStartLoc := queryStartLoc
    queryStartLocCpu := queryStartLocCpu
    seqLens := ubatchSeqLens u m.seqLens skippedLast
    numReqs := u.reqStop - u.reqStart
    numActualTokens := u.tokStop - u.tokStart
    maxQueryLen := if maxQueryLen = 0 then m.maxQueryLen else maxQueryLen
    maxSeqLen := max (upperBound.foldl max 0) m.maxSeqLen
    blockTable := slice m.blockTable u.reqStart u.reqStop
    slotMapping := slice m.slotMapping u.tokStart u.tokStop
    seqLensCpuUpperBound := some upperBound
    seqLensCpu := m.seqLensCpu.map (ubatchSeqLens u · skippedLast)
    numComputedTokensCpu := m.numComputedTokensCpu.map (slice · u.reqStart u.reqStop) }

/-- `split_attn_metadata`. -/
def splitAttnMetadata (us : List UBatchSlice) (m : CommonAttentionMetadata B S) :
    Option (List (CommonAttentionMetadata B S)) :=
  us.mapM (makeMetadataWithSlice m)

/-! ## Batches -/

/-- A request of a batch: its scheduled tokens end its sequence. -/
structure BatchRequest (B : Type) where
  queryLen : ℕ
  seqLen : ℕ
  blocks : B
  query_pos : 0 < queryLen
  query_le : queryLen ≤ seqLen

/-- A batch: its requests, a slot for every token, and what a runner may choose to fill in. -/
structure Batch (B S : Type) where
  requests : List (BatchRequest B)
  slots : List S
  upperBound : List ℕ
  maxQueryLen : ℕ
  maxSeqLen : ℕ
  storesSeqLens : Bool
  storesComputed : Bool
  slots_length : slots.length = (requests.map BatchRequest.queryLen).sum
  upperBound_length : upperBound.length = requests.length

variable {a i r : ℕ} {req : BatchRequest B} {us : List UBatchSlice}

namespace Batch

/-- The query lengths. -/
def queryLens (b : Batch B S) : List ℕ := b.requests.map BatchRequest.queryLen

/-- The number of tokens. -/
def numTokens (b : Batch B S) : ℕ := b.queryLens.sum

/-- The offset of a request. -/
def start (b : Batch B S) (r : ℕ) : ℕ := prefixSum b.queryLens r

/-- The sequence lengths. -/
def seqLens (b : Batch B S) : List ℕ := b.requests.map BatchRequest.seqLen

/-- The number of computed tokens of every request. -/
def computed (b : Batch B S) : List ℕ := b.requests.map fun r => r.seqLen - r.queryLen

/-- The metadata of the whole batch. -/
def metadata (b : Batch B S) : CommonAttentionMetadata B S where
  queryStartLoc := cuNumTokens b.queryLens
  queryStartLocCpu := cuNumTokens b.queryLens
  seqLens := b.seqLens
  numReqs := b.requests.length
  numActualTokens := b.numTokens
  maxQueryLen := b.maxQueryLen
  maxSeqLen := b.maxSeqLen
  blockTable := b.requests.map BatchRequest.blocks
  slotMapping := b.slots
  seqLensCpuUpperBound := some b.upperBound
  seqLensCpu := if b.storesSeqLens then some b.seqLens else none
  numComputedTokensCpu := if b.storesComputed then some b.computed else none

/-- A slice that fits the batch: its requests are the ones with tokens in it. -/
structure Fits (b : Batch B S) (u : UBatchSlice) : Prop where
  nonempty : u.tokStart < u.tokStop
  start_le : b.start u.reqStart ≤ u.tokStart
  lt_next : u.tokStart < b.start (u.reqStart + 1)
  lt_stop : u.reqStart < u.reqStop
  stop_le : u.reqStop ≤ b.requests.length
  last_lt : b.start (u.reqStop - 1) < u.tokStop
  le_last : u.tokStop ≤ b.start u.reqStop

variable (b : Batch B S)

@[simp] lemma start_zero : b.start 0 = 0 := prefixSum_zero _

lemma start_mono : Monotone b.start := prefixSum_mono _

lemma start_length : b.start b.requests.length = b.numTokens := by
  simpa [start, queryLens, numTokens] using prefixSum_length b.queryLens

lemma start_succ (h : b.requests[r]? = some req) : b.start (r + 1) = b.start r + req.queryLen :=
  prefixSum_succ (by simp [queryLens, h])

lemma cuNumTokens_get (h : r ≤ b.requests.length) :
    (cuNumTokens b.queryLens)[r]? = some (b.start r) := by
  have : r < b.queryLens.length + 1 := by simp [queryLens]; omega
  simp [cuNumTokens, start, getElem?_range this]

/-- An offset of the batch as seen in a slice. -/
def clamp (u : UBatchSlice) (x : ℕ) : ℕ := min u.tokStop (max u.tokStart x) - u.tokStart

lemma clamp_mono (u : UBatchSlice) : Monotone (clamp u) := fun _ _ h =>
  Nat.sub_le_sub_right (min_le_min_left _ (max_le_max_left _ h)) _

/-- The tokens of a slice between two offsets. -/
lemma clamp_sub_clamp {u : UBatchSlice} {x y : ℕ} (hx : x < u.tokStop) (hy : u.tokStart < y) :
    clamp u y - clamp u x = min u.tokStop y - max u.tokStart x := by
  simp only [clamp]
  omega

/-- The metadata of a slice that fits the batch. -/
structure MicroBatch (u : UBatchSlice) (m : CommonAttentionMetadata B S) : Prop where
  numReqs : m.numReqs = u.reqStop - u.reqStart
  startLocs : m.queryStartLoc =
    (List.range (u.reqStop - u.reqStart + 1)).map fun i => clamp u (b.start (u.reqStart + i))
  startLocsCpu : m.queryStartLocCpu = m.queryStartLoc
  seqLens : ∀ i req, u.reqStart + i < u.reqStop → b.requests[u.reqStart + i]? = some req →
    m.seqLens[i]? = some (req.seqLen - (b.start (u.reqStart + i + 1) - u.tokStop))
  seqLensCpu : m.seqLensCpu.getD m.seqLens = m.seqLens
  blockTable : m.blockTable = slice (b.requests.map BatchRequest.blocks) u.reqStart u.reqStop
  slotMapping : m.slotMapping = slice b.slots u.tokStart u.tokStop
  computed : m.numComputedTokensCpu =
    if b.storesComputed then some (slice b.computed u.reqStart u.reqStop) else none

end Batch

/-! ## The metadata of one slice -/

lemma slice_getElem? {α : Type} (l : List α) (start stop i : ℕ) :
    (slice l start stop)[i]? = if start + i < stop then l[start + i]? else none := by
  simp [slice, getElem?_take]

lemma slice_length {α : Type} (l : List α) (start stop : ℕ) :
    (slice l start stop).length = min stop l.length - start := by
  simp [slice]

lemma subTail_getElem? (l : List ℕ) (k i : ℕ) :
    (if 0 < k then subTail l k else l)[i]? = l[i]?.map (· - if i = 0 then 0 else k) := by
  rcases Nat.eq_zero_or_pos k with rfl | hk
  · cases h : l[i]? <;> simp [h]
  · rw [if_pos hk]
    cases l with
    | nil => simp [subTail]
    | cons x l => cases i <;> simp [subTail]

lemma subTail_length (l : List ℕ) (k : ℕ) : (if 0 < k then subTail l k else l).length = l.length := by
  split
  · cases l <;> simp [subTail]
  · rfl

lemma subLast_getElem? (l : List ℕ) (k i : ℕ) :
    (if 0 < k then subLast l k else l)[i]? = l[i]?.map (· - if i + 1 = l.length then k else 0) := by
  rcases Nat.eq_zero_or_pos k with rfl | hk
  · cases h : l[i]? <;> simp [h]
  · rw [if_pos hk, subLast, getElem?_modify]
    rcases Nat.lt_or_ge i l.length with h | h
    · have hiff : l.length - 1 = i ↔ i + 1 = l.length := by omega
      simp only [hiff, getElem?_eq_getElem h, Option.map_some]
      split <;> rfl
    · simp [getElem?_eq_none h]

namespace Batch

variable {b : Batch B S} {u : UBatchSlice}

lemma Fits.start_first (h : b.Fits u) (hi : 0 < i) : u.tokStart < b.start (u.reqStart + i) :=
  h.lt_next.trans_le (b.start_mono (by omega))

lemma Fits.start_before (h : b.Fits u) (hi : u.reqStart + i < u.reqStop) :
    b.start (u.reqStart + i) < u.tokStop :=
  (b.start_mono (by omega : u.reqStart + i ≤ u.reqStop - 1)).trans_lt h.last_lt

/-- The corrections of the two ends clamp the offsets to the slice. -/
lemma Fits.startLocs (h : b.Fits u) :
    ubatchStartLocs u (cuNumTokens b.queryLens) (u.tokStart - b.start u.reqStart)
      (b.start u.reqStop - u.tokStop) =
    (List.range (u.reqStop - u.reqStart + 1)).map fun i => clamp u (b.start (u.reqStart + i)) := by
  have hlt := h.lt_stop
  have hle := h.stop_le
  have hfirst := b.cuNumTokens_get (r := u.reqStart) (by omega)
  obtain ⟨l, hl⟩ : ∃ l, l = sliceQueryStartLocs (cuNumTokens b.queryLens) u.reqStart u.reqStop :=
    ⟨_, rfl⟩
  have hlen : l.length = u.reqStop - u.reqStart + 1 := by
    simp [hl, sliceQueryStartLocs, slice_length, cuNumTokens, queryLens]
    omega
  apply ext_getElem?
  intro i
  simp only [ubatchStartLocs, ← hl]
  rw [subLast_getElem?, subTail_getElem?, subTail_length, getElem?_map, hlen]
  rcases Nat.lt_or_ge u.reqStop (u.reqStart + i) with hout | hin
  · rw [getElem?_eq_none (l := l) (by omega), getElem?_eq_none (by simp; omega)]
    rfl
  · have hget : l[i]? = some (b.start (u.reqStart + i) - b.start u.reqStart) := by
      simp [hl, sliceQueryStartLocs, slice_getElem?, hfirst, Nat.lt_succ_of_le hin,
        b.cuNumTokens_get (hin.trans hle)]
    rw [hget, getElem?_range (by omega : i < u.reqStop - u.reqStart + 1)]
    simp only [Option.map_some, Option.some.injEq, clamp]
    have h1 := h.start_le
    -- the first offset, the ones strictly inside and the last one are corrected differently
    rcases Nat.eq_zero_or_pos i with rfl | hpos
    · simp only [Nat.add_zero]
      omega
    · have h3 := h.start_first hpos
      rw [if_neg hpos.ne']
      rcases Nat.lt_or_ge (u.reqStart + i) u.reqStop with hlast | hlast
      · have h4 := h.start_before hlast
        rw [if_neg (by omega)]
        omega
      · obtain hlast : u.reqStart + i = u.reqStop := by omega
        rw [hlast] at h3 ⊢
        rw [if_pos (by omega)]
        omega

/-- The correction of the last sequence length takes off the tokens of later slices. -/
lemma Fits.seqLens (h : b.Fits u) (i : ℕ) (req : BatchRequest B) (hi : u.reqStart + i < u.reqStop)
    (hreq : b.requests[u.reqStart + i]? = some req) :
    (ubatchSeqLens u b.seqLens (b.start u.reqStop - u.tokStop))[i]? =
      some (req.seqLen - (b.start (u.reqStart + i + 1) - u.tokStop)) := by
  have hle := h.stop_le
  have hlen : (slice b.seqLens u.reqStart u.reqStop).length = u.reqStop - u.reqStart := by
    simp [slice_length, Batch.seqLens]
    omega
  unfold ubatchSeqLens
  rw [subLast_getElem?, hlen, slice_getElem?, if_pos hi]
  simp only [Batch.seqLens, getElem?_map, hreq, Option.map_some, Option.some.injEq]
  rcases Nat.lt_or_ge (u.reqStart + i + 1) u.reqStop with hlast | hlast
  · have : b.start (u.reqStart + i + 1) < u.tokStop := h.start_before (i := i + 1) hlast
    rw [if_neg (by omega)]
    omega
  · obtain hlast : u.reqStart + i + 1 = u.reqStop := by omega
    rw [if_pos (by omega), hlast]

/-- The metadata of a slice that fits is built, and is the one of its micro-batch. -/
lemma Fits.makeMetadataWithSlice (h : b.Fits u) :
    ∃ m, makeMetadataWithSlice b.metadata u = some m ∧ b.MicroBatch u m := by
  have hlt := h.lt_stop
  have hle := h.stop_le
  have hempty : u.isEmpty = false := by
    simp [UBatchSlice.isEmpty, hlt.ne, h.nonempty.ne]
  have hlen : 2 ≤ (ubatchStartLocs u (cuNumTokens b.queryLens) (u.tokStart - b.start u.reqStart)
      (b.start u.reqStop - u.tokStop)).length := by
    simp [h.startLocs]
    omega
  have hstart := b.cuNumTokens_get (by omega : u.reqStart ≤ b.requests.length)
  have hnext := b.cuNumTokens_get (by omega : u.reqStart + 1 ≤ b.requests.length)
  obtain ⟨m, hm⟩ : ∃ m, Lvllm.makeMetadataWithSlice b.metadata u = some m := by
    simp [Lvllm.makeMetadataWithSlice, metadata, hempty, guard, hstart, hnext, b.cuNumTokens_get hle,
      h.start_le, h.lt_next, hlen]
  refine ⟨m, hm, ?_⟩
  simp only [Lvllm.makeMetadataWithSlice, metadata, hempty, guard, hstart, hnext,
    b.cuNumTokens_get hle, h.start_le, h.lt_next, hlen, decide_true, Bool.not_false, Bool.and_self,
    if_true, Option.pure_def, Option.bind_eq_bind, Option.bind_some, Option.map_some,
    Option.some.injEq] at hm
  subst hm
  exact {
    numReqs := rfl
    startLocs := h.startLocs
    startLocsCpu := rfl
    seqLens := h.seqLens
    seqLensCpu := by cases b.storesSeqLens <;> rfl
    blockTable := rfl
    slotMapping := rfl
    computed := by cases b.storesComputed <;> rfl }

/-! ## Rows -/

variable {m : CommonAttentionMetadata B S}

namespace MicroBatch

lemma startLoc (hm : b.MicroBatch u m) (hi : u.reqStart + i ≤ u.reqStop) :
    m.queryStartLoc[i]? = some (clamp u (b.start (u.reqStart + i))) := by
  rw [hm.startLocs, getElem?_map, getElem?_range (by omega), Option.map_some]

lemma row_lt (hm : b.MicroBatch u m) {x : ℕ} (hlt : u.reqStart < u.reqStop)
    (h : m.queryStartLoc[i + 1]? = some x) : u.reqStart + i < u.reqStop := by
  have := (List.getElem?_eq_some_iff.1 h).1
  simp [hm.startLocs] at this
  omega

end MicroBatch

end Batch

/-- Row `i` of a micro-batch holds the token at position `t` of the batch. -/
def HoldsToken (u : UBatchSlice) (m : CommonAttentionMetadata B S) (i t : ℕ) : Prop :=
  ∃ lo hi, m.queryStartLoc[i]? = some lo ∧ m.queryStartLoc[i + 1]? = some hi ∧
    u.tokStart + lo ≤ t ∧ t < u.tokStart + hi

namespace Batch

/-- The row of a token belongs to its request, and its causal key count is the token's position plus
one: the later tokens of the row are the ones up to `hi`. -/
structure RowServes (b : Batch B S) (u : UBatchSlice) (m : CommonAttentionMetadata B S)
    (i r d : ℕ) (req : BatchRequest B) : Prop where
  blocks : m.blockTable[i]? = some req.blocks
  slot : ∃ s, b.slots[b.start r + d]? = some s ∧
    m.slotMapping[b.start r + d - u.tokStart]? = some s
  keys : ∃ hi n, m.queryStartLoc[i + 1]? = some hi ∧ m.seqLens[i]? = some n ∧
    n = (req.seqLen - req.queryLen + d + 1) + (u.tokStart + hi - (b.start r + d + 1))

variable {b : Batch B S} {u : UBatchSlice} {m : CommonAttentionMetadata B S} {d : ℕ}

lemma lt_numTokens (hreq : b.requests[r]? = some req) (hd : d < req.queryLen) :
    b.start r + d < b.numTokens := by
  have hr : r + 1 ≤ b.requests.length := (List.getElem?_eq_some_iff.1 hreq).1
  have := b.start_mono hr
  rw [b.start_succ hreq, b.start_length] at this
  omega

/-- The rows of a slice that hold a token of a request: only the request's own. -/
lemma MicroBatch.holdsToken_iff (hm : b.MicroBatch u m) (hfit : b.Fits u)
    (hreq : b.requests[r]? = some req) (hd : d < req.queryLen) :
    HoldsToken u m i (b.start r + d) ↔
      u.tokStart ≤ b.start r + d ∧ b.start r + d < u.tokStop ∧ u.reqStart + i = r := by
  have hsucc := b.start_succ hreq
  constructor
  · rintro ⟨lo, hi, hlo, hhi, h1, h2⟩
    have hrow := hm.row_lt hfit.lt_stop hhi
    rw [hm.startLoc hrow.le, Option.some.injEq] at hlo
    have hhi' := hm.startLoc (i := i + 1) hrow
    rw [hhi, Option.some.injEq] at hhi'
    simp only [clamp] at hlo hhi'
    have hin : u.tokStart ≤ b.start r + d ∧ b.start r + d < u.tokStop := by omega
    refine ⟨hin.1, hin.2, ?_⟩
    rcases Nat.lt_trichotomy (u.reqStart + i) r with hlt | heq | hgt
    · have := b.start_mono (by omega : u.reqStart + (i + 1) ≤ r)
      omega
    · exact heq
    · have := b.start_mono (by omega : r + 1 ≤ u.reqStart + i)
      omega
  · rintro ⟨h1, h2, rfl⟩
    have hrow : u.reqStart + i < u.reqStop := by
      by_contra hge
      have := b.start_mono (Nat.le_of_not_lt hge)
      have := hfit.le_last
      omega
    refine ⟨_, _, hm.startLoc hrow.le, hm.startLoc (i := i + 1) hrow, ?_, ?_⟩
    · simp only [clamp]
      omega
    · rw [← Nat.add_assoc, hsucc]
      simp only [clamp]
      omega

lemma MicroBatch.rowServes (hm : b.MicroBatch u m) (hfit : b.Fits u)
    (hreq : b.requests[r]? = some req) (hd : d < req.queryLen)
    (h : HoldsToken u m i (b.start r + d)) : b.RowServes u m i r d req := by
  obtain ⟨h1, h2, rfl⟩ := (hm.holdsToken_iff hfit hreq hd).1 h
  obtain ⟨lo, hi, -, hhi, -, -⟩ := h
  have hrow := hm.row_lt hfit.lt_stop hhi
  have hsucc := b.start_succ hreq
  have hq := req.query_le
  refine ⟨?_, ?_, ?_⟩
  · rw [hm.blockTable, slice_getElem?, if_pos hrow, getElem?_map, hreq, Option.map_some]
  · have hlt : b.start (u.reqStart + i) + d < b.slots.length :=
      b.slots_length ▸ lt_numTokens hreq hd
    refine ⟨_, getElem?_eq_getElem hlt, ?_⟩
    rw [hm.slotMapping, slice_getElem?, Nat.add_sub_cancel' h1, if_pos h2, getElem?_eq_getElem hlt]
  · refine ⟨_, _, hm.startLoc (i := i + 1) hrow, hm.seqLens i req hrow hreq, ?_⟩
    rw [← Nat.add_assoc, hsucc]
    simp only [clamp]
    omega

/-- The property about the computed tokens of a row. -/
def ComputedMatches (m : CommonAttentionMetadata B S) (i : ℕ) : Prop :=
  ∃ lo hi n c, m.queryStartLoc[i]? = some lo ∧ m.queryStartLoc[i + 1]? = some hi ∧
    m.seqLens[i]? = some n ∧ m.numComputed[i]? = some c ∧ lo ≤ hi ∧ c + (hi - lo) = n

/-- The number of computed tokens of a row fits its query and its sequence exactly if the counts were
not stored or the row does not continue a request of an earlier slice. -/
lemma MicroBatch.computedMatches_iff (hm : b.MicroBatch u m) (hfit : b.Fits u) (hi : i < m.numReqs) :
    ComputedMatches m i ↔
      b.storesComputed = false ∨ 0 < i ∨ u.tokStart = b.start u.reqStart := by
  have hrow : u.reqStart + i < u.reqStop := by
    have := hm.numReqs
    omega
  have hlt : u.reqStart + i < b.requests.length := hrow.trans_le hfit.stop_le
  obtain ⟨req, hreq⟩ : ∃ req, b.requests[u.reqStart + i]? = some req := ⟨_, getElem?_eq_getElem hlt⟩
  have hlo := hm.startLoc hrow.le
  have hhi := hm.startLoc (i := i + 1) hrow
  have hn := hm.seqLens i req hrow hreq
  have hsucc := b.start_succ hreq
  have hq := req.query_le
  have hbefore := hfit.start_before hrow
  have hfirst : 0 < i → u.tokStart < b.start (u.reqStart + i) := hfit.start_first
  have hnext := hfit.start_first (i := i + 1) (Nat.succ_pos i)
  rw [← Nat.add_assoc] at hhi hnext
  have hlen := clamp_sub_clamp hbefore hnext
  have hmono := clamp_mono u (b.start_mono (Nat.le_succ (u.reqStart + i)))
  have hcomputed : m.numComputed[i]? = some (if b.storesComputed then req.seqLen - req.queryLen else
      req.seqLen - (b.start (u.reqStart + i + 1) - u.tokStop) -
        (clamp u (b.start (u.reqStart + i + 1)) - clamp u (b.start (u.reqStart + i)))) := by
    unfold CommonAttentionMetadata.numComputed
    rw [hm.computed, hm.seqLensCpu, hm.startLocsCpu]
    split
    · simp only [Option.getD_some, slice_getElem?, if_pos hrow, Batch.computed, getElem?_map, hreq,
        Option.map_some]
    · simp only [Option.getD_none, getElem?_zipWith, getElem?_drop, Nat.add_comm 1 i, hlo, hhi, hn]
  have hiff : ComputedMatches m i ↔ (if b.storesComputed then req.seqLen - req.queryLen else
      req.seqLen - (b.start (u.reqStart + i + 1) - u.tokStop) -
        (clamp u (b.start (u.reqStart + i + 1)) - clamp u (b.start (u.reqStart + i)))) +
      (clamp u (b.start (u.reqStart + i + 1)) - clamp u (b.start (u.reqStart + i))) =
        req.seqLen - (b.start (u.reqStart + i + 1) - u.tokStop) := by
    simpa [ComputedMatches, hlo, hhi, hn, hcomputed, hmono] using eq_comm
  rw [hiff, hlen]
  rcases b.storesComputed with _ | _
  · simp only [Bool.false_eq_true, if_false, true_or, iff_true]
    omega
  · -- the stored count is the request's own: it fits if no token of it is in an earlier slice
    simp only [if_true, Bool.true_eq_false, false_or]
    rcases Nat.eq_zero_or_pos i with rfl | hpos
    · have := hfit.start_le
      simp only [Nat.add_zero, lt_irrefl, false_or] at *
      omega
    · have := hfirst hpos
      simp only [hpos, true_or, iff_true]
      omega

/-! ## The slices of a batch -/

lemma lt_countP_cuNumTokens (b : Batch B S) {p : ℕ → Bool}
    (hp : ∀ x y, x ≤ y → p y = true → p x = true) (j : ℕ) :
    j < (cuNumTokens b.queryLens).countP p ↔ j < b.requests.length + 1 ∧ p (b.start j) = true := by
  have hlen : b.queryLens.length = b.requests.length := by simp [queryLens]
  rw [cuNumTokens, countP_map, hlen]
  exact lt_countP_range (p := p ∘ b.start) (fun i j hij => hp _ _ (b.start_mono hij)) _ j

lemma searchRight_spec (ha : a < b.numTokens) :
    b.start (searchRight (cuNumTokens b.queryLens) a - 1) ≤ a ∧
      a < b.start (searchRight (cuNumTokens b.queryLens) a - 1 + 1) := by
  have hcount : ∀ j, j < searchRight (cuNumTokens b.queryLens) a ↔
      j < b.requests.length + 1 ∧ b.start j ≤ a := fun j =>
    (b.lt_countP_cuNumTokens (fun x y hxy h => by simp_all; omega) j).trans (by simp)
  have hpos := (hcount 0).2 ⟨by omega, by simp⟩
  refine ⟨((hcount _).1 (by omega)).2, ?_⟩
  rw [Nat.sub_add_cancel hpos]
  by_contra hge
  have hle : b.requests.length ≤ searchRight (cuNumTokens b.queryLens) a := by
    by_contra h
    exact lt_irrefl _ ((hcount _).2 ⟨by omega, Nat.le_of_not_lt hge⟩)
  have := b.start_mono hle
  rw [b.start_length] at this
  omega

lemma searchLeft_spec {x : ℕ} (hpos : 0 < x) (hx : x ≤ b.numTokens) :
    (∀ j, b.start j < x → j < searchLeft (cuNumTokens b.queryLens) x) ∧
      searchLeft (cuNumTokens b.queryLens) x ≤ b.requests.length ∧
      b.start (searchLeft (cuNumTokens b.queryLens) x - 1) < x ∧
      x ≤ b.start (searchLeft (cuNumTokens b.queryLens) x) := by
  have hcount : ∀ j, j < searchLeft (cuNumTokens b.queryLens) x ↔
      j < b.requests.length + 1 ∧ b.start j < x := fun j =>
    (b.lt_countP_cuNumTokens (fun x y hxy h => by simp_all; omega) j).trans (by simp)
  have hbelow : ∀ j, b.start j < x → j < b.requests.length := by
    intro j hj
    by_contra hge
    have := b.start_mono (Nat.le_of_not_lt hge)
    have := b.start_length
    omega
  have hle : searchLeft (cuNumTokens b.queryLens) x ≤ b.requests.length := by
    by_contra hgt
    exact lt_irrefl _ (hbelow _ ((hcount _).1 (Nat.lt_of_not_le hgt)).2)
  have h0 := (hcount 0).2 ⟨by omega, by simpa using hpos⟩
  refine ⟨fun j hj => (hcount j).2 ⟨(hbelow j hj).trans (Nat.lt_succ_self _), hj⟩, hle,
    ((hcount _).1 (by omega)).2, ?_⟩
  by_contra hlt
  exact lt_irrefl _ ((hcount _).2 ⟨by omega, by omega⟩)

/-- A slice of the loop with at least one token fits the batch. -/
lemma fits_of_mem {points : List ℕ} (hu : u ∈ ubatchSlices (cuNumTokens b.queryLens) a points)
    (hne : u.tokStart < u.tokStop) (hle : u.tokStop ≤ b.numTokens) : b.Fits u := by
  induction points generalizing a with
  | nil => cases hu
  | cons x points ih =>
    rcases mem_cons.1 hu with rfl | hu
    · obtain ⟨h1, h2⟩ := b.searchRight_spec (a := a) (lt_of_lt_of_le hne hle)
      obtain ⟨h3, h4, h5, h6⟩ := b.searchLeft_spec (x := x) (Nat.zero_lt_of_lt hne) hle
      exact ⟨hne, h1, h2, h3 _ (h1.trans_lt hne), h4, h5, h6⟩
    · exact ih hu

end Batch

/-- The tokens of a slice. -/
def UBatchSlice.tokens (u : UBatchSlice) : List ℕ := List.range' u.tokStart (u.tokStop - u.tokStart)

/-- Slices with tokens partition the tokens up to the last end point, in order. -/
lemma tokens_partition {cu points : List ℕ} {last : ℕ}
    (hne : ∀ u ∈ ubatchSlices cu a (points ++ [last]), u.tokStart < u.tokStop) :
    a < last ∧ (ubatchSlices cu a (points ++ [last])).flatMap UBatchSlice.tokens =
      List.range' a (last - a) := by
  induction points generalizing a with
  | nil => exact ⟨hne _ mem_cons_self, by simp [ubatchSlices, UBatchSlice.tokens]⟩
  | cons x points ih =>
    have hx : a < x := hne _ mem_cons_self
    obtain ⟨hlast, hflat⟩ := ih fun u hu => hne u (mem_cons_of_mem _ hu)
    refine ⟨hx.trans hlast, ?_⟩
    have happ := range'_append_1 (s := a) (m := x - a) (n := last - x)
    rw [Nat.add_sub_cancel' hx.le, (by omega : x - a + (last - x) = last - a)] at happ
    simp only [cons_append, ubatchSlices, flatMap_cons, hflat]
    exact happ

/-- Each token is in exactly one of the slices. -/
lemma existsUnique_slice {n t : ℕ} (hflat : us.flatMap UBatchSlice.tokens = List.range n)
    (ht : t < n) :
    ∃! k : ℕ, ∃ u, us[k]? = some u ∧ u.tokStart ≤ t ∧ t < u.tokStop := by
  have hmem : ∀ u : UBatchSlice, t ∈ u.tokens ↔ u.tokStart ≤ t ∧ t < u.tokStop := fun u => by
    simp [UBatchSlice.tokens]
    omega
  have hnodup : (us.flatMap UBatchSlice.tokens).Nodup := hflat ▸ nodup_range
  obtain ⟨u, hu, htu⟩ := mem_flatMap.1 (hflat ▸ mem_range.2 ht)
  obtain ⟨k, hk⟩ := mem_iff_getElem?.1 hu
  refine ⟨k, ⟨u, hk, (hmem u).1 htu⟩, ?_⟩
  rintro k' ⟨u', hk', ht'⟩
  by_contra hne
  rw [nodup_flatMap, pairwise_iff_getElem] at hnodup
  obtain ⟨hlt, rfl⟩ := List.getElem?_eq_some_iff.1 hk
  obtain ⟨hlt', rfl⟩ := List.getElem?_eq_some_iff.1 hk'
  rcases Nat.lt_or_gt_of_ne hne with h | h
  · exact hnodup.2 k' k hlt' hlt h ((hmem _).2 ht') htu
  · exact hnodup.2 k k' hlt hlt' h htu ((hmem _).2 ht')

/-- The token counts of the padded slices add up to the padded number of tokens, whatever the points. -/
lemma sum_numTokens_padded (cu points : List ℕ) (a total reqs : ℕ) (hne : points ≠ []) :
    ((padOutUbatchSlices (ubatchSlices cu a points) total reqs).map UBatchSlice.numTokens).sum =
      (total : ℤ) - a := by
  induction points generalizing a with
  | nil => exact absurd rfl hne
  | cons x points ih =>
    cases points with
    | nil => simp [ubatchSlices, padOutUbatchSlices, UBatchSlice.numTokens]
    | cons y points =>
      have ih := ih x (by simp)
      simp only [ubatchSlices, padOutUbatchSlices, length_cons, Nat.add_sub_cancel,
        modify_succ_cons, map_cons, sum_cons] at ih ⊢
      rw [ih]
      simp [UBatchSlice.numTokens]

/-! ## The split preserves attention -/

/-- What a split into micro-batches keeps: the slices partition the tokens in order; every token is in
exactly one row; a row that holds a token serves its request; and the computed tokens of a row fit
exactly if the counts are not stored or the row does not continue a request. -/
structure Batch.Preserved (b : Batch B S) (us : List UBatchSlice)
    (ms : List (CommonAttentionMetadata B S)) : Prop where
  partition : us.flatMap UBatchSlice.tokens = List.range b.numTokens
  one_row : ∀ r req d, b.requests[r]? = some req → d < req.queryLen →
    ∃! p : ℕ × ℕ, ∃ u m, us[p.1]? = some u ∧ ms[p.1]? = some m ∧ HoldsToken u m p.2 (b.start r + d)
  serves : ∀ r req d, b.requests[r]? = some req → d < req.queryLen → ∀ (k : ℕ) u m i,
    us[k]? = some u → ms[k]? = some m → HoldsToken u m i (b.start r + d) →
    b.RowServes u m i r d req
  computed : ∀ (k : ℕ) u m i, us[k]? = some u → ms[k]? = some m → i < m.numReqs →
    (Batch.ComputedMatches m i ↔
      b.storesComputed = false ∨ 0 < i ∨ u.tokStart = b.start u.reqStart)

lemma Batch.microBatches (b : Batch B S) (hfit : ∀ u ∈ us, b.Fits u) :
    ∃ ms, splitAttnMetadata us b.metadata = some ms ∧ List.Forall₂ b.MicroBatch us ms := by
  induction us with
  | nil => exact ⟨[], rfl, .nil⟩
  | cons u us ih =>
    obtain ⟨m, hm, hmicro⟩ := (hfit u (by simp)).makeMetadataWithSlice
    obtain ⟨ms, hms, hall⟩ := ih fun v hv => hfit v (by simp [hv])
    refine ⟨m :: ms, ?_, .cons hmicro hall⟩
    simp only [splitAttnMetadata, mapM_cons] at hms ⊢
    simp [hm, hms]

/-- The micro-batches of fitting slices that partition the tokens preserve attention. -/
lemma Batch.preserved_of_fits (b : Batch B S) {ms : List (CommonAttentionMetadata B S)}
    (hfit : ∀ u ∈ us, b.Fits u) (hms : List.Forall₂ b.MicroBatch us ms)
    (hflat : us.flatMap UBatchSlice.tokens = List.range b.numTokens) : b.Preserved us ms := by
  have hmicro : ∀ (k : ℕ) u m, us[k]? = some u → ms[k]? = some m → b.MicroBatch u m ∧ b.Fits u := by
    intro k u m hu hm
    obtain ⟨hlt, rfl⟩ := List.getElem?_eq_some_iff.1 hu
    obtain ⟨hlt', rfl⟩ := List.getElem?_eq_some_iff.1 hm
    exact ⟨hms.get hlt hlt', hfit _ (getElem_mem hlt)⟩
  refine ⟨hflat, ?_, ?_, ?_⟩
  · intro r req d hreq hd
    obtain ⟨k, ⟨u, hu, h1, h2⟩, huniq⟩ := existsUnique_slice hflat (Batch.lt_numTokens hreq hd)
    have hk := (List.getElem?_eq_some_iff.1 hu).1
    obtain ⟨m, hm⟩ : ∃ m, ms[k]? = some m := ⟨_, getElem?_eq_getElem (hms.length_eq ▸ hk)⟩
    have hstart : u.reqStart ≤ r := by
      by_contra hlt
      have := b.start_mono (by omega : r + 1 ≤ u.reqStart)
      have := b.start_succ hreq
      have := (hmicro k u m hu hm).2.start_le
      omega
    refine ⟨(k, r - u.reqStart), ⟨u, m, hu, hm, ?_⟩, ?_⟩
    · exact ((hmicro k u m hu hm).1.holdsToken_iff (hmicro k u m hu hm).2 hreq hd).2
        ⟨h1, h2, by omega⟩
    · rintro ⟨k', i'⟩ ⟨u', m', hu', hm', hrow⟩
      obtain ⟨hmicro', hfit'⟩ := hmicro k' u' m' hu' hm'
      obtain ⟨h1', h2', hr⟩ := (hmicro'.holdsToken_iff hfit' hreq hd).1 hrow
      obtain rfl : k' = k := huniq k' ⟨u', hu', h1', h2'⟩
      obtain rfl : u' = u := Option.some.inj (hu'.symm.trans hu)
      exact Prod.ext rfl (by simp only; omega)
  · intro r req d hreq hd k u m i hu hm hrow
    exact (hmicro k u m hu hm).1.rowServes (hmicro k u m hu hm).2 hreq hd hrow
  · intro k u m i hu hm hi
    exact (hmicro k u m hu hm).1.computedMatches_iff (hmicro k u m hu hm).2 hi

/-- The slices of a batch are always created, and if none of them is empty, the split succeeds and
preserves attention. -/
theorem ubatches_preserve_attention (b : Batch B S)
    (numTokensPadded numReqsPadded numUbatches : ℕ) (splitPoint : Option ℕ)
    (hn : 0 < numUbatches) :
    ∃ us padded, maybeCreateUbatchSlices true b.queryLens numTokensPadded numReqsPadded numUbatches
        splitPoint = some (some (us, padded)) ∧
      ((∀ u ∈ us, u.tokStart < u.tokStop) →
        ∃ ms, splitAttnMetadata us b.metadata = some ms ∧ b.Preserved us ms) := by
  obtain ⟨split, hsplit⟩ : ∃ split, split = splitPoint.getD (numTokensPadded / numUbatches) :=
    ⟨_, rfl⟩
  obtain ⟨us, hus⟩ : ∃ us, us = ubatchSlices (cuNumTokens b.queryLens) 0
    (ubatchPoints split numUbatches b.queryLens.sum) := ⟨_, rfl⟩
  have hsum : ((padOutUbatchSlices us numTokensPadded numReqsPadded).map UBatchSlice.numTokens).sum =
      (numTokensPadded : ℤ) := by
    rw [hus, sum_numTokens_padded _ _ _ _ _ (by simp [ubatchPoints]), Nat.cast_zero, sub_zero]
  refine ⟨us, padOutUbatchSlices us numTokensPadded numReqsPadded, ?_, fun hne => ?_⟩
  · simp [maybeCreateUbatchSlices, ← hsplit, ← hus, hsum, hn.ne']
  · obtain ⟨hpos, hflat⟩ := tokens_partition (hus ▸ hne)
    replace hflat : us.flatMap UBatchSlice.tokens = List.range b.numTokens := by
      rw [range_eq_range', hus]
      exact hflat
    have hfit : ∀ u ∈ us, b.Fits u := by
      intro u hu
      have hlast : u.tokStop - 1 ∈ us.flatMap UBatchSlice.tokens := by
        refine mem_flatMap.2 ⟨u, hu, ?_⟩
        have := hne u hu
        simp [UBatchSlice.tokens]
        omega
      rw [hflat, mem_range] at hlast
      exact Batch.fits_of_mem (hus ▸ hu) (hne u hu) (by omega)
    obtain ⟨ms, hms, hmicro⟩ := b.microBatches hfit
    exact ⟨ms, hms, b.preserved_of_fits hfit hmicro hflat⟩

/-- One request whose four tokens start its sequence. -/
def fourTokens : Batch ℕ ℕ where
  requests := [⟨4, 4, 7, Nat.succ_pos 3, le_rfl⟩]
  slots := [20, 21, 22, 23]
  upperBound := [4]
  maxQueryLen := 4
  maxSeqLen := 4
  storesSeqLens := true
  storesComputed := true
  slots_length := rfl
  upperBound_length := rfl

/-- Two micro-batches of the four tokens, cut in the middle. -/
theorem ubatches_preserve_four_tokens : ∃ us padded ms,
    maybeCreateUbatchSlices true fourTokens.queryLens 4 1 2 none = some (some (us, padded)) ∧
      splitAttnMetadata us fourTokens.metadata = some ms ∧ fourTokens.Preserved us ms := by
  obtain ⟨us, padded, hus, h⟩ := ubatches_preserve_attention fourTokens 4 1 2 none (by decide)
  have hne : ∀ u ∈ us, u.tokStart < u.tokStop := by
    have hval : maybeCreateUbatchSlices true fourTokens.queryLens 4 1 2 none =
        some (some ([⟨0, 1, 0, 2⟩, ⟨0, 1, 2, 4⟩], [⟨0, 1, 0, 2⟩, ⟨0, 1, 2, 4⟩])) := by decide +kernel
    rw [hval] at hus
    obtain ⟨rfl, -⟩ := hus
    decide
  obtain ⟨ms, hms, hpres⟩ := h hne
  exact ⟨us, padded, ms, hus, hms, hpres⟩

/-- The second of these micro-batches has no computed tokens, two query tokens and sequence length
four. -/
theorem continued_row_computed_mismatch : ∃ us padded m m',
    maybeCreateUbatchSlices true fourTokens.queryLens 4 1 2 none = some (some (us, padded)) ∧
    (∀ u ∈ us, u.tokStart < u.tokStop) ∧
    splitAttnMetadata us fourTokens.metadata = some [m, m'] ∧ m'.numReqs = 1 ∧
    m'.numComputed = [0] ∧ m'.queryStartLoc = [0, 2] ∧ m'.seqLens = [4] ∧
    ¬ Batch.ComputedMatches m' 0 := by
  refine ⟨[⟨0, 1, 0, 2⟩, ⟨0, 1, 2, 4⟩], [⟨0, 1, 0, 2⟩, ⟨0, 1, 2, 4⟩],
    ⟨[0, 2], [0, 2], [2], 1, 2, 2, 4, [7], [20, 21], some [2], some [2], some [0]⟩,
    ⟨[0, 2], [0, 2], [4], 1, 2, 2, 4, [7], [22, 23], some [4], some [4], some [0]⟩,
    by decide +kernel, by decide, by decide +kernel, rfl, rfl, rfl, rfl, ?_⟩
  rintro ⟨lo, hi, n, c, hlo, hhi, hn, hc, -, h⟩
  cases hlo
  cases hhi
  cases hn
  cases hc
  exact absurd h (by decide)

end Lvllm
