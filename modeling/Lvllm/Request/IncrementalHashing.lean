import Lvllm.Request.HashLoop

/-!
# Incremental against batch hashing

A request hashes its prompt when it is constructed and the blocks completed by output tokens as
they are appended.  Hashing the same tokens in one call need not give the same list: a call that
finds some block already hashed starts its scan of the multimodal features at the last one, so
an earlier item that reaches into the unfinished block at the end of the prompt is missed.

`HashRun.incremental_eq_batch_iff` says exactly when the two agree, and
`HashRun.agree_of_hash_eq` what a shared hash means for the two requests that share it.
-/

namespace Lvllm

open List Nat Request ExtraKey

variable {H : Type}

/-! ## What a block's content depends on -/

/-- The fields from which extra keys are made. -/
def Request.keyFields (r : Request H) :
    List MultiModalFeatureSpec × Option LoRARequest × Option String ×
      Option (List (List UInt8)) :=
  (r.mmFeatures, r.loraRequest, r.cacheSalt, r.promptEmbeds)

variable {bh : BlockHasher H} {r r' : Request H} {i k : ℕ}

/-- The content of a block depends on the key fields and on the tokens up to its end. -/
lemma blockContent_congr (hkeys : r'.keyFields = r.keyFields)
    (htokens : r'.allTokenIds.take (i * bh.hashBlockSize + bh.hashBlockSize) =
      r.allTokenIds.take (i * bh.hashBlockSize + bh.hashBlockSize)) (k : ℕ) :
    blockContent bh r' k i = blockContent bh r k i := by
  simp only [keyFields, Prod.mk.injEq] at hkeys
  obtain ⟨hmm, hlora, hsalt, hembeds⟩ := hkeys
  have h1 : genLoraExtraHashKeys r' = genLoraExtraHashKeys r := by
    unfold genLoraExtraHashKeys
    rw [hlora]
  have h2 : ∀ s, genCacheSaltKeys r' s = genCacheSaltKeys r s := fun s => by
    unfold genCacheSaltKeys
    rw [hsalt]
  have h3 : ∀ s e, genPromptEmbedsExtraHashKeys bh r' s e =
      genPromptEmbedsExtraHashKeys bh r s e := fun s e => by
    unfold genPromptEmbedsExtraHashKeys
    rw [hembeds]
  simp only [blockContent, htokens, extraKeysList, h1, h2, h3, hmm]

/-- Wrapping a list of keys as `None` or a tuple loses nothing. -/
lemma tupleOrNone_inj {α : Type} {l l' : List α} : tupleOrNone l = tupleOrNone l' ↔ l = l' := by
  cases l <;> cases l' <;> simp [tupleOrNone]

/-- Two scans give a block the same content exactly when they find the same items. -/
lemma blockContent_eq_iff {k' : ℕ} : blockContent bh r k i = blockContent bh r k' i ↔
      overlapKeys (i * bh.hashBlockSize) (i * bh.hashBlockSize + bh.hashBlockSize)
          (r.mmFeatures.drop k) =
        overlapKeys (i * bh.hashBlockSize) (i * bh.hashBlockSize + bh.hashBlockSize)
          (r.mmFeatures.drop k') := by
  simp only [blockContent, Prod.mk.injEq, true_and, tupleOrNone_inj, extraKeysList]
  constructor
  · intro h
    have h1 := append_cancel_right (append_cancel_right h)
    exact append_cancel_left h1
  · intro h
    rw [h]

/-- A scan that started at feature `k` finds what a full scan finds exactly when no feature
before `k` overlaps the block. -/
lemma blockContent_eq_full_iff : blockContent bh r k i = blockContent bh r 0 i ↔
      ∀ f ∈ r.mmFeatures.take k,
        ¬ f.Overlaps (i * bh.hashBlockSize) (i * bh.hashBlockSize + bh.hashBlockSize) := by
  rw [blockContent_eq_iff]
  have hsplit := overlapKeys_append (i * bh.hashBlockSize)
    (i * bh.hashBlockSize + bh.hashBlockSize) (r.mmFeatures.take k) (r.mmFeatures.drop k)
  rw [take_append_drop] at hsplit
  rw [drop_zero, hsplit]
  constructor
  · intro h
    have hlen := congrArg List.length h
    rw [length_append] at hlen
    have hnil : overlapKeys (i * bh.hashBlockSize)
        (i * bh.hashBlockSize + bh.hashBlockSize) (r.mmFeatures.take k) = [] :=
      length_eq_zero_iff.1 (by omega)
    simpa [overlapKeys] using hnil
  · intro h
    rw [overlapKeys_eq_nil h, nil_append]

/-! ## The hash chain under an injective hash function -/

/-- What the hash function is assumed to be: injective, and never empty. -/
structure BlockHasher.CollisionFree (bh : BlockHasher H) : Prop where
  /-- No two inputs have the same hash. -/
  injective : Function.Injective bh.cachingHashFn
  /-- A digest is not the empty byte string. -/
  ne_empty : ∀ x, bh.cachingHashFn x ≠ bh.emptyBytes

variable [DecidableEq H] {e : EngineCoreRequest}

/-- With nonempty digests the test for a missing parent never fires inside a chain. -/
lemma foldl_chainStep (hbh : bh.CollisionFree) (cs : List BlockContent) :
    cs.foldl (chainStep bh) bh.noneHash =
      cs.foldl (fun d c => bh.cachingHashFn (.block d c.1 c.2)) bh.noneHash := by
  have hgen : ∀ d, d ≠ bh.emptyBytes → cs.foldl (chainStep bh) d =
      cs.foldl (fun d c => bh.cachingHashFn (.block d c.1 c.2)) d := by
    induction cs with
    | nil => intro d _; rfl
    | cons c cs ih =>
      intro d hd
      have hstep : chainStep bh d c = bh.cachingHashFn (.block d c.1 c.2) := by
        simp [chainStep, hashBlockTokens, hd]
      rw [foldl_cons, foldl_cons, hstep]
      exact ih _ (hbh.ne_empty _)
  exact hgen _ (hbh.ne_empty _)

/-- The last hash of a chain determines the contents of all its blocks. -/
theorem foldl_chainStep_injective (hbh : bh.CollisionFree) :
    Function.Injective fun cs : List BlockContent => cs.foldl (chainStep bh) bh.noneHash := by
  intro cs cs' h
  simp only [foldl_chainStep hbh] at h
  refine foldl_injective (f := fun d (c : BlockContent) =>
    bh.cachingHashFn (.block d c.1 c.2)) ?_ ?_ h
  · intro a b a' b' heq
    have := hbh.injective heq
    simp only [HashInput.block.injEq] at this
    exact ⟨this.1, Prod.ext this.2.1 this.2.2⟩
  · intro a b heq
    exact absurd (hbh.injective heq) (by simp)

/-- Two chains with the same hashes hash the same contents. -/
lemma chainHashes_injective (hbh : bh.CollisionFree) : Function.Injective (chainHashes bh) := by
  intro cs cs' h
  have hlen : cs.length = cs'.length := by simpa [chainHashes] using congrArg List.length h
  have hlast := congrArg List.getLast? h
  simp only [chainHashes, getLast?_digests] at hlast
  by_cases hcs : cs = []
  · subst hcs
    exact (length_eq_zero_iff.1 hlen.symm).symm
  · have hcs' : cs' ≠ [] := by
      rintro rfl
      exact hcs (length_eq_zero_iff.1 hlen)
    simp only [hcs, hcs', if_false, Option.some.injEq] at hlast
    exact foldl_chainStep_injective hbh hlast

/-! ## Appending tokens -/

/-- The content of block `i` as the incremental hasher sees it, when the prompt has `k` full
blocks: later blocks are scanned from the last feature on. -/
def incrementalContent (bh : BlockHasher H) (r : Request H) (k i : ℕ) : BlockContent :=
  blockContent bh r (scanStart r (if k ≤ i then k else 0)) i

omit [DecidableEq H] in
lemma incrementalContent_congr (hkeys : r'.keyFields = r.keyFields)
    (htokens : r'.allTokenIds.take (i * bh.hashBlockSize + bh.hashBlockSize) =
      r.allTokenIds.take (i * bh.hashBlockSize + bh.hashBlockSize)) (k : ℕ) :
    incrementalContent bh r' k i = incrementalContent bh r k i := by
  have hmm : r'.mmFeatures = r.mmFeatures := congrArg Prod.fst hkeys
  unfold incrementalContent
  rw [blockContent_congr hkeys htokens]
  simp only [scanStart, hmm]

/-- What holds of a request whose prompt had `k` full blocks, at every point of a run of
appends. -/
structure IncrementallyHashed (bh : BlockHasher H) (k : ℕ) (r : Request H) : Prop where
  /-- The hashes are those of the contents the incremental scan sees. -/
  hashes : r.blockHashes =
    chainHashes bh ((List.range (r.numFullBlocks bh)).map (incrementalContent bh r k))
  /-- The full blocks of the prompt are still there. -/
  le_numFullBlocks : k ≤ r.numFullBlocks bh
  /-- All items end in the block after these at the latest. -/
  endPos_lt : ∀ f ∈ r.mmFeatures, f.endPos < (k + 1) * bh.hashBlockSize
  /-- The features are in order. -/
  ordered : FeaturesOrdered r.mmFeatures

omit [DecidableEq H] in
/-- A block after the prompt's full blocks has the same content whether the scan restarts
because of the prompt's blocks or because of any later ones. -/
lemma blockContent_scanStart {m : ℕ} (hkm : k ≤ m) (hmi : m ≤ i)
    (hend : ∀ f ∈ r.mmFeatures, f.endPos < (k + 1) * bh.hashBlockSize) :
    blockContent bh r (scanStart r m) i = blockContent bh r (scanStart r k) i := by
  by_cases hk : 0 < k
  · simp [scanStart, hk, hk.trans_le hkm]
  · by_cases hm : 0 < m
    · -- The prompt fills no block, so its items end before block `i` starts.
      have hscan : scanStart r k = 0 := by simp [scanStart, hk]
      rw [hscan, blockContent_eq_full_iff]
      intro f hf hov
      have h1 := hend f (mem_of_mem_take hf)
      have h2 := hov.2
      have h3 : 1 * bh.hashBlockSize ≤ i * bh.hashBlockSize := mul_le_mul_right _ (by omega)
      rw [show k + 1 = 1 by omega] at h1
      omega
    · rw [show m = k by omega]

/-- Appending tokens keeps the request incrementally hashed. -/
lemma IncrementallyHashed.append (h : IncrementallyHashed bh k r) (tokens : List Token) :
    IncrementallyHashed bh k (r.appendOutputTokenIds (some bh) tokens) := by
  set r' := r.appendOutputTokenIds (some bh) tokens with hr'
  have htok : r'.allTokenIds = r.allTokenIds ++ tokens := rfl
  have hkeys : r'.keyFields = r.keyFields := rfl
  set m := r.numFullBlocks bh with hm
  set m' := r'.numFullBlocks bh with hm'
  have hmm' : m ≤ m' := by
    refine Nat.div_le_div_right ?_
    simp [numTokens, htok]
  have hlen : r.blockHashes.length = m := by
    rw [h.hashes]
    simp [chainHashes, hm]
  -- The blocks full before the append keep their content.
  have hold : (List.range m).map (incrementalContent bh r' k) =
      (List.range m).map (incrementalContent bh r k) := by
    refine map_congr_left fun i hi => incrementalContent_congr hkeys ?_ k
    have hfull := lt_numFullBlocks_iff.1 (mem_range.1 hi)
    rw [htok, take_append_of_le_length hfull]
  -- The new blocks are scanned as in `incrementalContent`.
  have hnew : (List.range' m (m' - m)).map (incrementalContent bh r' k) =
      (List.range' m (m' - m)).map (blockContent bh r' (scanStart r' m)) := by
    refine map_congr_left fun i hi => ?_
    have hmi : m ≤ i := (mem_range'_1.1 hi).1
    rw [incrementalContent, if_pos (h.le_numFullBlocks.trans hmi)]
    exact (blockContent_scanStart (r := r') h.le_numFullBlocks hmi h.endPos_lt).symm
  have hlast : r.blockHashes.getLast?.getD bh.noneHash =
      ((List.range m).map (incrementalContent bh r k)).foldl (chainStep bh) bh.noneHash := by
    rw [h.hashes, getLast?_chainHashes]
  refine ⟨?_, h.le_numFullBlocks.trans hmm', h.endPos_lt, h.ordered⟩
  have hhash : r'.blockHashes = r.blockHashes ++
      digests (chainStep bh) (r.blockHashes.getLast?.getD bh.noneHash)
        ((List.range' m (m' - m)).map (blockContent bh r' (scanStart r' m))) := by
    let r1 : Request H := { r with
        outputTokenIds := r.outputTokenIds ++ tokens
        allTokenIds := r.allTokenIds ++ tokens }
    have hord : FeaturesOrdered r1.mmFeatures := h.ordered
    rw [← hlen]
    exact congrArg (r.blockHashes ++ ·) (requestBlockHasher_eq hord)
  rw [hhash, hlast, ← hnew, ← hm', range_eq_append hmm', map_append, chainHashes,
    digests_append, hold, ← chainHashes, ← h.hashes]

/-! ## Runs of appends -/

/-- A request as constructed from a front-end request, with the chunks of output tokens appended
to it afterwards.  Its features are in order and lie inside the prompt. -/
structure HashRun (bh : BlockHasher H) where
  /-- What the front end sent. -/
  source : EngineCoreRequest
  /-- The request constructed from it. -/
  request : Request H
  /-- The construction succeeds. -/
  constructed : Request.fromEngineCoreRequest (some bh) source = .ok request
  /-- The features are in order. -/
  ordered : FeaturesOrdered request.mmFeatures
  /-- The features lie inside the prompt. -/
  inside : ∀ f ∈ request.mmFeatures, f.endPos ≤ request.numTokens
  /-- The appended chunks. -/
  chunks : List (List Token)

namespace HashRun

variable {bh : BlockHasher H}

/-- The request after all chunks are appended. -/
def final (run : HashRun bh) : Request H :=
  run.chunks.foldl (Request.appendOutputTokenIds (some bh)) run.request

/-- The hashes collected over the construction and the appends. -/
def incremental (run : HashRun bh) : List H := run.final.blockHashes

/-- The hashes of the whole token sequence computed in one call. -/
def batch (run : HashRun bh) : List H :=
  requestBlockHasher bh { run.final with blockHashes := [] }

/-- If the prompt has full blocks and the block after them gets completed, no item but the last
reaches into that block. -/
def OnlyLastItemInTail (run : HashRun bh) : Prop :=
  0 < run.request.numFullBlocks bh →
    run.request.numFullBlocks bh < run.final.numFullBlocks bh →
      ∀ f ∈ run.request.mmFeatures.dropLast,
        f.endPos ≤ run.request.numFullBlocks bh * bh.hashBlockSize

end HashRun

/-- A constructed request is the hashed image of an unhashed one. -/
lemma eq_of_fromEngineCoreRequest {bh : Option (BlockHasher H)}
    (h : fromEngineCoreRequest bh e = .ok r) :
    ∃ maxTokens numPromptTokens status, r =
      updateBlockHashes bh (unhashed e maxTokens numPromptTokens status) := by
  unfold fromEngineCoreRequest at h
  cases hlen : lengthFromPromptTokenIdsOrEmbeds e.promptTokenIds e.promptEmbeds <;>
    cases hp : e.poolingParams <;> cases hs : e.samplingParams <;>
      simp [hlen, hp, hs, bind, Except.bind, pure, Except.pure, throw, throwThe,
        MonadExceptOf.throw] at h <;>
      exact ⟨_, _, _, h.symm⟩

/-- A constructed request carries the hashes of its prompt. -/
lemma blockHashes_of_fromEngineCoreRequest (h : fromEngineCoreRequest (some bh) e = .ok r) :
    r.blockHashes = requestBlockHasher bh { r with blockHashes := [] } := by
  obtain ⟨maxTokens, numPromptTokens, status, rfl⟩ := eq_of_fromEngineCoreRequest h
  simp [updateBlockHashes, unhashed]

/-- Hashing from scratch gives the chained hashes of all full blocks, fully scanned. -/
lemma requestBlockHasher_of_nil (hfs : FeaturesOrdered r.mmFeatures) :
    requestBlockHasher bh { r with blockHashes := [] } =
      chainHashes bh ((List.range (r.numFullBlocks bh)).map (blockContent bh r 0)) := by
  rw [requestBlockHasher_eq (by exact hfs), range_eq_range']
  rfl

namespace HashRun

variable {bh : BlockHasher H}

/-- The constructed request is incrementally hashed. -/
lemma request_incrementallyHashed (run : HashRun bh) :
    IncrementallyHashed bh (run.request.numFullBlocks bh) run.request := by
  refine ⟨?_, le_rfl, ?_, run.ordered⟩
  · rw [blockHashes_of_fromEngineCoreRequest run.constructed, requestBlockHasher_of_nil run.ordered]
    congr 1
    refine map_congr_left fun i hi => ?_
    rw [incrementalContent, if_neg (not_le.2 (mem_range.1 hi))]
    rfl
  · intro f hf
    refine (run.inside f hf).trans_lt ?_
    rw [mul_comm]
    exact lt_mul_div_succ _ bh.hashBlockSize_pos

/-- Appending chunks keeps a request incrementally hashed and its key fields as they are. -/
lemma foldl_append_spec (chunks : List (List Token)) (h : IncrementallyHashed bh k r) :
    IncrementallyHashed bh k (chunks.foldl (appendOutputTokenIds (some bh)) r) ∧
      (chunks.foldl (appendOutputTokenIds (some bh)) r).keyFields = r.keyFields := by
  induction chunks generalizing r with
  | nil => exact ⟨h, rfl⟩
  | cons chunk chunks ih =>
    obtain ⟨h1, h2⟩ := ih (h.append chunk)
    exact ⟨h1, h2.trans rfl⟩

lemma final_incrementallyHashed (run : HashRun bh) :
    IncrementallyHashed bh (run.request.numFullBlocks bh) run.final :=
  (foldl_append_spec run.chunks run.request_incrementallyHashed).1

lemma final_mmFeatures (run : HashRun bh) : run.final.mmFeatures = run.request.mmFeatures :=
  congrArg Prod.fst (foldl_append_spec run.chunks run.request_incrementallyHashed).2

/-- The hashes of the whole sequence are those of its fully scanned blocks. -/
lemma batch_eq (run : HashRun bh) : run.batch =
      chainHashes bh ((List.range (run.final.numFullBlocks bh)).map (blockContent bh run.final 0)) :=
  requestBlockHasher_of_nil run.final_incrementallyHashed.ordered

/-- Every block has its full content exactly when no early item reaches into the tail. -/
lemma forall_incrementalContent_iff (run : HashRun bh) : (∀ i < run.final.numFullBlocks bh,
        incrementalContent bh run.final (run.request.numFullBlocks bh) i =
          blockContent bh run.final 0 i) ↔ run.OnlyLastItemInTail := by
  have hend := run.final_incrementallyHashed.endPos_lt
  have hmm := run.final_mmFeatures
  have htake : run.request.mmFeatures.dropLast =
      run.final.mmFeatures.take (run.final.mmFeatures.length - 1) := by
    rw [hmm, dropLast_eq_take]
  constructor
  · intro hall hpos hlt f hf
    have hcontent := hall _ hlt
    rw [incrementalContent, if_pos le_rfl, scanStart, if_pos hpos,
      blockContent_eq_full_iff] at hcontent
    by_contra hreach
    rw [htake] at hf
    refine hcontent f hf ⟨?_, Nat.lt_of_not_le hreach⟩
    have h1 := hend f (mem_of_mem_take hf)
    have h2 : f.mmPosition.offset ≤ f.endPos := Nat.le_add_right _ _
    rw [Nat.add_mul, Nat.one_mul] at h1
    omega
  · intro hclean i hi
    unfold incrementalContent
    by_cases hki : run.request.numFullBlocks bh ≤ i
    · rw [if_pos hki]
      by_cases hpos : 0 < run.request.numFullBlocks bh
      · rw [scanStart, if_pos hpos, blockContent_eq_full_iff]
        intro f hf hov
        have h1 := hclean hpos (hki.trans_lt hi) f (by rw [htake]; exact hf)
        have h2 := mul_le_mul_right bh.hashBlockSize hki
        have h3 := hov.2
        omega
      · rw [scanStart, if_neg hpos]
    · rw [if_neg hki]
      rfl

/-- Without early items in the tail the two ways of hashing agree, whatever the hash function. -/
lemma incremental_eq_batch (run : HashRun bh) (h : run.OnlyLastItemInTail) :
    run.incremental = run.batch := by
  rw [incremental, run.final_incrementallyHashed.hashes, batch_eq]
  congr 1
  refine map_congr_left fun i hi => ?_
  exact run.forall_incrementalContent_iff.2 h i (mem_range.1 hi)

/-- Under a collision-free hash function they agree in no other case. -/
lemma onlyLastItemInTail_of_eq (hbh : bh.CollisionFree) (run : HashRun bh)
    (h : run.incremental = run.batch) : run.OnlyLastItemInTail := by
  rw [incremental, run.final_incrementallyHashed.hashes, batch_eq] at h
  refine run.forall_incrementalContent_iff.1 fun i hi => ?_
  exact map_inj_left.1 (chainHashes_injective hbh h) i (mem_range.2 hi)

end HashRun

/-! ## What a shared hash says -/

/-- The multimodal items that overlap block `k`, with their offsets relative to its start. -/
def itemsInBlock (bh : BlockHasher H) (r : Request H) (k : ℕ) : List (String × ℤ) :=
  let s := k * bh.hashBlockSize
  (r.mmFeatures.filter (·.Overlaps s (s + bh.hashBlockSize))).map fun f =>
    (f.identifier, (f.mmPosition.offset : ℤ) - s)

/-- The item an extra key stands for, if it stands for one. -/
def ExtraKey.item? : ExtraKey → Option (String × ℤ)
  | .mm identifier offset => some (identifier, offset)
  | _ => none

section

omit [DecidableEq H]

/-- The items of a block can be read off its extra keys. -/
lemma filterMap_item?_extraKeysList (bh : BlockHasher H) (r : Request H) (k : ℕ) :
    (extraKeysList bh r (k * bh.hashBlockSize) (k * bh.hashBlockSize + bh.hashBlockSize)
        (overlapKeys (k * bh.hashBlockSize) (k * bh.hashBlockSize + bh.hashBlockSize)
          r.mmFeatures)).filterMap item? = itemsInBlock bh r k := by
  have hlora : (genLoraExtraHashKeys r).filterMap item? = [] := by
    unfold genLoraExtraHashKeys
    split <;> rfl
  have hsalt : ∀ s, (genCacheSaltKeys r s).filterMap item? = [] := by
    intro s
    unfold genCacheSaltKeys
    split
    · rfl
    · split <;> rfl
  have hembeds : ∀ s e, (genPromptEmbedsExtraHashKeys bh r s e).filterMap item? = [] := by
    intro s e
    unfold genPromptEmbedsExtraHashKeys
    split <;> rfl
  have hmm : ∀ s e, (overlapKeys s e r.mmFeatures).filterMap item? =
      (r.mmFeatures.filter (·.Overlaps s e)).map fun f =>
        (f.identifier, (f.mmPosition.offset : ℤ) - s) := by
    intro s e
    rw [overlapKeys, filterMap_map, ← filterMap_eq_map]
    rfl
  simp only [extraKeysList, filterMap_append, hlora, hsalt, hembeds, hmm, itemsInBlock,
    nil_append, append_nil]

/-- Blocks with the same content contain the same items. -/
lemma itemsInBlock_eq_of_blockContent_eq (h : blockContent bh r 0 k = blockContent bh r' 0 k) :
    itemsInBlock bh r k = itemsInBlock bh r' k := by
  have hkeys := tupleOrNone_inj.1 (congrArg Prod.snd h)
  rw [drop_zero, drop_zero] at hkeys
  rw [← filterMap_item?_extraKeysList, ← filterMap_item?_extraKeysList, hkeys]

/-- Requests whose first blocks have the same contents have the same tokens there. -/
lemma take_eq_of_blockContent_eq (h : ∀ k ≤ i, blockContent bh r 0 k = blockContent bh r' 0 k) :
    r.allTokenIds.take ((i + 1) * bh.hashBlockSize) =
      r'.allTokenIds.take ((i + 1) * bh.hashBlockSize) := by
  refine ext_getElem? fun p => ?_
  by_cases hp : p < (i + 1) * bh.hashBlockSize
  · -- Position `p` lies in block `p / hash_block_size`.
    have hk : p / bh.hashBlockSize ≤ i :=
      Nat.lt_succ_iff.1 ((Nat.div_lt_iff_lt_mul bh.hashBlockSize_pos).2 hp)
    have hdiv := Nat.div_add_mod' p bh.hashBlockSize
    have hmod := Nat.mod_lt p bh.hashBlockSize_pos
    have htok := congrArg (fun c : BlockContent => c.1[p % bh.hashBlockSize]?) (h _ hk)
    simp only [blockContent, getElem?_drop, hdiv] at htok
    rw [getElem?_take_of_lt (by omega), getElem?_take_of_lt (by omega)] at htok
    rw [getElem?_take_of_lt hp, getElem?_take_of_lt hp, htok]
  · rw [getElem?_eq_none (by simp; omega), getElem?_eq_none (by simp; omega)]

end

/-- Two chains agree on a hash only if they agree on all contents up to it. -/
lemma contents_eq_of_hash_eq (hbh : bh.CollisionFree) {c c' : ℕ → BlockContent} {m m' j : ℕ}
    {hash : H} (hi : (chainHashes bh ((List.range m).map c))[i]? = some hash)
    (hj : (chainHashes bh ((List.range m').map c'))[j]? = some hash) :
    i = j ∧ ∀ k ≤ i, c k = c' k := by
  have hidx : ∀ {n l : ℕ} {d : ℕ → BlockContent},
      (chainHashes bh ((List.range n).map d))[l]? = some hash →
        ((List.range (l + 1)).map d).foldl (chainStep bh) bh.noneHash = hash := by
    intro n l d hl
    have hln : l < n := by simpa [chainHashes] using (List.getElem?_eq_some_iff.1 hl).1
    rw [chainHashes, getElem?_digests _ _ (by simpa using hln), ← map_take,
      take_range, min_eq_left (by omega)] at hl
    exact Option.some.inj hl
  have heq := foldl_chainStep_injective hbh ((hidx hi).trans (hidx hj).symm)
  have hij : i = j := by simpa using congrArg List.length heq
  subst hij
  exact ⟨rfl, fun k hk => map_inj_left.1 heq k (mem_range.2 (by omega))⟩

/-- **Incremental hashing.**  Hashing a request as its tokens arrive gives the hashes of the
whole sequence exactly when no multimodal item but the last reaches into an unfinished block at
the end of the prompt that is completed later.  Requests of this kind share the hash of a block
only if it is the same block of both, they agree on all tokens up to its end, and every block up
to it contains the same items at the same relative offsets. -/
theorem incremental_hashing_eq_batch_iff {bh : BlockHasher H} (hbh : bh.CollisionFree) :
    (∀ run : HashRun bh, run.incremental = run.batch ↔ run.OnlyLastItemInTail) ∧
      ∀ run run' : HashRun bh, run.OnlyLastItemInTail → run'.OnlyLastItemInTail →
        ∀ (i j : ℕ) (hash : H), run.incremental[i]? = some hash → run'.incremental[j]? = some hash →
            i = j ∧ run.final.allTokenIds.take ((i + 1) * bh.hashBlockSize) =
                run'.final.allTokenIds.take ((i + 1) * bh.hashBlockSize) ∧
              ∀ k ≤ i, itemsInBlock bh run.final k = itemsInBlock bh run'.final k := by
  refine ⟨fun run => ⟨run.onlyLastItemInTail_of_eq hbh, run.incremental_eq_batch⟩, ?_⟩
  intro run run' hclean hclean' i j hash hi hj
  rw [run.incremental_eq_batch hclean, run.batch_eq] at hi
  rw [run'.incremental_eq_batch hclean', run'.batch_eq] at hj
  obtain ⟨rfl, hcontents⟩ := contents_eq_of_hash_eq hbh hi hj
  exact ⟨rfl, take_eq_of_blockContent_eq hcontents,
    fun k hk => itemsInBlock_eq_of_blockContent_eq (hcontents k hk)⟩

/-! ## A hash that records its input -/

/-- Hashes that are their own preimages. -/
inductive FreeHash where
  | empty
  | seed (s : String)
  | block (parent : FreeHash) (tokens : List Token) (extraKeys : Option (List ExtraKey))
  deriving DecidableEq

/-- The hasher with blocks of four tokens whose hash function records its input. -/
def freeHasher : BlockHasher FreeHash where
  hashBlockSize := 4
  hashBlockSize_pos := by decide
  cachingHashFn
    | .seed s => .seed s
    | .block parent tokens extraKeys => .block parent tokens extraKeys
  sha256 := id
  emptyBytes := .empty

lemma freeHasher_collisionFree : freeHasher.CollisionFree where
  injective := by
    intro x y h
    cases x <;> cases y <;> simp_all [freeHasher]
  ne_empty := by
    intro x
    cases x <;> simp [freeHasher]

/-- A prompt of six tokens with one item at position 4, if any, and one at position 5; two
output tokens complete its second block. -/
def tailItemRun (early : List String) : HashRun freeHasher :=
  let source : EngineCoreRequest :=
    { requestId := "0"
      promptTokenIds := some [1, 2, 3, 4, 0, 0]
      mmFeatures := (early.take 1).map (⟨·, { offset := 4, length := 1 }⟩) ++
        [⟨"last", { offset := 5, length := 1 }⟩]
      samplingParams := some { maxTokens := 16 } }
  { source := source
    request := Request.updateBlockHashes (some freeHasher) (Request.unhashed source 16 6 .waiting)
    constructed := rfl
    ordered := by
      cases early <;> simp [Request.updateBlockHashes, Request.unhashed, source, FeaturesOrdered,
        MultiModalFeatureSpec.endPos]
    inside := by
      cases early <;> simp [Request.updateBlockHashes, Request.unhashed, source,
        Request.initialTokenIds, Request.numTokens, MultiModalFeatureSpec.endPos]
    chunks := [[7], [8]] }

/-- With two items in the unfinished block the early one is not hashed: the incremental hashes
are not the batch hashes, and requests with different items share a hash. -/
theorem incremental_ne_batch_of_two_tail_items :
    (tailItemRun ["cat"]).incremental ≠ (tailItemRun ["cat"]).batch ∧
      (tailItemRun ["cat"]).incremental[1]? = (tailItemRun ["dog"]).incremental[1]? ∧
      (tailItemRun ["cat"]).incremental[1]? ≠ none ∧
      itemsInBlock freeHasher (tailItemRun ["cat"]).final 1 = [("cat", 0), ("last", 1)] ∧
      itemsInBlock freeHasher (tailItemRun ["dog"]).final 1 = [("dog", 0), ("last", 1)] := by
  decide +kernel

/-- With only one item in the unfinished block the two ways of hashing agree. -/
theorem incremental_hashing_eq_batch_one_tail_item :
    freeHasher.CollisionFree ∧ (tailItemRun []).incremental = (tailItemRun []).batch :=
  ⟨freeHasher_collisionFree,
    ((incremental_hashing_eq_batch_iff freeHasher_collisionFree).1 (tailItemRun [])).2
      (fun _ _ f hf => absurd hf (by
        simp [tailItemRun, updateBlockHashes, unhashed]))⟩

end Lvllm
