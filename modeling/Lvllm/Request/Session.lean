import Lvllm.Request.IncrementalHashing

/-!
# The life of a request, and what its block hashes describe

The scheduler changes a request in a few ways only: it admits it with some computed tokens,
advances it when a step is scheduled, takes rejected draft tokens back, preempts it, appends
sampled tokens, and continues a streaming session with a new piece of input.  These are the
functions below; `RequestOp` collects them and `RequestOp.apply` runs one.

Block hashes are only ever appended, while the continuation of a session deletes tokens.
`blockHashes_describe_tokens` shows that the hashes describe the request's own tokens along every
run in which no continuation deletes a token of a hashed block, and
`stale_hash_after_session_update` is a run in which one does.
-/

namespace Lvllm

open List Nat Request

variable {H : Type}

namespace Request

/-- The request part of admission in `Scheduler.schedule`: the request runs, with the tokens
found in the prefix cache (or computed earlier in its session) counted as computed. -/
def setRunning (r : Request H) (numComputedTokens : ℕ) : Request H :=
  { r with status := .running, numComputedTokens := numComputedTokens }

/-- The request part of `Scheduler._update_after_schedule`; `lastSchedSeq` is recorded only when
block frees are deferred. -/
def updateAfterSchedule (r : Request H) (numScheduledTokens : ℕ) (lastSchedSeq : Option ℕ) :
    Request H :=
  let numComputedTokens := r.numComputedTokens + numScheduledTokens
  { r with
    numComputedTokens := numComputedTokens
    numInFlightTokens := r.numInFlightTokens + numScheduledTokens
    lastSchedSeq := lastSchedSeq.getD r.lastSchedSeq
    isPrefillChunk := decide ((numComputedTokens : ℤ) < r.numTokens + r.numOutputPlaceholders) }

/-- The rollback of rejected draft tokens in `Scheduler.update_from_output`. -/
def rejectDraftTokens (r : Request H) (numRejected : ℤ) : Request H :=
  { r with
    numComputedTokens := if 0 < r.numComputedTokens then
      ((r.numComputedTokens : ℤ) - numRejected).toNat else r.numComputedTokens
    numOutputPlaceholders := if 0 < r.numOutputPlaceholders then
      r.numOutputPlaceholders - numRejected else r.numOutputPlaceholders }

/-- The request part of `Scheduler._preempt_request`. -/
def preempt (r : Request H) (dropStaleOutput : Bool) : Request H :=
  { r with
    status := .preempted
    numComputedTokens := 0
    specTokenIds := []
    dropStaleOutput := dropStaleOutput ||
      (r.dropStaleOutput && decide (0 < r.numStaleOutputTokens))
    numStaleOutputTokens := r.numInFlightTokens
    numOutputPlaceholders := 0
    numPreemptions := r.numPreemptions + 1 }

/-- The new token and feature lists of a session: output that was not computed is dropped,
computed output becomes part of the prompt, and the new input follows it. -/
def extendSession (session : Request H) (promptTokenIds : List Token) (update : StreamingUpdate) :
    Request H :=
  let keptTokens := session.allTokenIds.take session.numComputedTokens
  let keptOutputTokens := keptTokens.drop session.numPromptTokens
  -- Positions of new multimodal items are shifted behind the kept tokens.
  let newFeatures := (update.mmFeatures.getD []).map fun f =>
    { f with mmPosition :=
      { f.mmPosition with offset := f.mmPosition.offset + keptTokens.length } }
  let newTokens := update.promptTokenIds.getD []
  { session with
    allTokenIds := keptTokens ++ newTokens
    outputTokenIds := []
    promptTokenIds := some (promptTokenIds ++ keptOutputTokens ++ newTokens)
    mmFeatures := session.mmFeatures ++ newFeatures }

variable [DecidableEq H]

/-- The request part of `Scheduler._update_request_as_session`. -/
def updateAsSession (bh : Option (BlockHasher H)) (session : Request H)
    (update : StreamingUpdate) : Except PyErr (Request H) :=
  match session.promptTokenIds with
  | none => .error .assertionError
  | some promptTokenIds =>
    let session := updateBlockHashes bh (session.extendSession promptTokenIds update)
    .ok { session with
      numPromptTokens := (session.promptTokenIds.getD []).length
      arrivalTime := update.arrivalTime
      samplingParams := update.samplingParams
      status := .waiting }

end Request

/-! ## Runs of a request -/

/-- One change of a request by the scheduler. -/
inductive RequestOp where
  | setRunning (numComputedTokens : ℕ)
  | updateAfterSchedule (numScheduledTokens : ℕ) (lastSchedSeq : Option ℕ)
  | rejectDraftTokens (numRejected : ℤ)
  | preempt (dropStaleOutput : Bool)
  | appendOutputTokenIds (tokenIds : List Token)
  | updateAsSession (update : StreamingUpdate)

/-- An operation without multimodal input. -/
def RequestOp.TextOnly : RequestOp → Prop
  | .updateAsSession update => update.mmFeatures.getD [] = []
  | _ => True

variable [DecidableEq H]

/-- Run one operation. -/
def RequestOp.apply (bh : BlockHasher H) (r : Request H) : RequestOp → Except PyErr (Request H)
  | .setRunning n => .ok (r.setRunning n)
  | .updateAfterSchedule n seq => .ok (r.updateAfterSchedule n seq)
  | .rejectDraftTokens n => .ok (r.rejectDraftTokens n)
  | .preempt drop => .ok (r.preempt drop)
  | .appendOutputTokenIds tokenIds => .ok (r.appendOutputTokenIds (some bh) tokenIds)
  | .updateAsSession update => r.updateAsSession (some bh) update

/-- No token of a hashed block is deleted: every hashed token of a session that is continued has
been computed. -/
def RequestOp.KeepsHashedTokens (bh : BlockHasher H) (r : Request H) : RequestOp → Prop
  | .updateAsSession _ => r.blockHashes.length * bh.hashBlockSize ≤ r.numComputedTokens
  | _ => True

/-- The states of a text-only request along runs whose every operation meets `P`. -/
inductive RequestRun (bh : BlockHasher H) (P : Request H → RequestOp → Prop) : Request H → Prop
  | construct {e : EngineCoreRequest} {r : Request H} (htext : e.mmFeatures = [])
      (h : Request.fromEngineCoreRequest (some bh) e = .ok r) : RequestRun bh P r
  | step {r r' : Request H} (op : RequestOp) (hr : RequestRun bh P r) (htext : op.TextOnly)
      (hop : P r op) (h : op.apply bh r = .ok r') : RequestRun bh P r'

/-- The chained hash of the first `i + 1` blocks of the request's tokens, computed from
scratch; there is none if the request has fewer tokens. -/
def Request.hashFromScratch (bh : BlockHasher H) (r : Request H) (i : ℕ) : Option H :=
  (requestBlockHasher bh
    { r with
      allTokenIds := r.allTokenIds.take ((i + 1) * bh.hashBlockSize)
      blockHashes := [] })[i]?

/-! ## The hashes describe the tokens -/

/-- What holds of a text-only request whose hashes describe its tokens. -/
structure TextHashed (bh : BlockHasher H) (r : Request H) : Prop where
  /-- The request has no multimodal items. -/
  text : r.mmFeatures = []
  /-- Only full blocks are hashed. -/
  length_le : r.blockHashes.length ≤ r.numFullBlocks bh
  /-- The hashes are those of the request's blocks. -/
  hashes : r.blockHashes =
    chainHashes bh ((List.range r.blockHashes.length).map (blockContent bh r 0))

variable {bh : BlockHasher H} {r r' : Request H}

lemma TextHashed.hashed_le (h : TextHashed bh r) :
    r.blockHashes.length * bh.hashBlockSize ≤ r.allTokenIds.length :=
  (le_div_iff_mul_le bh.hashBlockSize_pos).1 h.length_le

omit [DecidableEq H] in
/-- The contents of `n` blocks are those of their tokens. -/
lemma map_blockContent_congr {n : ℕ} (hkeys : r'.keyFields = r.keyFields)
    (htokens : r'.allTokenIds.take (n * bh.hashBlockSize) =
      r.allTokenIds.take (n * bh.hashBlockSize)) :
    (List.range n).map (blockContent bh r' 0) = (List.range n).map (blockContent bh r 0) := by
  refine map_congr_left fun i hi => blockContent_congr hkeys ?_ 0
  -- Block `i` lies inside these tokens.
  have hi : (i + 1) * bh.hashBlockSize ≤ n * bh.hashBlockSize := mul_le_mul_right _ (mem_range.1 hi)
  rw [add_mul, one_mul] at hi
  have htake := congrArg (List.take (i * bh.hashBlockSize + bh.hashBlockSize)) htokens
  rwa [take_take, take_take, min_eq_left hi] at htake

/-- The hashed blocks of a text-only request are unchanged when their tokens are. -/
lemma TextHashed.congr (h : TextHashed bh r) (hkeys : r'.keyFields = r.keyFields)
    (hblocks : r'.blockHashes = r.blockHashes)
    (htokens : r'.allTokenIds.take (r.blockHashes.length * bh.hashBlockSize) =
      r.allTokenIds.take (r.blockHashes.length * bh.hashBlockSize)) : TextHashed bh r' := by
  have hfull := h.hashed_le
  refine ⟨(congrArg Prod.fst hkeys).trans h.text, ?_, ?_⟩
  · have hlen := congrArg List.length htokens
    rw [length_take, length_take] at hlen
    rw [hblocks]
    refine (le_div_iff_mul_le bh.hashBlockSize_pos).2 ?_
    rw [numTokens]
    omega
  · rw [hblocks]
    exact h.hashes.trans (congrArg _ (map_blockContent_congr hkeys htokens).symm)

/-- Hashing new blocks keeps the hashes those of the request's blocks. -/
lemma TextHashed.updateBlockHashes (h : TextHashed bh r) :
    TextHashed bh (r.updateBlockHashes (some bh)) := by
  have hord : FeaturesOrdered r.mmFeatures := by simp [h.text, FeaturesOrdered]
  have hscan : ∀ n, scanStart r n = 0 := by simp [scanStart, h.text]
  set m := r.blockHashes.length with hm
  set m' := r.numFullBlocks bh with hm'
  have hlast : r.blockHashes.getLast?.getD bh.noneHash =
      ((List.range m).map (blockContent bh r 0)).foldl (chainStep bh) bh.noneHash := by
    rw [h.hashes, getLast?_chainHashes]
  have hall : (r.updateBlockHashes (some bh)).blockHashes =
      chainHashes bh ((List.range m').map (blockContent bh r 0)) := by
    rw [range_eq_append h.length_le, map_append, chainHashes, digests_append, ← chainHashes,
      ← hlast, ← h.hashes]
    refine congrArg (r.blockHashes ++ ·) ?_
    rw [requestBlockHasher_eq hord, hscan]
  have hlen : (r.updateBlockHashes (some bh)).blockHashes.length = m' := by
    rw [hall]
    simp [chainHashes]
  exact ⟨h.text, hlen.le, by rw [hlen]; exact hall⟩

/-- The hashes of such a request are those computed from scratch. -/
lemma TextHashed.eq_hashFromScratch (h : TextHashed bh r) {i : ℕ} (hi : i < r.blockHashes.length) :
    r.blockHashes[i]? = r.hashFromScratch bh i := by
  set r1 : Request H := { r with allTokenIds := r.allTokenIds.take ((i + 1) * bh.hashBlockSize) }
    with hr1
  have hfull : (i + 1) * bh.hashBlockSize ≤ r.allTokenIds.length :=
    (le_div_iff_mul_le bh.hashBlockSize_pos).1 ((succ_le_of_lt hi).trans h.length_le)
  have hnum : r1.numFullBlocks bh = i + 1 := by
    have hlen : r1.numTokens = (i + 1) * bh.hashBlockSize := by
      simp [r1, numTokens, Nat.min_eq_left hfull]
    rw [numFullBlocks, hlen, Nat.mul_div_cancel _ bh.hashBlockSize_pos]
  have hord : FeaturesOrdered r1.mmFeatures := by
    simp [r1, h.text, FeaturesOrdered]
  have hscratch : r.hashFromScratch bh i =
      (chainHashes bh ((List.range (i + 1)).map (blockContent bh r1 0)))[i]? := by
    rw [← hnum, ← requestBlockHasher_of_nil hord]
    rfl
  have hcontents : (List.range (i + 1)).map (blockContent bh r1 0) =
      (List.range (i + 1)).map (blockContent bh r 0) :=
    map_blockContent_congr rfl (by rw [hr1, take_take, min_self])
  rw [hscratch, hcontents, h.hashes, chainHashes, chainHashes,
    getElem?_digests _ _ (by simpa using hi), getElem?_digests _ _ (by simp), ← map_take,
    ← map_take, take_range, take_range, min_self, min_eq_left hi]

/-- A request constructed from text carries the hashes of its tokens. -/
lemma textHashed_of_fromEngineCoreRequest {e : EngineCoreRequest} (htext : e.mmFeatures = [])
    (h : fromEngineCoreRequest (some bh) e = .ok r) : TextHashed bh r := by
  replace htext : r.mmFeatures = [] := by
    obtain ⟨maxTokens, numPromptTokens, status, rfl⟩ := eq_of_fromEngineCoreRequest h
    exact htext
  have hord : FeaturesOrdered r.mmFeatures := by simp [htext, FeaturesOrdered]
  have hhash := blockHashes_of_fromEngineCoreRequest h
  rw [requestBlockHasher_of_nil hord] at hhash
  have hlen : r.blockHashes.length = r.numFullBlocks bh := by
    rw [hhash]
    simp [chainHashes]
  exact ⟨htext, hlen.le, by rw [hlen]; exact hhash⟩

/-- Appending tokens keeps the hashes those of the request's tokens. -/
lemma TextHashed.append (h : TextHashed bh r) (tokenIds : List Token) :
    TextHashed bh (r.appendOutputTokenIds (some bh) tokenIds) := by
  refine TextHashed.updateBlockHashes (h.congr rfl rfl ?_)
  exact take_append_of_le_length h.hashed_le

/-- Continuing a session keeps the hashes those of its tokens, provided no hashed token is
deleted. -/
lemma TextHashed.updateAsSession (h : TextHashed bh r) {update : StreamingUpdate}
    (htext : update.mmFeatures.getD [] = [])
    (hkeep : r.blockHashes.length * bh.hashBlockSize ≤ r.numComputedTokens)
    (hr' : r.updateAsSession (some bh) update = .ok r') : TextHashed bh r' := by
  unfold Request.updateAsSession at hr'
  split at hr'
  · exact absurd hr' (by simp)
  · rename_i promptTokenIds hprompt
    have hkeys : (r.extendSession promptTokenIds update).keyFields = r.keyFields := by
      simp [keyFields, extendSession, htext]
    have hext : TextHashed bh (r.extendSession promptTokenIds update) := by
      refine h.congr hkeys rfl ?_
      -- The hashed tokens are among the kept ones.
      have hfull := h.hashed_le
      simp only [extendSession]
      rw [take_append_of_le_length (by rw [length_take]; omega), take_take, min_eq_left hkeep]
    obtain rfl := Except.ok.inj hr'
    exact hext.updateBlockHashes.congr rfl rfl rfl

/-- One operation that deletes no hashed token keeps the hashes those of the tokens. -/
lemma TextHashed.apply (h : TextHashed bh r) {op : RequestOp} (htext : op.TextOnly)
    (hop : op.KeepsHashedTokens bh r) (hr' : op.apply bh r = .ok r') : TextHashed bh r' := by
  cases op with
  | updateAsSession update => exact h.updateAsSession htext hop hr'
  | appendOutputTokenIds tokenIds =>
    obtain rfl := Except.ok.inj hr'
    exact h.append tokenIds
  | setRunning _ | updateAfterSchedule _ _ | rejectDraftTokens _ | preempt _ =>
    obtain rfl := Except.ok.inj hr'
    exact h.congr rfl rfl rfl

/-- **Block hashes describe the request's own tokens.**  Along every run of a text-only request
in which each continuation of a streaming session finds all hashed tokens computed, every block
hash is the chained hash of the request's current tokens up to the end of its block. -/
theorem blockHashes_describe_tokens {bh : BlockHasher H} {r : Request H}
    (hr : RequestRun bh (fun r op => op.KeepsHashedTokens bh r) r) :
    ∀ i < r.blockHashes.length, r.blockHashes[i]? = r.hashFromScratch bh i := by
  have h : TextHashed bh r := by
    induction hr with
    | construct htext h => exact textHashed_of_fromEngineCoreRequest htext h
    | step _ _ htext hop h ih => exact ih.apply htext hop h
  exact fun i hi => h.eq_hashFromScratch hi

/-- A resumable text request with the given prompt. -/
def sessionSource (prompt : List Token) : EngineCoreRequest :=
  { requestId := "session"
    promptTokenIds := some prompt
    samplingParams := some { maxTokens := 16 }
    resumable := true }

/-- The next piece of input of a session. -/
def sessionUpdate (prompt : List Token) : StreamingUpdate :=
  { mmFeatures := some []
    promptTokenIds := some prompt
    maxTokens := 16
    arrivalTime := 1
    samplingParams := some { maxTokens := 16 } }

/-- A prompt of three tokens fills a block of four with the token sampled after it.  Continuing
the session deletes that token but not the hash of the block. -/
theorem stale_hash_after_session_update :
    ∃ r : Request FreeHash, RequestRun freeHasher (fun _ _ => True) r ∧
      r.allTokenIds = [1, 2, 3, 5] ∧
      r.blockHashes = chainHashes freeHasher [([1, 2, 3, 9], none)] ∧
      ∃ i < r.blockHashes.length, r.blockHashes[i]? ≠ r.hashFromScratch freeHasher i := by
  have h0 : RequestRun freeHasher (fun _ _ => True) _ :=
    .construct (e := sessionSource [1, 2, 3]) rfl rfl
  have h1 := h0.step (.setRunning 0) trivial trivial rfl
  have h2 := h1.step (.updateAfterSchedule 3 none) trivial trivial rfl
  have h3 := h2.step (.appendOutputTokenIds [9]) trivial trivial rfl
  have h4 := h3.step (.updateAsSession (sessionUpdate [5])) rfl trivial rfl
  refine ⟨_, h4, ?_, ?_, 0, ?_, ?_⟩
  all_goals decide +kernel

/-- With a prompt of four tokens the sampled token is in no hashed block, and the session keeps
describing its own tokens when it is continued. -/
theorem blockHashes_describe_tokens_of_session : ∃ r : Request FreeHash,
      RequestRun freeHasher (fun r op => op.KeepsHashedTokens freeHasher r) r ∧
        r.allTokenIds = [1, 2, 3, 4, 5] ∧
        ∀ i < r.blockHashes.length, r.blockHashes[i]? = r.hashFromScratch freeHasher i := by
  have h0 : RequestRun freeHasher (fun r op => op.KeepsHashedTokens freeHasher r) _ :=
    .construct (e := sessionSource [1, 2, 3, 4]) rfl rfl
  have h1 := h0.step (.setRunning 0) trivial trivial rfl
  have h2 := h1.step (.updateAfterSchedule 4 none) trivial trivial rfl
  have h3 := h2.step (.appendOutputTokenIds [9]) trivial trivial rfl
  have h4 := h3.step (.updateAsSession (sessionUpdate [5])) rfl (by show 4 ≤ 4; decide) rfl
  exact ⟨_, h4, by decide +kernel, blockHashes_describe_tokens h4⟩

end Lvllm
