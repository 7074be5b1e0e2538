import Lvllm.Sched.PassSteps
import Lvllm.Sched.Update

/-!
# What the other calls can do

`Scheduler.update_from_output` handles the requests of a step one after another.  `RequestUpdate` says
what may happen to one of them: nothing, since it is gone; its counters go down and its output is
skipped; it gets its tokens and goes on, is finished, or continues its session.  `updateRequest_cases`
says that there is nothing else.  Finishing requests from outside is described by `Finishes`.
-/

namespace Lvllm

open List Request

variable {H K : Type}

variable {s s' : Scheduler H K} {ref : Ref} {status : RequestStatus} {delay : String → Bool}
  {tokens generated : List Token} {isStale stopped : Bool} {r r' : Request H} {n : ℕ}

namespace Scheduler

/-! ## What is left alone -/

/-- Everything but the caches, what waits to be freed and what is reported is the same. -/
structure SameBooks (s s' : Scheduler H K) : Prop where
  config : s'.config = s.config
  objs : s'.objs = s.objs
  nextRef : s'.nextRef = s.nextRef
  requests : s'.requests = s.requests
  running : s'.running = s.running
  waiting : s'.waiting = s.waiting
  skippedWaiting : s'.skippedWaiting = s.skippedWaiting
  streaming : s'.numWaitingForStreamingInput = s.numWaitingForStreamingInput

namespace SameBooks

variable {s s' s'' : Scheduler H K}

lemma refl (s : Scheduler H K) : SameBooks s s := ⟨rfl, rfl, rfl, rfl, rfl, rfl, rfl, rfl⟩

lemma trans (h : SameBooks s s') (h' : SameBooks s' s'') : SameBooks s s'' where
  config := h'.config.trans h.config
  objs := h'.objs.trans h.objs
  nextRef := h'.nextRef.trans h.nextRef
  requests := h'.requests.trans h.requests
  running := h'.running.trans h.running
  waiting := h'.waiting.trans h.waiting
  skippedWaiting := h'.skippedWaiting.trans h.skippedWaiting
  streaming := h'.streaming.trans h.streaming

lemma of_onKv {α : Type} {m : EStateM PyErr K α} {a : α} (h : onKv m s = .ok a s') :
    SameBooks s s' := by
  obtain ⟨k, -, rfl⟩ := onKv_eq_ok.1 h
  exact ⟨rfl, rfl, rfl, rfl, rfl, rfl, rfl, rfl⟩

lemma of_onEncoder {α : Type} {m : EncoderM α} {a : α} (h : onEncoder m s = .ok a s') :
    SameBooks s s' := by
  obtain ⟨e, -, rfl⟩ := onEncoder_eq_ok.1 h
  exact ⟨rfl, rfl, rfl, rfl, rfl, rfl, rfl, rfl⟩

end SameBooks

variable [KvCache H K] {refs : List Ref}

/-! ## Freeing -/

lemma freeRequestBlocks_books (h : freeRequestBlocks ref s = .ok () s') : SameBooks s s' := by
  obtain ⟨k, d, rfl⟩ := freeRequestBlocks_frame h
  exact ⟨rfl, rfl, rfl, rfl, rfl, rfl, rfl, rfl⟩

lemma connectorFinished_books (h : connectorFinished ref s = .ok () s') : SameBooks s s' := by
  rw [connectorFinished, bind_get] at h
  split at h
  · exact .of_onKv h
  · cases h
    exact .refl _

/-- A finished request leaves the table of requests. -/
lemma freeBlocks_eq_ok (h : freeBlocks ref s = .ok () s') :
    (s.objs ref).isFinished = true ∧ ∃ s₁, SameBooks s s₁ ∧
      s' = { s₁ with requests := s.requests.erase (s.objs ref).requestId } := by
  rw [freeBlocks, bind_get] at h
  split at h
  · rename_i hfinished
    obtain ⟨_, s₁, hfree, hthen⟩ := bind_eq_ok.1 h
    have hbooks := freeRequestBlocks_books hfree
    cases hthen
    refine ⟨hfinished, s₁, hbooks, ?_⟩
    dsimp only
    rw [hbooks.objs, hbooks.requests]
  · cases h

omit [KvCache H K] in
/-- Whether or not the request has left the table, nothing else has changed. -/
lemma eq_setRequests {s₁ : Scheduler H K} {requests : Dict String Ref}
    (h : s' = s₁ ∨ s' = { s₁ with requests := requests }) :
    ∃ requests', s' = { s₁ with requests := requests' } := by
  rcases h with rfl | rfl
  · exact ⟨_, rfl⟩
  · exact ⟨_, rfl⟩

/-- `_free_request` frees the blocks of a finished request unless the connector keeps them. -/
lemma freeRequest_eq_ok {delay : Bool} (h : freeRequest ref delay s = .ok () s') :
    ∃ s₁, SameBooks s s₁ ∧
      (s' = s₁ ∨ s' = { s₁ with requests := s.requests.erase (s.objs ref).requestId }) := by
  rw [freeRequest, bind_get] at h
  split at h
  · rw [bind_modify] at h
    obtain ⟨_, s₁, hconnector, h1⟩ := bind_eq_ok.1 h
    obtain ⟨_, s2, hencoder, h2⟩ := bind_eq_ok.1 h1
    have hstart : SameBooks s { s with
        inflightPrefills := s.inflightPrefills.filter (· ≠ ref) } :=
      ⟨rfl, rfl, rfl, rfl, rfl, rfl, rfl, rfl⟩
    have hreport : SameBooks s2 { s2 with
        finishedReqIds := setAdd (s2.objs ref).requestId s2.finishedReqIds } :=
      ⟨rfl, rfl, rfl, rfl, rfl, rfl, rfl, rfl⟩
    have hbooks := ((hstart.trans (connectorFinished_books hconnector)).trans
      (.of_onEncoder hencoder)).trans hreport
    split at h2
    · cases h2
      exact ⟨_, hbooks, .inl rfl⟩
    · obtain ⟨-, s3, hbooks3, rfl⟩ := freeBlocks_eq_ok h2
      refine ⟨s3, hbooks.trans hbooks3, .inr ?_⟩
      rw [hbooks.objs, hbooks.requests]
  · cases h

/-! ## Finishing from outside -/

/-- The requests `refs` are finished with the given status, and nothing else changes. -/
structure Finishes (refs : List Ref) (status : RequestStatus) (s s' : Scheduler H K) : Prop where
  config : s'.config = s.config
  nextRef : s'.nextRef = s.nextRef
  finished : ∀ ref ∈ refs, s'.objs ref = { s.objs ref with status := status }
  others : ∀ ref, ref ∉ refs → s'.objs ref = s.objs ref
  /-- Only finished requests leave the table. -/
  tracked : ∀ reqId ref, s'.requests.get? reqId = some ref → s.requests.get? reqId = some ref
  kept : ∀ reqId ref, s.requests.get? reqId = some ref →
    s'.requests.get? reqId = some ref ∨ ∃ gone ∈ refs, (s.objs gone).requestId = reqId

omit [KvCache H K] in
lemma Finishes.nil (h : SameBooks s s') : Finishes [] status s s' where
  config := h.config
  nextRef := h.nextRef
  finished := nofun
  others ref _ := by rw [h.objs]
  tracked reqId ref hget := h.requests ▸ hget
  kept reqId ref hget := .inl (h.requests ▸ hget)

/-- The queues and the counter of waiting sessions are the same. -/
structure SameLists (s s' : Scheduler H K) : Prop where
  running : s'.running = s.running
  waiting : s'.waiting = s.waiting
  skippedWaiting : s'.skippedWaiting = s.skippedWaiting
  streaming : s'.numWaitingForStreamingInput = s.numWaitingForStreamingInput

omit [KvCache H K] in
lemma setFinished_books (s : Scheduler H K) (ref : Ref) (status : RequestStatus) :
    SameBooks (s.modifyReq ref fun r => { r with status := status }) (s.setFinished ref status) := by
  unfold setFinished
  dsimp only
  split
  · exact ⟨rfl, rfl, rfl, rfl, rfl, rfl, rfl, rfl⟩
  · exact ⟨rfl, rfl, rfl, rfl, rfl, rfl, rfl, rfl⟩

lemma finishOne_eq_ok (h : finishOne delay status ref s = .ok () s') :
    SameLists s s' ∧ Finishes [ref] status s s' := by
  have hset := setFinished_books s ref status
  obtain ⟨s₁, hfree, hs'⟩ := freeRequest_eq_ok h
  have hbooks := hset.trans hfree
  rw [hset.requests, hset.objs, modifyReq_objs_self] at hs'
  obtain ⟨requests', hs1⟩ := eq_setRequests hs'
  have hlists : SameLists s s' := by
    rw [hs1]
    exact { hbooks with }
  have hupdate : s'.objs = Function.update s.objs ref { s.objs ref with status := status } := by
    rw [hs1]
    exact hbooks.objs
  refine ⟨hlists, ?_, ?_, ?_, ?_, ?_, ?_⟩
  · rw [hs1]
    exact hbooks.config
  · rw [hs1]
    exact hbooks.nextRef
  · intro ref' hmem
    rw [mem_singleton.1 hmem, hupdate, Function.update_self]
  · intro ref' hne
    rw [hupdate, Function.update_of_ne (fun heq => hne (mem_singleton.2 heq))]
  · intro reqId ref' hget
    rcases hs' with rfl | rfl
    · exact hbooks.requests ▸ hget
    · exact Dict.get?_of_erase hget
  · intro reqId ref' hget
    rcases hs' with rfl | rfl
    · exact .inl (hbooks.requests ▸ hget)
    · by_cases heq : reqId = (s.objs ref).requestId
      · exact .inr ⟨ref, mem_singleton.2 rfl, heq.symm⟩
      · exact .inl ((Dict.get?_erase_ne _ heq).trans hget)

/-- Finishing some requests one after another. -/
lemma forM_finishOne_eq_ok (hnodup : refs.Nodup)
    (h : refs.forM (finishOne delay status) s = .ok () s') :
    SameLists s s' ∧ Finishes refs status s s' := by
  induction refs generalizing s with
  | nil =>
    cases h
    exact ⟨⟨rfl, rfl, rfl, rfl⟩, .nil (.refl _)⟩
  | cons ref rest ih =>
    obtain ⟨_, s₁, hone, hrest⟩ := bind_eq_ok.1 h
    obtain ⟨hnot, hnodup⟩ := nodup_cons.1 hnodup
    obtain ⟨hlists1, hone⟩ := finishOne_eq_ok hone
    obtain ⟨hlists2, hrest⟩ := ih hnodup hrest
    have hsame : ∀ ref', ref' ≠ ref → s₁.objs ref' = s.objs ref' := fun ref' hne =>
      hone.others ref' fun hmem => hne (mem_singleton.1 hmem)
    refine ⟨⟨hlists2.running.trans hlists1.running, hlists2.waiting.trans hlists1.waiting,
      hlists2.skippedWaiting.trans hlists1.skippedWaiting,
      hlists2.streaming.trans hlists1.streaming⟩, hrest.config.trans hone.config,
      hrest.nextRef.trans hone.nextRef, ?_, ?_, ?_, ?_⟩
    · intro ref' hmem
      rcases mem_cons.1 hmem with rfl | hlater
      · rw [hrest.others _ hnot, hone.finished _ (mem_singleton.2 rfl)]
      · have hne : ref' ≠ ref := by
          rintro rfl
          exact hnot hlater
        rw [hrest.finished ref' hlater, hsame ref' hne]
    · intro ref' hmem
      rw [mem_cons, not_or] at hmem
      rw [hrest.others ref' hmem.2, hsame ref' hmem.1]
    · intro reqId ref' hget
      exact hone.tracked reqId ref' (hrest.tracked reqId ref' hget)
    · intro reqId ref' hget
      rcases hone.kept reqId ref' hget with hget1 | ⟨gone, hgone, hid⟩
      · rcases hrest.kept reqId ref' hget1 with hget2 | ⟨gone, hgone, hid⟩
        · exact .inl hget2
        · have hne : gone ≠ ref := by
            rintro rfl
            exact hnot hgone
          rw [hsame gone hne] at hid
          exact .inr ⟨gone, mem_cons_of_mem _ hgone, hid⟩
      · rw [mem_singleton.1 hgone] at hid
        exact .inr ⟨ref, mem_cons_self, hid⟩

/-- **What `finish_requests` does**: the tracked requests among those named that are not finished
leave the queues and are finished. -/
lemma finishRequests_eq_ok {reqIds : Option (List String)}
    (hnodup : (s.validRequests ((reqIds.map List.dedup).getD s.requests.keys)).Nodup)
    (h : finishRequests delay reqIds status s = .ok refs s') :
    refs = s.validRequests ((reqIds.map List.dedup).getD s.requests.keys) ∧
      status.isFinished = true ∧ SameLists (s.removeFromQueues refs) s' ∧
      Finishes refs status s s' := by
  rw [finishRequests, bind_get] at h
  split at h
  · rename_i hfinished
    rw [bind_modify] at h
    obtain ⟨_, s₁, hloop, hpure⟩ := bind_eq_ok.1 h
    cases hpure
    obtain ⟨hlists, hfinish⟩ := forM_finishOne_eq_ok hnodup hloop
    exact ⟨rfl, hfinished, hlists, { hfinish with }⟩
  · cases h

end Scheduler

/-! ## The output of one request -/

/-- The counters of a request after one of its steps was processed. -/
def Request.drained (r : Request H) (n : ℕ) : Request H :=
  { r with
    numInFlightTokens := r.numInFlightTokens - n
    numStaleOutputTokens :=
      if 0 < r.numStaleOutputTokens then r.numStaleOutputTokens - n else r.numStaleOutputTokens }

/-- A request after the rejected drafts of a step were taken back. -/
def Request.settleDrafts (r : Request H) (numSampled : ℕ) (drafts generated : List Token)
    (isStale : Bool) : Request H :=
  if drafts ≠ [] ∧ (generated ≠ [] ∨ numSampled = 0) ∧ isStale = false then
    r.rejectDraftTokens ((drafts.length : ℤ) - (generated.length - numSampled : ℕ))
  else r

/-- A request with more output. -/
def Request.withOutput (r : Request H) (tokens : List Token) : Request H :=
  { r with
    allTokenIds := r.allTokenIds ++ tokens
    outputTokenIds := r.outputTokenIds ++ tokens }

/-- Whether a request stops on the output of a step: on one of the sampled tokens or, if there are
none, on pooler output or because the model is an encoder only. -/
def Request.stopsOn (c : SchedulerConfig H) (r : Request H) (generated : List Token)
    (poolerOutput : Bool) : Bool :=
  if generated.isEmpty then r.poolingParams.isSome && poolerOutput || c.isMmEncoderOnly
  else (range generated.length).any fun i =>
    stopsNow (r.withOutput (generated.take (i + 1))) c.maxModelLen

/-- Whether a request is a session that goes on once it stops: its next input is not the end. -/
def Request.sessionGoesOn (r : Request H) : Bool :=
  r.resumable && !(r.streamingQueue.getD []).head?.any Option.isNone

lemma Request.stopsOn_of_stopsNow {c : SchedulerConfig H} {r : Request H} {generated tokens : List Token}
    (htake : tokens <+: generated) (hne : tokens ≠ [])
    (hstop : stopsNow (r.withOutput tokens) c.maxModelLen = true) (poolerOutput : Bool) :
    r.stopsOn c generated poolerOutput = true := by
  have hpos := length_pos_iff.2 hne
  have hle := htake.length_le
  have hgenerated : generated ≠ [] := ne_nil_of_length_pos (hpos.trans_le hle)
  rw [stopsOn, if_neg (by simpa using hgenerated), any_eq_true]
  refine ⟨tokens.length - 1, mem_range.2 (by omega), ?_⟩
  rw [Nat.sub_add_cancel hpos, ← prefix_iff_eq_take.1 htake]
  exact hstop

lemma Request.stopsOn_congr {c : SchedulerConfig H} {r r' : Request H}
    (h : r.stopFields = r'.stopFields) (generated : List Token) (poolerOutput : Bool) :
    r.stopsOn c generated poolerOutput = r'.stopsOn c generated poolerOutput := by
  have hstop : ∀ tokens, stopsNow (r.withOutput tokens) c.maxModelLen =
      stopsNow (r'.withOutput tokens) c.maxModelLen := by
    simp only [Prod.mk.injEq] at h
    exact fun tokens => stopsNow_congr (by simp [withOutput, h]) _
  simp only [Prod.mk.injEq] at h
  unfold stopsOn
  simp only [hstop, h.1]

/-- The request `r'` is `r` with the tokens `tokens` of the sampled tokens `generated`; it stops or
not. -/
structure TakesTokens (c : SchedulerConfig H) (generated tokens : List Token) (isStale stopped : Bool)
    (r r' : Request H) : Prop where
  eq : ∃ placeholders hashes status reason resumable, r' = { r with
    allTokenIds := r.allTokenIds ++ tokens
    outputTokenIds := r.outputTokenIds ++ tokens
    numOutputPlaceholders := placeholders
    blockHashes := hashes
    status := status
    stopReason := reason
    resumable := resumable }
  tokens_prefix : tokens <+: generated
  nonempty : generated ≠ [] → tokens ≠ []
  /-- An `AsyncScheduler` takes the placeholders of delivered tokens back. -/
  placeholders : r'.numOutputPlaceholders =
    if generated ≠ [] ∧ c.asyncScheduling = true ∧ isStale = false then
      r.numOutputPlaceholders - tokens.length
    else r.numOutputPlaceholders
  goes_on : stopped = false → tokens = generated ∧ r'.status = r.status ∧ r'.resumable = r.resumable
  stops : stopped = true → r'.isFinished = true

/-- A request that gets no tokens may stop. -/
lemma TakesTokens.nil (c : SchedulerConfig H) (isStale : Bool) (r : Request H)
    (hgoes : stopped = false → status = r.status)
    (hstops : stopped = true → status.isFinished = true) :
    TakesTokens c [] [] isStale stopped r { r with status := status } where
  eq := ⟨r.numOutputPlaceholders, r.blockHashes, status, r.stopReason, r.resumable, by simp⟩
  tokens_prefix := prefix_rfl
  nonempty hne := absurd rfl hne
  placeholders := by simp
  goes_on hfalse := ⟨rfl, hgoes hfalse, rfl⟩
  stops := hstops

/-- A grammar that rejects the tokens stops the request. -/
lemma TakesTokens.grammar {c : SchedulerConfig H}
    (h : TakesTokens c generated tokens isStale stopped r r') (rejected : Bool) :
    TakesTokens c generated tokens isStale (stopped || rejected) r
      (if rejected then { r' with status := .finishedError, resumable := false } else r') := by
  cases rejected with
  | false =>
    rw [Bool.or_false]
    exact h
  | true =>
    obtain ⟨placeholders, hashes, status, reason, resumable, heq⟩ := h.eq
    refine ⟨⟨placeholders, hashes, .finishedError, reason, false, ?_⟩, h.tokens_prefix, h.nonempty,
      h.placeholders, fun hfalse => ?_, fun _ => rfl⟩
    · rw [heq]
      rfl
    · rw [Bool.or_true] at hfalse
      cases hfalse

section Append

variable [DecidableEq H]

/-- Appending one token changes the token lists and the hashes. -/
lemma appendOutputTokenIds_eq (bh : Option (BlockHasher H)) (r : Request H) (tokens : List Token) :
    ∃ hashes, appendOutputTokenIds bh r tokens = { r with
      allTokenIds := r.allTokenIds ++ tokens
      outputTokenIds := r.outputTokenIds ++ tokens
      blockHashes := hashes } := by
  cases bh with
  | none => exact ⟨r.blockHashes, rfl⟩
  | some bh => exact ⟨_, rfl⟩

/-- Appending tokens until one stops the request. -/
lemma appendUntilStop_spec {bh : Option (BlockHasher H)} {maxModelLen : ℕ}
    (h : Scheduler.appendUntilStop bh maxModelLen r generated = .ok (r', tokens, stopped)) :
    (∃ hashes status reason, r' = { r with
      allTokenIds := r.allTokenIds ++ tokens
      outputTokenIds := r.outputTokenIds ++ tokens
      blockHashes := hashes
      status := status
      stopReason := reason }) ∧
    tokens <+: generated ∧ (generated ≠ [] → tokens ≠ []) ∧
    (stopped = false → tokens = generated ∧ r'.status = r.status) ∧
    (stopped = true → r'.isFinished = true ∧ stopsNow (r.withOutput tokens) maxModelLen = true) := by
  induction generated generalizing r tokens with
  | nil =>
    cases h
    refine ⟨⟨r'.blockHashes, r'.status, r'.stopReason, ?_⟩, prefix_rfl,
      fun hne => absurd rfl hne, fun _ => ⟨rfl, rfl⟩, nofun⟩
    simp
  | cons token rest ih =>
    obtain ⟨⟨r1, stopped1⟩, hcheck, hthen⟩ := except_bind_eq_ok.1 h
    obtain ⟨hashes1, happend⟩ := appendOutputTokenIds_eq bh r [token]
    rw [happend] at hcheck
    rcases checkStop_eq_ok hcheck with ⟨rfl, rfl⟩ | ⟨rfl, status, reason, hfinished, rfl⟩
    · obtain ⟨⟨r2, tokens2, stopped2⟩, hrest, hpure⟩ := except_bind_eq_ok.1 hthen
      cases hpure
      obtain ⟨⟨hashes, status, reason, heq⟩, hprefix, -, hgoes, hstops⟩ := ih hrest
      refine ⟨⟨hashes, status, reason, ?_⟩, (prefix_cons_inj token).2 hprefix, ?_, ?_, ?_⟩
      · refine heq.trans ?_
        simp
      · exact fun _ => cons_ne_nil _ _
      · intro hfalse
        obtain ⟨htokens, hstatus⟩ := hgoes hfalse
        exact ⟨congrArg (token :: ·) htokens, hstatus⟩
      · intro htrue
        refine ⟨(hstops htrue).1, (stopsNow_congr ?_ _).trans (hstops htrue).2⟩
        simp [withOutput]
    · cases hthen
      refine ⟨⟨_, status, reason, rfl⟩, ?_, ?_, ?_, fun _ => ⟨hfinished, ?_⟩⟩
      · exact (prefix_cons_inj token).2 nil_prefix
      · exact fun _ => cons_ne_nil _ _
      · exact nofun
      · have hsame : stopsNow (r.withOutput [token]) maxModelLen =
            stopsNow { r.withOutput [token] with blockHashes := hashes1 } maxModelLen :=
          stopsNow_congr (by rfl) _
        rw [hsame, stopsNow]
        exact congrArg (fun result => result.toOption.any Prod.snd) hcheck

end Append

namespace Scheduler

variable [KvCache H K]

section

omit [KvCache H K]

lemma drainStale_eq_ok (h : drainStale ref n s = .ok isStale s') :
    isStale = decide (0 < (s.objs ref).numStaleOutputTokens) ∧
      s' = s.modifyReq ref (·.drained n) := by
  rw [drainStale, bind_modify, bind_get] at h
  rw [modifyReq_objs_self] at h
  split at h
  · rename_i hstale
    rw [bind_modify, bind_get] at h
    obtain ⟨_, s₁, hcheck, hpure⟩ := bind_eq_ok.1 h
    obtain ⟨-, rfl⟩ := check_eq_ok.1 hcheck
    cases hpure
    have hpos : 0 < (s.objs ref).numStaleOutputTokens := hstale
    refine ⟨(decide_eq_true hpos).symm, ?_⟩
    rw [modifyReq_modifyReq]
    simp only [modifyReq, drained, if_pos hpos]
  · rename_i hstale
    cases h
    have hneg : ¬ 0 < (s.objs ref).numStaleOutputTokens := hstale
    refine ⟨(decide_eq_false hneg).symm, ?_⟩
    simp only [modifyReq, drained, if_neg hneg]

/-- Writing a request object back changes nothing. -/
lemma modifyReq_id (s : Scheduler H K) (ref : Ref) : s.modifyReq ref (fun r => r) = s := by
  simp only [modifyReq]
  rw [Function.update_eq_self]

lemma rejectDrafts_eq (s : Scheduler H K) (ref : Ref) (drafts generated : List Token)
    (isStale : Bool) :
    s.rejectDrafts ref drafts generated isStale =
      s.modifyReq ref (·.settleDrafts s.config.numSampledTokensPerStep drafts generated isStale) := by
  unfold rejectDrafts settleDrafts
  dsimp only
  split
  · rfl
  · exact (modifyReq_id s ref).symm

lemma freePassedInputs_books (h : freePassedInputs ref s = .ok () s') : SameBooks s s' := by
  rw [freePassedInputs, bind_get] at h
  split at h
  · rw [freeEncoderInputs, bind_get] at h
    obtain ⟨inputs, s₁, hinputs, hthen⟩ := bind_eq_ok.1 h
    obtain ⟨-, rfl⟩ := liftPy_eq_ok.1 hinputs
    exact .of_onEncoder hthen
  · cases h
    exact .refl _

end

/-- A change of one request object, with the caches changed besides. -/
structure SetsRequest (ref : Ref) (r : Request H) (s s' : Scheduler H K) : Prop where
  books : SameBooks (s.modifyReq ref fun _ => r) s'

section

omit [KvCache H K]

lemma SetsRequest.objs (h : SetsRequest ref r s s') : s'.objs = Function.update s.objs ref r :=
  h.books.objs

/-- Two changes of one request object are the last one. -/
lemma SetsRequest.trans {s'' : Scheduler H K} (h : SetsRequest ref r s s')
    (h' : SetsRequest ref r' s' s'') : SetsRequest ref r' s s'' := by
  have hset : SameBooks ((s.modifyReq ref fun _ => r).modifyReq ref fun _ => r')
      (s'.modifyReq ref fun _ => r') := by
    refine { h.books with objs := ?_ }
    simp only [modifyReq, h.objs]
  rw [modifyReq_modifyReq] at hset
  exact ⟨hset.trans h'.books⟩

lemma SetsRequest.of_modifyReq (s : Scheduler H K) (ref : Ref) (f : Request H → Request H) :
    SetsRequest ref (f (s.objs ref)) s (s.modifyReq ref f) := ⟨.refl _⟩

lemma SetsRequest.of_books (h : SameBooks s s') (ref : Ref) :
    SetsRequest ref (s.objs ref) s s' := by
  refine ⟨?_⟩
  rw [show (s.modifyReq ref fun _ => s.objs ref) = s from modifyReq_id s ref]
  exact h

end

variable [DecidableEq H] {out : SchedulerOutput} {mro : ModelRunnerOutput} {reqId : String}

omit [KvCache H K] [DecidableEq H] in
/-- Delivered tokens of a live step give their placeholders back. -/
lemma releasePlaceholders_eq_ok (h : releasePlaceholders ref n isStale s = .ok () s') :
    s' = s.modifyReq ref fun r =>
      { r with numOutputPlaceholders :=
        if isStale = false then r.numOutputPlaceholders - n else r.numOutputPlaceholders } := by
  rw [releasePlaceholders] at h
  cases isStale with
  | true =>
    cases h
    exact (modifyReq_id s ref).symm
  | false =>
    obtain ⟨-, rfl⟩ := check_eq_ok.1 h
    rfl

omit [DecidableEq H] in
lemma cacheNewTokens_books (h : cacheNewTokens ref status s = .ok () s') : SameBooks s s' := by
  rw [cacheNewTokens, bind_get] at h
  split at h
  · exact .of_onKv h
  · cases h
    exact .refl _

/-- `_update_request_with_output` gives the request its tokens. -/
lemma updateRequestWithOutput_eq_ok (hne : generated ≠ [])
    (h : updateRequestWithOutput ref generated isStale s = .ok (tokens, stopped) s') :
    ∃ r', TakesTokens s.config generated tokens isStale stopped (s.objs ref) r' ∧
      r'.resumable = (s.objs ref).resumable ∧
      (stopped = true → stopsNow ((s.objs ref).withOutput tokens) s.config.maxModelLen = true) ∧
      SetsRequest ref r' s s' := by
  rw [updateRequestWithOutput, bind_get] at h
  dsimp only at h
  obtain ⟨⟨r, tokens', stopped'⟩, s₁, happend, hthen⟩ := bind_eq_ok.1 h
  obtain ⟨happend, rfl⟩ := liftPy_eq_ok.1 happend
  obtain ⟨⟨hashes, status, reason, hr⟩, hprefix, hnonempty, hgoes, hstops⟩ :=
    appendUntilStop_spec happend
  rw [bind_modify] at hthen
  split at hthen
  · rename_i hmode
    obtain ⟨_, s2, hrelease, hthen1⟩ := bind_eq_ok.1 hthen
    obtain ⟨_, s3, hcache, hpure⟩ := bind_eq_ok.1 hthen1
    cases hpure
    have hs2 := releasePlaceholders_eq_ok hrelease
    rw [modifyReq_modifyReq] at hs2
    subst hs2
    refine ⟨_, ?_, by rw [hr], fun htrue => (hstops htrue).2, ⟨cacheNewTokens_books hcache⟩⟩
    rw [hr]
    refine ⟨⟨_, hashes, status, reason, _, rfl⟩, hprefix, hnonempty, ?_, ?_, ?_⟩
    · cases isStale with
      | true => simp
      | false => simp [hne, hmode]
    · intro hfalse
      obtain ⟨htokens, hstatus⟩ := hgoes hfalse
      rw [hr] at hstatus
      exact ⟨htokens, hstatus, rfl⟩
    · intro htrue
      have hfinished := (hstops htrue).1
      rw [hr] at hfinished
      exact hfinished
  · rename_i hmode
    cases hthen
    refine ⟨r, ⟨⟨_, hashes, status, reason, _, hr⟩, hprefix, hnonempty, ?_, ?_,
      fun htrue => (hstops htrue).1⟩, by rw [hr], fun htrue => (hstops htrue).2, ⟨.refl _⟩⟩
    · rw [if_neg fun hcase => hmode hcase.2.1, hr]
    · intro hfalse
      obtain ⟨htokens, hstatus⟩ := hgoes hfalse
      refine ⟨htokens, hstatus, ?_⟩
      rw [hr]

/-- Checking for a stop gives the request its tokens, if there are any. -/
lemma applyOutput_eq_ok {pooler : Bool}
    (h : applyOutput ref generated pooler isStale s = .ok (tokens, stopped) s') :
    ∃ r', TakesTokens s.config generated tokens isStale stopped (s.objs ref) r' ∧
      r'.resumable = (s.objs ref).resumable ∧
      (stopped = true → (s.objs ref).stopsOn s.config generated pooler = true) ∧
      SetsRequest ref r' s s' := by
  rw [applyOutput] at h
  split at h
  · rename_i hempty
    obtain rfl := List.isEmpty_iff.1 hempty
    rw [stopWithoutTokens, bind_get] at h
    split at h
    · rename_i hstop
      cases h
      have htakes : TakesTokens s.config [] [] isStale true (s.objs ref)
          { s.objs ref with status := .finishedStopped } := .nil _ _ _ nofun fun _ => rfl
      refine ⟨_, htakes, rfl, fun _ => ?_, ⟨.refl _⟩⟩
      rcases hstop with hpooler | hencoder
      · simp [stopsOn, hpooler]
      · simp [stopsOn, hencoder]
    · cases h
      exact ⟨_, .nil s.config isStale (s.objs ref) (fun _ => rfl) nofun, rfl, nofun,
        .of_books (.refl s) ref⟩
  · rename_i hne
    have hgenerated : generated ≠ [] := fun heq => hne (List.isEmpty_iff.2 heq)
    obtain ⟨r', htakes, hresumable, hstop, hset⟩ := updateRequestWithOutput_eq_ok hgenerated h
    exact ⟨r', htakes, hresumable, fun htrue =>
      stopsOn_of_stopsNow htakes.tokens_prefix (htakes.nonempty hgenerated) (hstop htrue) pooler, hset⟩

omit [KvCache H K] [DecidableEq H] in
lemma applyGrammar_eq (s : Scheduler H K) (ref : Ref) (rejected : Bool) :
    s.applyGrammar ref rejected = s.modifyReq ref fun r =>
      if rejected then { r with status := .finishedError, resumable := false } else r := by
  cases rejected with
  | false => exact (modifyReq_id s ref).symm
  | true => rfl

/-! ## Stops -/

/-- What happens to a stopped request: it is finished, its session goes on with the next input, or
waits for it. -/
inductive StopHandled (ref : Ref) (s : Scheduler H K) : Scheduler H K → Prop
  | finished {r' : Request H} {s₁ s' : Scheduler H K}
      (hr : ∃ queue, r' = { s.objs ref with streamingQueue := queue })
      (hset : SetsRequest ref r' s s₁)
      (h : s' = s₁ ∨ s' = { s₁ with requests := s.requests.erase (s.objs ref).requestId }) :
      StopHandled ref s s'
  | continued {update : StreamingUpdate} {rest : List (Option StreamingUpdate)} {r' : Request H}
      (hresumable : (s.objs ref).resumable = true)
      (hqueue : (s.objs ref).streamingQueue.getD [] = some update :: rest)
      (h : Request.updateAsSession s.config.blockHasher
        { s.objs ref with streamingQueue := some rest } update = .ok r') :
      StopHandled ref s ((s.modifyReq ref fun _ => r').enqueueWaitingRequest ref)
  | waits (hresumable : (s.objs ref).resumable = true)
      (hqueue : (s.objs ref).streamingQueue.getD [] = []) :
      StopHandled ref s
        (enqueueWaitingRequest
          { s.modifyReq ref fun r => { r with status := .waitingForStreamingReq } with
            numWaitingForStreamingInput := s.numWaitingForStreamingInput + 1 } ref)

/-- A stopped request is freed, unless its session goes on. -/
lemma settleStopped_eq_ok (hfinished : (s.objs ref).isFinished = true)
    (h : settleStopped ref delay s = .ok () s') :
    StopHandled ref s s' := by
  have hfree : ∀ (queue : Option (List (Option StreamingUpdate))) (s₁ : Scheduler H K)
      (delay : Bool), s₁ = (s.modifyReq ref fun r => { r with streamingQueue := queue }) →
      freeRequest ref delay s₁ = .ok () s' → StopHandled ref s s' := by
    intro queue s₁ delay hs1 hfree
    obtain ⟨s2, hbooks, hs'⟩ := freeRequest_eq_ok hfree
    rw [hs1] at hbooks
    rw [hs1, modifyReq_objs_self] at hs'
    have hset : SetsRequest ref { s.objs ref with streamingQueue := queue } s s2 := ⟨hbooks⟩
    exact .finished ⟨queue, rfl⟩ hset hs'
  obtain ⟨done, s₁, hhandle, hthen⟩ := bind_eq_ok.1 h
  rw [handleStoppedRequest, bind_get] at hhandle
  split at hhandle
  · rename_i hresumable
    rcases hqueue : (s.objs ref).streamingQueue.getD [] with _ | ⟨_ | update, rest⟩
    · rw [hqueue] at hhandle
      cases hhandle
      cases hthen
      exact .waits hresumable hqueue
    · rw [hqueue] at hhandle
      cases hhandle
      exact hfree _ _ _ rfl hthen
    · rw [hqueue] at hhandle
      dsimp only at hhandle
      rw [bind_modify] at hhandle
      obtain ⟨_, s2, hupdate, hrest⟩ := bind_eq_ok.1 hhandle
      cases hrest
      cases hthen
      rw [updateRequestAsSession, bind_get] at hupdate
      obtain ⟨updated, s3, hlift, hmodify⟩ := bind_eq_ok.1 hupdate
      obtain ⟨hsession, rfl⟩ := liftPy_eq_ok.1 hlift
      rw [modifyReq_objs_self] at hsession
      rw [modify_apply] at hmodify
      have hstreaming : ((s.modifyReq ref fun r =>
          { r with streamingQueue := some rest }).objs ref).status ≠ .waitingForStreamingReq := by
        rw [modifyReq_objs_self]
        intro hstatus
        have hstatus' : (s.objs ref).status = .waitingForStreamingReq := hstatus
        rw [isFinished, hstatus'] at hfinished
        cases hfinished
      have hs2 : s2 = s.modifyReq ref fun _ => updated := by
        cases hmodify
        rw [if_neg hstreaming, modifyReq_modifyReq]
        rfl
      rw [hs2]
      exact .continued hresumable hqueue hsession
  · cases hhandle
    exact hfree (s.objs ref).streamingQueue _ _ (modifyReq_id s ref).symm hthen

/-! ## One request of a step -/

/-- Whether the next output of a request is stale. -/
def isStaleOutput (r : Request H) : Bool := decide (0 < r.numStaleOutputTokens)

/-- A request behind the counters and the rejected drafts of a step. -/
def countedDown (c : SchedulerConfig H) (out : SchedulerOutput) (reqId : String) (n : ℕ)
    (generated : List Token) (r : Request H) : Request H :=
  (r.drained n).settleDrafts c.numSampledTokensPerStep
    ((out.scheduledSpecDecodeTokens.get? reqId).getD []) generated (isStaleOutput r)

/-- What `update_from_output` does to one request of a step. -/
inductive RequestUpdate (out : SchedulerOutput) (mro : ModelRunnerOutput) (failed : List String)
    (reqId : String) (n : ℕ) (s : Scheduler H K) : Option Processed → Scheduler H K → Prop
  /-- The request is gone. -/
  | untracked (h : s.requests.get? reqId = none) : RequestUpdate out mro failed reqId n s none s
  /-- Its output is skipped. -/
  | skipped {ref : Ref} (href : s.requests.get? reqId = some ref)
      (hskip : reqId ∈ failed ∨ (s.objs ref).isFinished = true ∨
        isStaleOutput (s.objs ref) = true ∧ (s.objs ref).dropStaleOutput = true) :
      RequestUpdate out mro failed reqId n s none (s.modifyReq ref (·.drained n))
  /-- It gets its tokens and goes on. -/
  | goesOn {ref : Ref} {generated : List Token} {r' : Request H} {s' : Scheduler H K} {x : Processed}
      (href : s.requests.get? reqId = some ref) (hlive : reqId ∉ failed)
      (hunfinished : (s.objs ref).isFinished = false)
      (hdelivered : isStaleOutput (s.objs ref) = true → (s.objs ref).dropStaleOutput = false)
      (hgenerated : mro.sampledTokenIds reqId = some generated)
      (htakes : TakesTokens s.config generated generated (isStaleOutput (s.objs ref)) false
        (countedDown s.config out reqId n generated (s.objs ref)) r')
      (hset : SetsRequest ref r' s s') (hstopped : x.stopped = false) :
      RequestUpdate out mro failed reqId n s (some x) s'
  /-- It gets some of its tokens and stops. -/
  | stops {ref : Ref} {generated tokens : List Token} {r' : Request H} {s₁ s' : Scheduler H K}
      {x : Processed} (href : s.requests.get? reqId = some ref) (hlive : reqId ∉ failed)
      (hunfinished : (s.objs ref).isFinished = false)
      (hdelivered : isStaleOutput (s.objs ref) = true → (s.objs ref).dropStaleOutput = false)
      (hgenerated : mro.sampledTokenIds reqId = some generated)
      (htakes : TakesTokens s.config generated tokens (isStaleOutput (s.objs ref)) true
        (countedDown s.config out reqId n generated (s.objs ref)) r')
      (hstops : r'.resumable = true → (s.objs ref).resumable = true ∧
        (s.objs ref).stopsOn s.config generated (mro.poolerOutput reqId) = true)
      (hset : SetsRequest ref r' s s₁) (hhandled : StopHandled ref s₁ s')
      (hx : x.ref = ref ∧ x.stopped = true ∧ x.statusBeforeStop = (s.objs ref).status) :
      RequestUpdate out mro failed reqId n s (some x) s'

section

omit [KvCache H K] [DecidableEq H]

lemma status_countedDown (c : SchedulerConfig H) (out : SchedulerOutput) (reqId : String) (n : ℕ)
    (generated : List Token) (r : Request H) :
    (countedDown c out reqId n generated r).status = r.status := by
  unfold countedDown settleDrafts
  split
  · rfl
  · rfl

lemma SetsRequest.config (h : SetsRequest ref r s s') : s'.config = s.config := h.books.config

lemma SetsRequest.self (h : SetsRequest ref r s s') : s'.objs ref = r := by
  rw [h.objs, Function.update_self]

end

omit [KvCache H K] [DecidableEq H] in
lemma settleDrafts_frame (r : Request H) (numSampled : ℕ) (drafts generated : List Token)
    (isStale : Bool) :
    (r.settleDrafts numSampled drafts generated isStale).resumable = r.resumable ∧
      (r.settleDrafts numSampled drafts generated isStale).stopFields = r.stopFields := by
  unfold settleDrafts
  split
  · exact ⟨rfl, rfl⟩
  · exact ⟨rfl, rfl⟩

/-- The request gets its tokens, and a stop is handled. -/
lemma processOutput_eq_ok
    {x : Processed} (h : processOutput out mro reqId ref generated isStale s = .ok x s') :
    ∃ tokens r' s₁, TakesTokens s.config generated tokens isStale x.stopped
        ((s.objs ref).settleDrafts s.config.numSampledTokensPerStep
          ((out.scheduledSpecDecodeTokens.get? reqId).getD []) generated isStale) r' ∧
      (x.stopped = true → r'.resumable = true → (s.objs ref).resumable = true ∧
        (s.objs ref).stopsOn s.config generated (mro.poolerOutput reqId) = true) ∧
      SetsRequest ref r' s s₁ ∧
      (x.stopped = false ∧ s' = s₁ ∨ x.stopped = true ∧ StopHandled ref s₁ s' ∧ x.ref = ref ∧
        x.statusBeforeStop = (s.objs ref).status) := by
  rw [processOutput, bind_modify, rejectDrafts_eq] at h
  set d := (s.objs ref).settleDrafts s.config.numSampledTokensPerStep
    ((out.scheduledSpecDecodeTokens.get? reqId).getD []) generated isStale with hd
  have hsettle : SetsRequest ref d s (s.modifyReq ref (·.settleDrafts
      s.config.numSampledTokensPerStep ((out.scheduledSpecDecodeTokens.get? reqId).getD []) generated
        isStale)) := by
    rw [hd]
    exact .of_modifyReq s ref _
  obtain ⟨_, s₁, hinputs, h1⟩ := bind_eq_ok.1 h
  have hset1 := hsettle.trans (.of_books (freePassedInputs_books hinputs) ref)
  rw [hsettle.self] at hset1
  rw [bind_get] at h1
  obtain ⟨⟨tokens, stopped⟩, s2, happly, h2⟩ := bind_eq_ok.1 h1
  obtain ⟨r2, htakes, hresumable, hstopsOn, hset2⟩ := applyOutput_eq_ok happly
  rw [hset1.config, hset1.self] at htakes hstopsOn
  rw [hset1.self] at hresumable
  obtain ⟨hdresumable, hdsame⟩ := settleDrafts_frame (s.objs ref) s.config.numSampledTokensPerStep
    ((out.scheduledSpecDecodeTokens.get? reqId).getD []) generated isStale
  rw [← hd] at hdresumable hdsame
  have hstatus : (s₁.objs ref).status = (s.objs ref).status := by
    rw [hset1.self, hd, settleDrafts]
    split
    · rfl
    · rfl
  dsimp only at h2
  rw [bind_modify, applyGrammar_eq, bind_get] at h2
  set rejected := !tokens.isEmpty && !mro.grammarAccepts reqId tokens
  have hset3 := (hset1.trans hset2).trans (.of_modifyReq s2 ref fun r =>
    if rejected then { r with status := .finishedError, resumable := false } else r)
  rw [hset2.self] at hset3
  have htakes3 := htakes.grammar rejected
  split at h2
  · rename_i hstop
    obtain ⟨_, s3, hhandle, hpure⟩ := bind_eq_ok.1 h2
    cases hpure
    rw [hstop] at htakes3
    refine ⟨tokens, _, _, htakes3, fun _ => ?_, hset3,
      .inr ⟨rfl, settleStopped_eq_ok ?_ hhandle, rfl, hstatus⟩⟩
    · cases hrejected : rejected with
      | true => exact fun hresumed => absurd hresumed Bool.false_ne_true
      | false =>
        rw [hrejected, Bool.or_false] at hstop
        exact fun htrue => ⟨(hresumable.trans hdresumable).symm.trans htrue,
          (stopsOn_congr hdsame _ _).symm.trans (hstopsOn hstop)⟩
    · rw [hset3.self]
      exact htakes3.stops rfl
  · rename_i hstop
    cases h2
    rw [Bool.eq_false_of_not_eq_true hstop] at htakes3
    exact ⟨tokens, _, _, htakes3, fun hstopped => absurd hstopped Bool.false_ne_true, hset3,
      .inl ⟨rfl, rfl⟩⟩

/-- **One round of the loop of `update_from_output`.** -/
lemma updateRequest_cases {failed : List String} {res : Option Processed}
    (h : updateRequest out mro failed reqId n s = .ok res s') :
    RequestUpdate out mro failed reqId n s res s' := by
  obtain ⟨_, s0, hcheck, h1⟩ := bind_eq_ok.1 h
  obtain ⟨-, rfl⟩ := check_eq_ok.1 hcheck
  rw [bind_get] at h1
  cases href : s0.requests.get? reqId with
  | none =>
    rw [href] at h1
    cases h1
    exact .untracked href
  | some ref =>
    rw [href] at h1
    obtain ⟨isStale, s₁, hdrain, h2⟩ := bind_eq_ok.1 h1
    obtain ⟨hstale, rfl⟩ := drainStale_eq_ok hdrain
    have hisStale : isStaleOutput (s0.objs ref) = isStale := hstale.symm
    rw [bind_get, modifyReq_objs_self] at h2
    split at h2
    · rename_i hskip
      cases h2
      refine .skipped href ?_
      rw [hisStale]
      exact hskip
    · rename_i hskip
      rw [not_or, not_or] at hskip
      obtain ⟨hlive, hunfinished, hdropped⟩ := hskip
      have hunfinished' : (s0.objs ref).isFinished = false := Bool.eq_false_of_not_eq_true hunfinished
      have hdelivered : isStaleOutput (s0.objs ref) = true →
          (s0.objs ref).dropStaleOutput = false := by
        intro htrue
        rw [hisStale] at htrue
        exact Bool.eq_false_of_not_eq_true fun hdrop => hdropped ⟨htrue, hdrop⟩
      cases hgenerated : mro.sampledTokenIds reqId with
      | none =>
        rw [hgenerated] at h2
        cases h2
      | some generated =>
        rw [hgenerated] at h2
        obtain ⟨x, s2, hprocess, hpure⟩ := bind_eq_ok.1 h2
        cases hpure
        obtain ⟨tokens, r', s₁, htakes, hstops, hset, hcase⟩ := processOutput_eq_ok hprocess
        rw [modifyReq_objs_self, ← hisStale] at htakes
        have hset' := (SetsRequest.of_modifyReq s0 ref (·.drained n)).trans hset
        rcases hcase with ⟨hgoes, rfl⟩ | ⟨hstop, hhandled, hx, hstatus⟩
        · rw [hgoes] at htakes
          obtain rfl := (htakes.goes_on rfl).1
          exact .goesOn href hlive hunfinished' hdelivered hgenerated htakes hset' hgoes
        · rw [hstop] at htakes
          rw [modifyReq_objs_self] at hstops
          refine .stops href hlive hunfinished' hdelivered hgenerated htakes (fun htrue =>
            ⟨(hstops hstop htrue).1, (stopsOn_congr (by rfl) _ _).trans (hstops hstop htrue).2⟩) hset'
            hhandled ⟨hx, hstop, ?_⟩
          rw [hstatus, modifyReq_objs_self]
          rfl

end Scheduler

end Lvllm
