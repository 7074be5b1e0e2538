import Lvllm.Sched.Admission

/-!
# The end of `Scheduler.schedule`

After the two loops the call checks its constraints, collects the output for the workers and
advances the counters of the scheduled requests.  An `AsyncScheduler` also reserves placeholders for
the tokens that the step will sample.
-/

namespace Lvllm

namespace Scheduler

variable {H K : Type}

/-- Raise unless an assertion holds. -/
def check {σ : Type} (b : Bool) (site : AssertionSite) : EStateM SchedErr σ Unit :=
  if b then pure () else throw (.assertion site)

lemma check_eq_ok {σ : Type} {b : Bool} {site : AssertionSite} {s s' : σ} {u : Unit} :
    check b site s = .ok u s' ↔ b = true ∧ s' = s := by
  cases b with
  | false => simp [check]
  | true =>
    constructor
    · intro h
      cases h
      exact ⟨rfl, rfl⟩
    · rintro ⟨-, rfl⟩
      rfl

/-- Run a pass from given variables. -/
def runPass {α : Type} (m : PassM H K α) (p : Pass) : SchedM H K (α × Pass) := fun s =>
  match m (s, p) with
  | .ok a (s', p') => .ok (a, p') s'
  | .error e (s', _) => .error e s'

lemma runPass_eq_ok {α : Type} {m : PassM H K α} {p p' : Pass} {s s' : Scheduler H K} {a : α} :
    runPass m p s = .ok (a, p') s' ↔ m (s, p) = .ok a (s', p') := by
  unfold runPass
  cases m (s, p) with
  | ok b x =>
    constructor
    · intro h
      cases h
      rfl
    · intro h
      cases h
      rfl
  | error e x =>
    simp

/-! ## The passes -/

/-- The variables at the start of a call. -/
def initialPass (s : Scheduler H K) (inp : ScheduleInput H) : Pass :=
  { tokenBudget := if s.pauseState = .pausedAll then 0 else s.config.maxNumScheduledTokens
    inputBudget := s.config.maxNumBatchedTokens
    encoderComputeBudget := s.config.maxNumEncoderInputTokens
    deferPrefills := inp.throttlePrefills && !s.prefillCapacityBound &&
      s.running.any fun ref => !(s.objs ref).isPrefillChunk }

/-- The LoRA adapters of the scheduled running requests. -/
def lorasOf (s : Scheduler H K) (refs : List Ref) : List ℤ :=
  refs.foldl (fun loras ref =>
    match (s.objs ref).loraRequest with
    | some lora => if 0 < lora.loraIntId then setAdd lora.loraIntId loras else loras
    | none => loras) []

/-- Record the LoRA adapters of the scheduled running requests. -/
def recordLoras : PassM H K Unit := do
  let (s, p) ← get
  match s.config.maxLoras with
  | none => pure ()
  | some maxLoras =>
    let loras := s.lorasOf p.scheduledRunningReqs
    check (decide (loras.length ≤ maxLoras)) .maxLoras
    set (s, { p with scheduledLoras := loras })

variable [KvCache H K]

/-- The two loops of `schedule`. -/
def passes (inp : ScheduleInput H) : PassM H K Unit := do
  let (s, _) ← get
  runningLoop s.running.length
  recordLoras
  scheduleWaitingRequests inp

/-- The start of a step. -/
def startStep (s : Scheduler H K) : Scheduler H K :=
  { s with currentStep := s.currentStep + 1, kv := KvCache.newStepStarts s.kv }

/-- The part of `schedule` up to the closing assertions. -/
def schedulePass (inp : ScheduleInput H) : SchedM H K Pass := do
  modify startStep
  let s ← get
  let (_, p) ← runPass (passes inp) (s.initialPass inp)
  pure p

/-! ## Output -/

/-- The closing assertions of `schedule`. -/
def checkPass (p : Pass) : SchedM H K Unit := do
  let s ← get
  check (decide (p.numScheduledTokens.sum id ≤ s.config.maxNumScheduledTokens))
    .totalLeMaxScheduled
  check (decide (0 ≤ p.tokenBudget)) .tokenBudgetNonneg
  check (decide (0 ≤ p.inputBudget)) .inputBudgetNonneg
  check (decide (s.running.length ≤ s.config.maxNumRunningReqs)) .runningLeMax
  check (decide (p.scheduledNewReqs.length + p.scheduledResumedReqs.length +
    p.scheduledRunningReqs.length ≤ s.running.length)) .scheduledLeRunning

/-- `NewRequestData.from_request`; the second model runner gets all tokens. -/
def newRequestData (s : Scheduler H K) (p : Pass) (ref : Ref) : NewRequestData :=
  let r := s.objs ref
  { reqId := r.requestId
    blockIds := (p.reqToNewBlocks.get? r.requestId).getD []
    numComputedTokens := r.numComputedTokens
    prefillTokenIds := if s.config.useV2ModelRunner then some r.allTokenIds else none }

/-- The tokens that a pipeline without asynchronous scheduling sends back to the first stage. -/
def newTokenIdsOf (p : Pass) (r : Request H) : List Token :=
  let numTokens := (p.numScheduledTokens.get? r.requestId).getD 0 -
    ((p.scheduledSpecDecodeTokens.get? r.requestId).getD []).length
  (r.allTokenIds.drop r.numComputedTokens).take numTokens

/-- `get_block_ids(allow_none=True)`. -/
def blockIdsOrNone (blocks : List (List ℕ)) : Option (List (List ℕ)) :=
  if blocks.all List.isEmpty then none else some blocks

/-- `_make_cached_request_data`. -/
def makeCachedRequestData (s : Scheduler H K) (p : Pass) (runningReqs resumedReqs : List Ref) :
    CachedRequestData :=
  let reqs := (runningReqs ++ resumedReqs).map s.objs
  { reqIds := reqs.map (·.requestId)
    resumedReqIds := resumedReqs.map fun ref => (s.objs ref).requestId
    newTokenIds :=
      if s.config.usePp && !s.config.asyncScheduling then reqs.map (newTokenIdsOf p) else []
    allTokenIds :=
      if s.config.useV2ModelRunner then []
      else (reqs.filter fun r => decide (r.requestId ∉ s.prevStepScheduledReqIds)).map
        fun r => (r.requestId, r.allTokenIds)
    newBlockIds := reqs.map fun r => blockIdsOrNone ((p.reqToNewBlocks.get? r.requestId).getD [])
    numComputedTokens := reqs.map (·.numComputedTokens)
    numOutputTokens := reqs.map fun r => r.numOutputTokens + r.numOutputPlaceholders }

/-- `get_num_common_prefix_blocks` of the first running request; without one the list of zeros is
left empty. -/
def commonPrefixBlocks : SchedM H K (List ℕ) := do
  let s ← get
  match s.running with
  | [] => pure []
  | ref :: _ => onKv (KvCache.getNumCommonPrefixBlocks (s.objs ref).requestId)

/-- `_free_cow_retained_blocks`. -/
def freeCowRetainedBlocks (blocks : List ℕ) (fenceSeq : ℕ) : SchedM H K Unit := do
  let s ← get
  if s.config.deferBlockFree = false ∨ fenceSeq ≤ s.processedStepSeq then
    onKv (KvCache.freeBlocks blocks)
  else modify fun s => { s with deferredFrees := s.deferredFrees ++ [(fenceSeq, blocks.reverse)] }

/-- Take the copies that the step makes.  What they retain is freed once a step from this one on is
processed. -/
def takeCopies : SchedM H K (List (ℕ × ℕ)) := do
  let (copies, retained) ← onKv KvCache.takeKvCacheBlockCopies
  if copies.isEmpty then pure copies
  else
    freeCowRetainedBlocks retained ((← get).schedStepSeq + 1)
    pure copies

/-- The number of draft tokens of the next step. -/
def numSpecTokensToSchedule (s : Scheduler H K) (p : Pass) : Except PyErr ℕ :=
  match s.config.dynamicSdLookup with
  | none => .ok s.config.numSpecTokens
  | some lookup =>
    if p.numScheduledTokens.size = 0 then .ok s.config.numSpecTokens
    else
      match lookup[p.numScheduledTokens.size]? with
      | none => .error .indexError
      | some n => .ok n

/-- The bookkeeping of the first model runner about the requests of the last step. -/
def recordScheduled (s : Scheduler H K) (p : Pass) : Scheduler H K :=
  if s.config.useV2ModelRunner then s
  else { s with prevStepScheduledReqIds := p.numScheduledTokens.keys }

/-- Build the output of the call. -/
def makeOutput (p : Pass) : SchedM H K SchedulerOutput := do
  checkPass p
  let numCommonPrefixBlocks ← commonPrefixBlocks
  let s ← get
  let (newReqs, resumedReqs) :=
    if s.config.useV2ModelRunner then (p.scheduledNewReqs ++ p.scheduledResumedReqs, [])
    else (p.scheduledNewReqs, p.scheduledResumedReqs)
  let newReqsData := newReqs.map (s.newRequestData p)
  let cachedReqsData := s.makeCachedRequestData p p.scheduledRunningReqs resumedReqs
  modify fun s => s.recordScheduled p
  let copies ← takeCopies
  let numSpec ← liftPy (s.numSpecTokensToSchedule p)
  let freeHashes ← onEncoder EncoderCacheManager.getFreedMmHashes
  let _ ← onKv KvCache.takeNewBlockIds
  pure {
    scheduledNewReqs := newReqsData
    scheduledCachedReqs := cachedReqsData
    numScheduledTokens := p.numScheduledTokens
    totalNumScheduledTokens := p.numScheduledTokens.sum id
    scheduledSpecDecodeTokens := p.scheduledSpecDecodeTokens
    scheduledEncoderInputs := p.scheduledEncoderInputs
    numCommonPrefixBlocks := numCommonPrefixBlocks
    preemptedReqIds := s.resetPreemptedReqIds
    finishedReqIds := s.finishedReqIds
    freeEncoderMmHashes := freeHashes
    hasSyncKvLoads := p.hasSyncKvLoads
    kvCacheBlockCopies := copies
    numSpecTokensToSchedule := numSpec }

/-! ## Counters -/

/-- `self.requests[req_id]`. -/
def requestRef (s : Scheduler H K) (reqId : String) : Except PyErr Ref :=
  match s.requests.get? reqId with
  | none => .error .keyError
  | some ref => .ok ref

/-- Advance one scheduled request. -/
def advance (s : Scheduler H K) (ref : Ref) (numScheduledTokens : ℕ) : Scheduler H K :=
  let s := s.modifyReq ref fun r => r.updateAfterSchedule numScheduledTokens
    (if s.config.deferBlockFree then some s.schedStepSeq else none)
  { s with
    inflightPrefills :=
      if (s.objs ref).isPrefillChunk then s.inflightPrefills
      else s.inflightPrefills.filter (· ≠ ref) }

/-- `Scheduler._update_after_schedule` over the scheduled requests: whether one of them needs the
grammar. -/
def updateAfterSchedule : List (String × ℕ) → SchedM H K Bool
  | [] => pure false
  | (reqId, numScheduledTokens) :: rest => do
    let ref ← liftPy ((← get).requestRef reqId)
    modify fun s => s.advance ref numScheduledTokens
    let r := (← get).objs ref
    let others ← updateAfterSchedule rest
    pure ((r.useStructuredOutput && !r.isPrefillChunk) || others)

/-- The request part of `AsyncScheduler._update_after_schedule`: placeholders for the sampled and the
draft tokens, and drafts for the next step. -/
def reservePlaceholders (s : Scheduler H K) (ref : Ref) (numSpecTokens : ℕ) : Scheduler H K :=
  s.modifyReq ref fun r =>
    if r.isPrefillChunk then r
    else
      { r with
        numOutputPlaceholders :=
          r.numOutputPlaceholders + (s.config.numSampledTokensPerStep + numSpecTokens : ℕ)
        specTokenIds := s.specTokenPlaceholders
        nextDecodeEligibleStep :=
          if s.config.useV2ModelRunner then s.currentStep + s.config.ppSize
          else r.nextDecodeEligibleStep }

/-- The loop of `AsyncScheduler._update_after_schedule`: whether output of a request with a grammar
is still pending. -/
def asyncUpdateAfterSchedule (specTokens : Dict String (List Token)) :
    List String → SchedM H K Bool
  | [] => pure false
  | reqId :: rest => do
    let ref ← liftPy ((← get).requestRef reqId)
    let r := (← get).objs ref
    modify fun s => s.reservePlaceholders ref ((specTokens.get? reqId).getD []).length
    let others ← asyncUpdateAfterSchedule specTokens rest
    pure ((!r.isPrefillChunk && r.useStructuredOutput && decide (0 < r.numOutputPlaceholders)) ||
      others)

/-- The fence of deferred frees advances with each step that has tokens. -/
def advanceFence (s : Scheduler H K) (out : SchedulerOutput) : Scheduler H K :=
  if s.config.deferBlockFree = true ∧ 0 < out.totalNumScheduledTokens then
    { s with schedStepSeq := s.schedStepSeq + 1 }
  else s

/-- Clear what the output has taken over. -/
def clearReported (s : Scheduler H K) : Scheduler H K :=
  { s with finishedReqIds := [], resetPreemptedReqIds := [] }

/-- The override of `_update_after_schedule` in `AsyncScheduler`. -/
def asyncPart (out : SchedulerOutput) : SchedM H K Bool := do
  if (← get).config.asyncScheduling then
    modify fun s => { s with specTokenPlaceholders := List.replicate out.numSpecTokensToSchedule (-1) }
    asyncUpdateAfterSchedule out.scheduledSpecDecodeTokens out.numScheduledTokens.keys
  else pure false

/-- Advance the counters of the scheduled requests. -/
def finishSchedule (out : SchedulerOutput) : SchedM H K SchedulerOutput := do
  modify fun s => s.advanceFence out
  let structured ← updateAfterSchedule out.numScheduledTokens.entries
  modify clearReported
  let pending ← asyncPart out
  pure { out with
    hasStructuredOutputRequests := structured
    pendingStructuredOutputTokens := pending }

/-- `schedule`.  The variables of the call are returned beside the output. -/
def schedule (inp : ScheduleInput H) : SchedM H K (SchedulerOutput × Pass) := do
  let p ← schedulePass inp
  let out ← makeOutput p
  let out ← finishSchedule out
  pure (out, p)

end Scheduler

end Lvllm
