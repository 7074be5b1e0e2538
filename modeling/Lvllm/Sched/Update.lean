import Lvllm.Sched.CheckStop
import Lvllm.Sched.Output

/-!
# Adding, finishing and updating requests

`Scheduler.add_request`, `finish_requests` and `update_from_output`, with the handling of streaming
sessions, of stale output and of failed KV loads.  The model runner's answer, the verdicts of
grammars and what the connector says about a finished request are arguments.
-/

namespace Lvllm

/-- `FinishReason`. -/
inductive FinishReason where
  | stop
  | length
  | abort
  | error
  | repetition
  deriving DecidableEq, Repr

/-- `RequestStatus.get_finished_reason`. -/
def RequestStatus.getFinishedReason : RequestStatus → Option FinishReason
  | finishedStopped => some .stop
  | finishedLengthCapped => some .length
  | finishedAborted => some .abort
  | finishedIgnored => some .length
  | finishedError => some .error
  | waitingForStreamingReq => some .stop
  | finishedRepetition => some .repetition
  | _ => none

/-- The part of `EngineCoreOutput` that the scheduler decides. -/
structure EngineCoreOutput where
  requestId : String
  newTokenIds : List Token
  finishReason : Option FinishReason
  stopReason : Option StopReason

/-- What `update_from_output` gets from outside. -/
structure ModelRunnerOutput where
  /-- The sampled tokens of a request; none for a request that the runner does not list. -/
  sampledTokenIds : String → Option (List Token) := fun _ => some []
  /-- Whether there is pooler output for a request. -/
  poolerOutput : String → Bool := fun _ => false
  /-- Whether a request's grammar, if it has one that is to advance, accepts the tokens. -/
  grammarAccepts : String → List Token → Bool := fun _ _ => true
  invalidBlockIds : List ℕ := []
  finishedRecving : List String := []
  finishedSending : List String := []
  /-- Whether the connector keeps the blocks of a finished request. -/
  delayFreeBlocks : String → Bool := fun _ => false

namespace Scheduler

variable {H K : Type}

/-- `remove_all`. -/
def removeAll (refs items : List Ref) : List Ref :=
  match items with
  | [] => refs
  | [item] => refs.erase item
  | _ => refs.filter (· ∉ items)

variable [KvCache H K]

/-! ## Freeing -/

/-- The part of `_connector_finished` that touches the scheduler's own state. -/
def connectorFinished (ref : Ref) : SchedM H K Unit := do
  let s ← get
  let r := s.objs ref
  if s.config.connector.isSome then
    onKv (KvCache.removeSkippedBlocks r.requestId
      ((r.numComputedTokens : ℤ) - r.numInFlightTokens).toNat)
  else pure ()

/-- `_free_blocks`. -/
def freeBlocks (ref : Ref) : SchedM H K Unit := do
  let s ← get
  if (s.objs ref).isFinished then
    freeRequestBlocks ref
    modify fun s => { s with requests := s.requests.erase (s.objs ref).requestId }
  else throw (.assertion .finishedStatus)

/-- `_free_request`. -/
def freeRequest (ref : Ref) (delayFreeBlocks : Bool) : SchedM H K Unit := do
  let s ← get
  if (s.objs ref).isFinished then
    modify fun s => { s with inflightPrefills := s.inflightPrefills.filter (· ≠ ref) }
    connectorFinished ref
    onEncoder (EncoderCacheManager.free (s.objs ref))
    modify fun s =>
      { s with finishedReqIds := setAdd (s.objs ref).requestId s.finishedReqIds }
    if delayFreeBlocks then pure () else freeBlocks ref
  else throw (.assertion .finishedStatus)

/-! ## Finishing from outside -/

/-- The tracked requests with the given ids that are not finished. -/
def validRequests (s : Scheduler H K) (reqIds : List String) : List Ref :=
  reqIds.filterMap fun reqId =>
    match s.requests.get? reqId with
    | none => none
    | some ref => if (s.objs ref).isFinished then none else some ref

/-- Take the requests out of the queues. -/
def removeFromQueues (s : Scheduler H K) (refs : List Ref) : Scheduler H K :=
  let runningRefs := refs.filter fun ref => (s.objs ref).status = .running
  let waitingRefs := refs.filter fun ref => (s.objs ref).status ≠ .running
  let streaming := refs.countP fun ref => (s.objs ref).status = .waitingForStreamingReq
  { s with
    numWaitingForStreamingInput := s.numWaitingForStreamingInput - streaming
    running := removeAll s.running runningRefs
    waiting := if waitingRefs.isEmpty then s.waiting else s.removeFrom s.waiting waitingRefs
    skippedWaiting :=
      if waitingRefs.isEmpty then s.skippedWaiting
      else s.removeFrom s.skippedWaiting waitingRefs }

/-- Whether the blocks of a request are still being loaded. -/
def stillLoading (s : Scheduler H K) (ref : Ref) : Bool :=
  decide ((s.objs ref).status = .waitingForRemoteKvs) &&
    decide ((s.objs ref).requestId ∉ s.finishedRecvingKvReqIds)

/-- Give a request its finished status; a load that ended is forgotten. -/
def setFinished (s : Scheduler H K) (ref : Ref) (status : RequestStatus) : Scheduler H K :=
  let r := s.objs ref
  let s :=
    if r.status = .waitingForRemoteKvs then
      { s with
        finishedRecvingKvReqIds := s.finishedRecvingKvReqIds.filter (· ≠ r.requestId)
        failedRecvingKvReqIds := s.failedRecvingKvReqIds.filter (· ≠ r.requestId) }
    else s
  s.modifyReq ref fun r => { r with status := status }

/-- Finish and free one request. -/
def finishOne (delayFreeBlocks : String → Bool) (status : RequestStatus) (ref : Ref) :
    SchedM H K Unit := do
  let s ← get
  modify fun s => s.setFinished ref status
  freeRequest ref (s.stillLoading ref ||
    (s.config.connector.isSome && delayFreeBlocks (s.objs ref).requestId))

/-- `finish_requests`; without ids every tracked request is finished. -/
def finishRequests (delayFreeBlocks : String → Bool) (reqIds : Option (List String))
    (status : RequestStatus) : SchedM H K (List Ref) := do
  let s ← get
  if status.isFinished then
    let refs := s.validRequests ((reqIds.map List.dedup).getD s.requests.keys)
    modify fun s => s.removeFromQueues refs
    refs.forM (finishOne delayFreeBlocks status)
    pure refs
  else throw (.assertion .finishedStatus)

/-! ## Streaming sessions -/

variable [DecidableEq H]

/-- `_update_request_as_session`. -/
def updateRequestAsSession (ref : Ref) (update : StreamingUpdate) : SchedM H K Unit := do
  let s ← get
  let session := s.objs ref
  let updated ← liftPy (session.updateAsSession s.config.blockHasher update)
  modify fun s =>
    { s.modifyReq ref fun _ => updated with
      numWaitingForStreamingInput :=
        if session.status = .waitingForStreamingReq then s.numWaitingForStreamingInput - 1
        else s.numWaitingForStreamingInput }

/-- Enter a new request object. -/
def enterRequest (s : Scheduler H K) (r : Request H) : Scheduler H K :=
  let r := if r.resumable then { r with streamingQueue := some [] } else r
  let ref := s.nextRef
  let s := { s with objs := Function.update s.objs ref r, nextRef := ref + 1 }
  let s := s.enqueueWaitingRequest ref
  { s with requests := s.requests.set r.requestId ref }

/-- `add_request`: a new request, or the next input of a streaming session. -/
def addRequest (delayFreeBlocks : String → Bool) (r : Request H) : SchedM H K Unit := do
  let s ← get
  match s.requests.get? r.requestId with
  | none => modify fun s => s.enterRequest r
  | some existing =>
    if (s.objs existing).status ≠ .waitingForStreamingReq then
      match (s.objs existing).streamingQueue with
      | none => throw (.assertion .duplicateRequestId)
      | some queue =>
        modify fun s => s.modifyReq existing fun e =>
          { e with streamingQueue := some (queue ++ [StreamingUpdate.fromRequest r]) }
    else
      match StreamingUpdate.fromRequest r with
      | some update => updateRequestAsSession existing update
      | none =>
        let _ ← finishRequests delayFreeBlocks (some [r.requestId]) .finishedAborted

/-- `_handle_stopped_request`: whether the request is finished.  A session goes on with the next
input, or waits for it. -/
def handleStoppedRequest (ref : Ref) : SchedM H K Bool := do
  let s ← get
  let r := s.objs ref
  if r.resumable then
    match r.streamingQueue.getD [] with
    | none :: rest =>
      modify fun s => s.modifyReq ref fun r => { r with streamingQueue := some rest }
      pure true
    | some update :: rest =>
      modify fun s => s.modifyReq ref fun r => { r with streamingQueue := some rest }
      updateRequestAsSession ref update
      modify fun s => s.enqueueWaitingRequest ref
      pure false
    | [] =>
      modify fun s =>
        { s.modifyReq ref fun r => { r with status := .waitingForStreamingReq } with
          numWaitingForStreamingInput := s.numWaitingForStreamingInput + 1 }
      modify fun s => s.enqueueWaitingRequest ref
      pure false
  else pure true

/-! ## New tokens -/

/-- The loop of `_update_request_with_output`: append tokens until one stops the request.  Returns
the request, the tokens that were appended and whether it stopped. -/
def appendUntilStop (bh : Option (BlockHasher H)) (maxModelLen : ℕ) :
    Request H → List Token → Except PyErr (Request H × List Token × Bool)
  | r, [] => .ok (r, [], false)
  | r, token :: rest => do
    let (r, stopped) ← checkStop (r.appendOutputTokenIds bh [token]) maxModelLen
    if stopped then pure (r, [token], true)
    else
      let (r, tokens, stopped) ← appendUntilStop bh maxModelLen r rest
      pure (r, token :: tokens, stopped)

/-- Take the placeholders of delivered tokens back. -/
def releasePlaceholders (ref : Ref) (numTokens : ℕ) (isStale : Bool) : SchedM H K Unit := do
  if isStale then pure ()
  else
    modify fun s => s.modifyReq ref fun r =>
      { r with numOutputPlaceholders := r.numOutputPlaceholders - numTokens }
    check (decide (0 ≤ ((← get).objs ref).numOutputPlaceholders)) .placeholdersNonneg

/-- Cache the blocks of new tokens, unless the request was preempted meanwhile. -/
def cacheNewTokens (ref : Ref) (statusBefore : RequestStatus) : SchedM H K Unit := do
  let s ← get
  let r := s.objs ref
  if statusBefore = .running then
    onKv (KvCache.cacheBlocks r ((r.numComputedTokens : ℤ) - r.numOutputPlaceholders).toNat)
  else pure ()

/-- `_update_request_with_output` of either scheduler: the tokens that were appended and whether the
request stopped. -/
def updateRequestWithOutput (ref : Ref) (newTokenIds : List Token) (isStale : Bool) :
    SchedM H K (List Token × Bool) := do
  let s ← get
  let statusBefore := (s.objs ref).status
  let (r, tokens, stopped) ←
    liftPy (appendUntilStop s.config.blockHasher s.config.maxModelLen (s.objs ref) newTokenIds)
  modify fun s => s.modifyReq ref fun _ => r
  if s.config.asyncScheduling then
    releasePlaceholders ref tokens.length isStale
    cacheNewTokens ref statusBefore
    pure (tokens, stopped)
  else pure (tokens, stopped)

/-- The inputs of a request that no later step reads. -/
def passedInputs (s : Scheduler H K) (r : Request H) : List ℕ → Except PyErr (List ℕ)
  | [] => .ok []
  | inputId :: rest => do
    let feature ← r.mmFeature inputId
    let others ← s.passedInputs r rest
    let last := feature.mmPosition.offset + feature.mmPosition.length + s.config.numPrefillLookahead
    if (last : ℤ) ≤ r.numComputedTokens - r.numOutputPlaceholders then pure (inputId :: others)
    else pure others

/-- `_free_encoder_inputs`. -/
def freeEncoderInputs (ref : Ref) : SchedM H K Unit := do
  let s ← get
  let r := s.objs ref
  let inputs ← liftPy (s.passedInputs r (s.encoder.getCachedInputIds r.requestId))
  onEncoder (inputs.forM fun inputId => EncoderCacheManager.freeEncoderInput r inputId)

/-! ## Failed loads -/

/-- What the scan of a block table for invalid blocks found. -/
structure BlockScan where
  isAffected : Bool := false
  /-- The index of the first invalid block that this request marks for recomputation. -/
  firstMarked : Option ℕ := none
  /-- The invalid blocks marked so far, by this request or an earlier one. -/
  marked : List ℕ := []

/-- One block in the loop of `_update_requests_with_invalid_blocks`. -/
def BlockScan.step (invalidBlockIds : List ℕ) (scan : BlockScan) (x : ℕ × ℕ) : BlockScan :=
  if x.1 ∉ invalidBlockIds then scan
  else if x.1 ∈ scan.marked then { scan with isAffected := true }
  else
    { isAffected := true
      firstMarked := scan.firstMarked.orElse fun _ => some x.2
      marked := scan.marked ++ [x.1] }

/-- The result of `_update_requests_with_invalid_blocks`, with the blocks marked so far. -/
structure InvalidScan where
  affectedReqIds : List String := []
  blocksToEvict : List ℕ := []
  marked : List ℕ := []

/-- One request in `_update_requests_with_invalid_blocks`: it is rolled back to the first invalid
block that no earlier request recomputes. -/
def updateRequestWithInvalidBlocks (invalidBlockIds : List ℕ) (numScheduledTokens : Dict String ℕ)
    (acc : InvalidScan) (ref : Ref) : SchedM H K InvalidScan := do
  let s ← get
  let r := s.objs ref
  match KvCache.getBlocks s.kv r.requestId with
  | [blocks] =>
    let reqNumComputedTokens :=
      r.numComputedTokens - (numScheduledTokens.get? r.requestId).getD 0
    let scan := (blocks.take (cdiv reqNumComputedTokens s.config.blockSize)).zipIdx.foldl
      (BlockScan.step invalidBlockIds) { marked := acc.marked }
    match scan.firstMarked, scan.isAffected with
    | some idx, _ =>
      set (s.modifyReq ref fun r => { r with numComputedTokens := idx * s.config.blockSize })
      pure {
        affectedReqIds := setAdd r.requestId acc.affectedReqIds
        blocksToEvict := acc.blocksToEvict ++ blocks.drop idx
        marked := scan.marked }
    | none, true =>
      set (s.modifyReq ref fun r => { r with numComputedTokens := reqNumComputedTokens })
      pure { acc with affectedReqIds := setAdd r.requestId acc.affectedReqIds }
    | none, false => pure acc
  | _ => throw (.py (.valueError "too many values to unpack (expected 1)"))

/-- `_update_requests_with_invalid_blocks`. -/
def updateRequestsWithInvalidBlocks (invalidBlockIds : List ℕ)
    (numScheduledTokens : Dict String ℕ) : List Ref → InvalidScan → SchedM H K InvalidScan
  | [], acc => pure acc
  | ref :: rest, acc => do
    let acc ← updateRequestWithInvalidBlocks invalidBlockIds numScheduledTokens acc ref
    updateRequestsWithInvalidBlocks invalidBlockIds numScheduledTokens rest acc

/-- Evict the blocks behind invalid ones, unless they are recomputed. -/
def evictInvalid (blocks : List ℕ) : SchedM H K Unit := do
  if blocks.isEmpty ∨ (← get).config.recomputeKvLoadFailures = true then pure ()
  else onKv (KvCache.evictBlocks blocks)

/-- `_handle_invalid_blocks`: the requests whose output is skipped. -/
def handleInvalidBlocks (invalidBlockIds : List ℕ) (numScheduledTokens : Dict String ℕ) :
    SchedM H K (List String) := do
  let s ← get
  let asyncLoadReqs := (RequestQueue.iterate s.config.policy s.lt s.skippedWaiting).filter
    fun ref => (s.objs ref).status = .waitingForRemoteKvs
  let asyncFailed ← updateRequestsWithInvalidBlocks invalidBlockIds numScheduledTokens asyncLoadReqs {}
  let syncFailed ← updateRequestsWithInvalidBlocks invalidBlockIds numScheduledTokens s.running {}
  evictInvalid syncFailed.blocksToEvict
  if s.config.recomputeKvLoadFailures then
    modify fun s =>
      { s with
        failedRecvingKvReqIds :=
          asyncFailed.affectedReqIds.foldl (fun l reqId => setAdd reqId l) s.failedRecvingKvReqIds }
    pure syncFailed.affectedReqIds
  else pure (syncFailed.affectedReqIds.foldl (fun l reqId => setAdd reqId l) asyncFailed.affectedReqIds)

/-! ## `update_from_output` -/

/-- Count a processed step down; true if its output is stale. -/
def drainStale (ref : Ref) (numTokensScheduled : ℕ) : SchedM H K Bool := do
  modify fun s => s.modifyReq ref fun r =>
    { r with numInFlightTokens := r.numInFlightTokens - numTokensScheduled }
  if 0 < ((← get).objs ref).numStaleOutputTokens then
    modify fun s => s.modifyReq ref fun r =>
      { r with numStaleOutputTokens := r.numStaleOutputTokens - numTokensScheduled }
    check (decide (0 ≤ ((← get).objs ref).numStaleOutputTokens)) .staleOutputNonneg
    pure true
  else pure false

/-- Roll the rejected draft tokens of a step back. -/
def rejectDrafts (s : Scheduler H K) (ref : Ref) (draftTokenIds generatedTokenIds : List Token)
    (isStale : Bool) : Scheduler H K :=
  let numSampled := s.config.numSampledTokensPerStep
  if draftTokenIds ≠ [] ∧ (generatedTokenIds ≠ [] ∨ numSampled = 0) ∧ isStale = false then
    s.modifyReq ref (·.rejectDraftTokens
      ((draftTokenIds.length : ℤ) - (generatedTokenIds.length - numSampled : ℕ)))
  else s

/-- Free the encoder inputs that are not needed any more, if the request has any. -/
def freePassedInputs (ref : Ref) : SchedM H K Unit := do
  if ((← get).objs ref).hasEncoderInputs then freeEncoderInputs ref else pure ()

/-- A request without new tokens stops with its pooler output, or once an encoder-only model has
consumed its prompt. -/
def stopWithoutTokens (ref : Ref) (poolerOutput : Bool) : SchedM H K (List Token × Bool) := do
  let s ← get
  let r := s.objs ref
  if (r.poolingParams.isSome ∧ poolerOutput) ∨
      (s.config.isMmEncoderOnly ∧ r.numComputedTokens ≥ r.numPromptTokens) then
    set (s.modifyReq ref fun r => { r with status := .finishedStopped })
    pure ([], true)
  else pure ([], false)

/-- Check for a stop and update the request. -/
def applyOutput (ref : Ref) (generatedTokenIds : List Token) (poolerOutput isStale : Bool) :
    SchedM H K (List Token × Bool) :=
  if generatedTokenIds.isEmpty then stopWithoutTokens ref poolerOutput
  else updateRequestWithOutput ref generatedTokenIds isStale

/-- A request whose grammar rejects its tokens stops with an error. -/
def applyGrammar (s : Scheduler H K) (ref : Ref) (rejected : Bool) : Scheduler H K :=
  if rejected then s.modifyReq ref fun r => { r with status := .finishedError, resumable := false }
  else s

/-- What processing the output of a request gave. -/
structure Processed where
  ref : Ref
  newTokenIds : List Token
  stopped : Bool
  statusBeforeStop : RequestStatus
  finishReason : Option FinishReason
  /-- Whether there is something to report. -/
  shouldEmitOutput : Bool

/-- Free a stopped request, unless its session goes on. -/
def settleStopped (ref : Ref) (delayFreeBlocks : String → Bool) : SchedM H K Unit := do
  if ← handleStoppedRequest ref then
    let s ← get
    freeRequest ref (s.config.connector.isSome && delayFreeBlocks (s.objs ref).requestId)
  else pure ()

variable (out : SchedulerOutput) (mro : ModelRunnerOutput)

/-- The body of the loop of `update_from_output` for a live request and output that counts. -/
def processOutput (reqId : String) (ref : Ref)
    (generatedTokenIds : List Token) (isStale : Bool) : SchedM H K Processed := do
  modify fun s => s.rejectDrafts ref ((out.scheduledSpecDecodeTokens.get? reqId).getD [])
    generatedTokenIds isStale
  freePassedInputs ref
  let statusBeforeStop := ((← get).objs ref).status
  let (tokens, stopped) ← applyOutput ref generatedTokenIds (mro.poolerOutput reqId) isStale
  let rejected := !tokens.isEmpty && !mro.grammarAccepts reqId tokens
  modify fun s => s.applyGrammar ref rejected
  let finishReason := ((← get).objs ref).status.getFinishedReason
  if stopped || rejected then
    settleStopped ref mro.delayFreeBlocks
    pure ⟨ref, tokens, true, statusBeforeStop, finishReason, true⟩
  else
    pure ⟨ref, tokens, false, statusBeforeStop, none, !tokens.isEmpty || mro.poolerOutput reqId⟩

/-- One round of the loop of `update_from_output`; nothing for output that is skipped. -/
def updateRequest (failed : List String)
    (reqId : String) (numTokensScheduled : ℕ) : SchedM H K (Option Processed) := do
  check (decide (0 < numTokensScheduled)) .scheduledTokensPositive
  match (← get).requests.get? reqId with
  | none => pure none
  | some ref =>
    let isStale ← drainStale ref numTokensScheduled
    let r := (← get).objs ref
    if reqId ∈ failed ∨ r.isFinished = true ∨ (isStale = true ∧ r.dropStaleOutput = true) then
      pure none
    else
      match mro.sampledTokenIds reqId with
      | none => throw (.py .keyError)
      | some generatedTokenIds =>
        let processed ← processOutput out mro reqId ref generatedTokenIds isStale
        pure (some processed)

/-- The variables of the loop of `update_from_output`. -/
structure UpdatePass where
  stoppedRunningReqs : List Ref := []
  stoppedPreemptedReqs : List Ref := []
  outputs : List EngineCoreOutput := []

/-- Record what processing a request gave. -/
def UpdatePass.add (acc : UpdatePass) (s : Scheduler H K) : Option Processed → UpdatePass
  | none => acc
  | some x =>
    { stoppedRunningReqs :=
        if x.stopped ∧ x.statusBeforeStop = .running then setAdd x.ref acc.stoppedRunningReqs
        else acc.stoppedRunningReqs
      stoppedPreemptedReqs :=
        if x.stopped ∧ x.statusBeforeStop ≠ .running then setAdd x.ref acc.stoppedPreemptedReqs
        else acc.stoppedPreemptedReqs
      outputs :=
        if x.shouldEmitOutput then
          acc.outputs ++ [⟨(s.objs x.ref).requestId, x.newTokenIds, x.finishReason,
            (s.objs x.ref).stopReason⟩]
        else acc.outputs }

/-- The loop of `update_from_output`. -/
def updateLoop (out : SchedulerOutput) (mro : ModelRunnerOutput) (failed : List String) :
    List (String × ℕ) → UpdatePass → SchedM H K UpdatePass
  | [], acc => pure acc
  | (reqId, numTokensScheduled) :: rest, acc => do
    let processed ← updateRequest out mro failed reqId numTokensScheduled
    updateLoop out mro failed rest (acc.add (← get) processed)

/-- Take the stopped requests out of the queues. -/
def removeStopped (s : Scheduler H K) (acc : UpdatePass) : Scheduler H K :=
  { s with
    running := removeAll s.running acc.stoppedRunningReqs
    waiting :=
      if acc.stoppedPreemptedReqs.isEmpty then s.waiting
      else s.removeFrom s.waiting acc.stoppedPreemptedReqs
    skippedWaiting :=
      if acc.stoppedPreemptedReqs.isEmpty then s.skippedWaiting
      else s.removeFrom s.skippedWaiting acc.stoppedPreemptedReqs }

section

omit [DecidableEq H]

/-- The loop of `_drain_deferred_frees`: free the blocks whose fence is passed, up to the first that
is not.  The blocks of an entry are freed in reverse order. -/
def drainDeferredFrees : List (ℕ × List ℕ) → SchedM H K Unit
  | [] => modify fun s => { s with deferredFrees := [] }
  | (fence, blocks) :: rest => do
    if fence > (← get).processedStepSeq then
      modify fun s => { s with deferredFrees := (fence, blocks) :: rest }
    else
      onKv (KvCache.freeBlocks blocks.reverse)
      drainDeferredFrees rest

variable (out : SchedulerOutput) (mro : ModelRunnerOutput)

/-- Note that a step was processed, and free what had to wait for it. -/
def processStep : SchedM H K Unit := do
  let s ← get
  if s.config.deferBlockFree = true ∧ 0 < out.totalNumScheduledTokens then
    set { s with processedStepSeq := s.processedStepSeq + 1 }
    drainDeferredFrees s.deferredFrees
  else pure ()

/-- Handle the blocks that failed to load, if there are any. -/
def failedLoads : SchedM H K (List String) :=
  if mro.invalidBlockIds.isEmpty then pure []
  else handleInvalidBlocks mro.invalidBlockIds out.numScheduledTokens

/-- Finish the requests with failed grammars, and with failed loads under the failing policy. -/
def finishErrors (failed : List String) : SchedM H K (List Ref) := do
  let s ← get
  let errorReqIds := s.grammarCompileErrorReqs ++
    if s.config.recomputeKvLoadFailures then [] else failed
  set { s with grammarCompileErrorReqs := [] }
  if errorReqIds.isEmpty then pure []
  else finishRequests mro.delayFreeBlocks (some errorReqIds) .finishedError

/-- The loop of `_update_from_kv_xfer_finished` over finished loads. -/
def finishedRecvingOne (reqId : String) : SchedM H K Unit := do
  let s ← get
  match s.requests.get? reqId with
  | none => pure ()
  | some ref =>
    if (s.objs ref).status = .waitingForRemoteKvs then
      modify fun s => { s with finishedRecvingKvReqIds := setAdd reqId s.finishedRecvingKvReqIds }
    else if (s.objs ref).isFinished then freeBlocks ref
    else pure ()

/-- The loop of `_update_from_kv_xfer_finished` over finished sends. -/
def finishedSendingOne (reqId : String) : SchedM H K Unit := do
  let s ← get
  match s.requests.get? reqId with
  | none => pure ()
  | some ref => freeBlocks ref

/-- `_update_from_kv_xfer_finished`. -/
def updateFromKvXferFinished : SchedM H K Unit := do
  mro.finishedRecving.forM finishedRecvingOne
  mro.finishedSending.forM finishedSendingOne

end

/-- `update_from_output`. -/
def updateFromOutput :
    SchedM H K (List EngineCoreOutput) := do
  processStep out
  let failed ← failedLoads out mro
  let acc ← updateLoop out mro failed out.numScheduledTokens.entries {}
  modify fun s => s.removeStopped acc
  let errorReqs ← finishErrors mro failed
  updateFromKvXferFinished mro
  let s ← get
  pure (acc.outputs ++ errorReqs.map fun ref =>
    ⟨(s.objs ref).requestId, [], (s.objs ref).status.getFinishedReason, none⟩)

/-! ## Other entry points -/

/-- One request in `update_draft_token_ids`; the drafts are those that the grammar accepts. -/
def updateDraftTokenIds (s : Scheduler H K) (reqId : String) (specTokenIds : List Token) :
    Scheduler H K :=
  match s.requests.get? reqId with
  | none => s
  | some ref =>
    if (s.objs ref).isFinished then s
    else s.modifyReq ref fun r =>
      { r with specTokenIds := if r.isPrefillChunk then [] else specTokenIds }

/-- Preempt the running requests from the last on. -/
def preemptAll : ℕ → SchedM H K Unit
  | 0 => pure ()
  | fuel + 1 => do
    let s ← get
    match s.running.getLast? with
    | none => pure ()
    | some ref =>
      set { s with running := s.running.dropLast }
      preemptRequest ref true
      preemptAll fuel

/-- `reset_prefix_cache` without a connector. -/
def resetPrefixCache (resetRunningRequests : Bool) : SchedM H K Bool := do
  let s ← get
  if resetRunningRequests then
    preemptAll s.running.length
    modify fun s => { s with prevStepScheduledReqIds := [] }
    if ← onKv KvCache.resetPrefixCache then pure true
    else throw (.py (.runtimeError ("Failed to reset KV cache even when all the running requests are "
      ++ "preempted and moved to the waiting queue. This is likely due to "
      ++ "the presence of running requests waiting for remote KV transfer, "
      ++ "which is not supported yet.")))
  else onKv KvCache.resetPrefixCache

end Scheduler

end Lvllm
