import Lvllm.Sched.Schedule

/-!
# Admission of waiting requests

The second loop of `Scheduler.schedule`.  A waiting request is looked at when it stands at the front
of the queue that the policy selects.  It is set aside for the rest of the call when it is blocked;
the loop ends when it cannot be scheduled; otherwise it moves to the running queue, or waits for its
KV blocks to be loaded.
-/

namespace Lvllm

open KVCacheManager (AllocateSlotsArgs)

/-- The name of a status. -/
def RequestStatus.name : RequestStatus → String
  | waiting => "WAITING"
  | waitingForStructuredOutputGrammar => "WAITING_FOR_STRUCTURED_OUTPUT_GRAMMAR"
  | waitingForRemoteKvs => "WAITING_FOR_REMOTE_KVS"
  | waitingForStreamingReq => "WAITING_FOR_STREAMING_REQ"
  | running => "RUNNING"
  | preempted => "PREEMPTED"
  | finishedStopped => "FINISHED_STOPPED"
  | finishedLengthCapped => "FINISHED_LENGTH_CAPPED"
  | finishedAborted => "FINISHED_ABORTED"
  | finishedIgnored => "FINISHED_IGNORED"
  | finishedError => "FINISHED_ERROR"
  | finishedRepetition => "FINISHED_REPETITION"

/-- The two queues of waiting requests. -/
inductive WaitingQueue where
  | waiting
  | skipped
  deriving DecidableEq, Repr

namespace Scheduler

variable {H K : Type}

variable (s : Scheduler H K)

/-- A queue of waiting requests. -/
def queue : WaitingQueue → List Ref
  | .waiting => s.waiting
  | .skipped => s.skippedWaiting

/-- `_select_waiting_queue_for_scheduling`. -/
def selectWaitingQueue : Option WaitingQueue :=
  match s.config.policy, s.waiting, s.skippedWaiting with
  | .fcfs, _, _ :: _ => some .skipped
  | .fcfs, _ :: _, [] => some .waiting
  | .priority, w :: _, k :: _ => if s.lt w k then some .waiting else some .skipped
  | .priority, _ :: _, [] => some .waiting
  | .priority, [], _ :: _ => some .skipped
  | _, [], [] => none

/-- `pop_request` of a queue of waiting requests. -/
def popWaiting : WaitingQueue → Scheduler H K
  | .waiting => { s with waiting := s.popFrom s.waiting }
  | .skipped => { s with skippedWaiting := s.popFrom s.skippedWaiting }

/-- Set the request at the front of a queue aside for the rest of the call. -/
def setAside (which : WaitingQueue) (ref : Ref) (x : Scheduler H K × Pass) : Scheduler H K × Pass :=
  (x.1.popWaiting which,
    { x.2 with stepSkippedWaiting := x.1.prependTo x.2.stepSkippedWaiting ref })

/-- Set a request aside and go on. -/
def skipWaiting (which : WaitingQueue) (ref : Ref) : PassM H K Bool := do
  modify (setAside which ref)
  pure true

variable [KvCache H K]

/-! ## Blocked requests -/

/-- Cache or free the blocks of a request whose load ended. -/
def settleRemoteKv (ref : Ref) : SchedM H K Unit := do
  let s ← get
  let r := s.objs ref
  if r.requestId ∈ s.failedRecvingKvReqIds ∧ r.numComputedTokens = 0 then
    onKv (KvCache.free r.requestId)
  else onKv (KvCache.cacheBlocks r r.numComputedTokens)

/-- `_update_waiting_for_remote_kv`. -/
def updateWaitingForRemoteKv (ref : Ref) : SchedM H K Unit := do
  let s ← get
  let r := s.objs ref
  settleRemoteKv ref
  modify fun s =>
    let failed := decide (r.requestId ∈ s.failedRecvingKvReqIds)
    let s := s.modifyReq ref fun r =>
      -- After a full hit the last token is computed again, to sample from it.
      if failed = false ∧ r.numComputedTokens = r.numTokens then
        { r with numComputedTokens := r.numTokens - 1 }
      else r
    { s with
      failedRecvingKvReqIds := s.failedRecvingKvReqIds.filter (· ≠ r.requestId)
      finishedRecvingKvReqIds := s.finishedRecvingKvReqIds.filter (· ≠ r.requestId) }

/-- `_try_promote_blocked_waiting_request`. -/
def tryPromoteBlockedWaitingRequest (grammar : Request H → GrammarState) (ref : Ref) :
    SchedM H K Bool := do
  let s ← get
  let r := s.objs ref
  match r.status with
  | .waitingForRemoteKvs =>
    if r.requestId ∈ s.finishedRecvingKvReqIds then
      updateWaitingForRemoteKv ref
      modify fun s => s.modifyReq ref fun r =>
        { r with status := if r.numPreemptions = 0 then .waiting else .preempted }
      pure true
    else pure false
  | .waitingForStructuredOutputGrammar =>
    match grammar r with
    | .compiling => pure false
    | .failed =>
      modify fun s =>
        { s with grammarCompileErrorReqs := setAdd r.requestId s.grammarCompileErrorReqs }
      pure false
    | .ready =>
      modify fun s => s.modifyReq ref fun r => { r with status := .waiting }
      pure true
  | .waitingForStreamingReq =>
    if (r.streamingQueue.getD []).isEmpty then pure false
    else throw (.assertion .streamingQueueEmpty)
  | _ => throw (.assertion .unexpectedBlockedStatus)

/-- Whether a request is blocked and stays so. -/
def staysBlocked (grammar : Request H → GrammarState) (ref : Ref) : SchedM H K Bool := do
  let s ← get
  if isBlockedWaitingStatus (s.objs ref).status then
    let promoted ← tryPromoteBlockedWaitingRequest grammar ref
    pure !promoted
  else pure false

/-- Whether a request has to wait for its output in flight, or for a LoRA slot. -/
def mustWait (p : Pass) (r : Request H) : Bool :=
  (decide (0 < r.numStaleOutputTokens) && !r.dropStaleOutput) ||
    match s.config.maxLoras, r.loraRequest with
    | some maxLoras, some lora =>
      decide (p.scheduledLoras.length = maxLoras) && decide (lora.loraIntId ∉ p.scheduledLoras)
    | _, _ => false

/-! ## Computed tokens -/

/-- What a waiting request starts from. -/
structure Admission where
  newComputedBlocks : List (List ℕ) := []
  numNewLocalComputedTokens : ℕ := 0
  numExternalComputedTokens : ℕ := 0
  numComputedTokens : ℕ
  loadKvAsync : Bool := false

/-- `_get_local_prefix_cache_hit`. -/
def getLocalPrefixCacheHit (r : Request H) :
    Except PyErr (List (List ℕ) × ℕ × ℕ × Bool) :=
  if s.config.connector.any ConnectorConfig.supportsDivergentLocalHybridHits then
    KvCache.getComputedBlocksForConnector s.kv r
  else
    (KvCache.getComputedBlocks s.kv r).map fun (blocks, n, boundary) => (blocks, n, boundary, false)

/-- Combine a local hit with the tokens that the connector found behind its aligned part. -/
def combineHits (blocks : List (List ℕ)) (numLocal extTokens : ℕ)
    (loadKvAsync : Bool) : Except PyErr Admission :=
  let partialTail := numLocal % s.config.blockSize
  let blockAlignedLocal := numLocal - partialTail
  if partialTail ≠ 0 ∧ partialTail < extTokens then do
    -- The remote hit is longer, so the tail of the local one is dropped.
    let blocks ← KvCache.truncateComputedBlocks s.kv blocks blockAlignedLocal
    pure {
      newComputedBlocks := blocks
      numNewLocalComputedTokens := blockAlignedLocal
      numExternalComputedTokens := extTokens
      numComputedTokens := blockAlignedLocal + extTokens
      loadKvAsync := loadKvAsync }
  else if partialTail ≠ 0 then
    .ok {
      newComputedBlocks := blocks
      numNewLocalComputedTokens := numLocal
      numComputedTokens := numLocal }
  else
    .ok {
      newComputedBlocks := blocks
      numNewLocalComputedTokens := numLocal
      numExternalComputedTokens := extTokens
      numComputedTokens := numLocal + extTokens
      loadKvAsync := loadKvAsync }

/-- The computed tokens of a request that has none yet, with the shared prefix boundary; no tokens
when the connector does not know them. -/
def findComputedTokens (inp : ScheduleInput H) (r : Request H) :
    Except PyErr (ℕ × Option Admission) := do
  let (blocks, numLocal, boundary, hitDiverged) ← s.getLocalPrefixCacheHit r
  match s.config.connector with
  | none =>
    pure (boundary, some {
      newComputedBlocks := blocks
      numNewLocalComputedTokens := numLocal
      numComputedTokens := numLocal })
  | some _ =>
    let blockAlignedLocal := numLocal - numLocal % s.config.blockSize
    match inp.numNewMatchedTokens { r with sharedPrefixBoundary := boundary } blockAlignedLocal with
    | (none, _) => pure (boundary, none)
    | (some extTokens, loadKvAsync) =>
      let admission ← s.combineHits blocks numLocal extTokens loadKvAsync
      if hitDiverged ∧ admission.numExternalComputedTokens = 0 then
        -- Without external tokens every group has to agree on the boundary.
        let (blocks, numLocal, boundary) ← KvCache.getComputedBlocks s.kv r
        pure (boundary, some { admission with
          newComputedBlocks := blocks
          numNewLocalComputedTokens := numLocal
          numComputedTokens := numLocal })
      else pure (boundary, some admission)

/-- What a waiting request starts from: a lookup when nothing is computed, or what was computed
before. -/
def findAdmission (inp : ScheduleInput H) (ref : Ref) : PassM H K (Option Admission) := do
  let (s, _) ← get
  let r := s.objs ref
  if r.numComputedTokens = 0 then
    let (boundary, admission) ← liftPy (s.findComputedTokens inp r)
    modify fun (s, p) => (s.modifyReq ref fun r => { r with sharedPrefixBoundary := boundary }, p)
    match admission with
    | none => pure none
    | some a =>
      if a.numComputedTokens ≤ r.numTokens then pure (some a)
      else throw (.assertion .computedLeTokens)
  else pure (some { numComputedTokens := r.numComputedTokens })

/-! ## The chunk -/

/-- A chunk of a waiting request. -/
structure Chunk where
  numNewTokens : ℕ
  padSpecDecode : Bool
  schedule : EncoderSchedule

/-- Pad the first decode step of a request to the size of the others, if there is room; no tokens
when the padded step does not fit the budget. -/
def padDecode (s : Scheduler H K) (p : Pass) (a : Admission) (requestTokenBudget : ℤ) (n : ℕ) :
    Option (ℕ × Bool) :=
  let c := s.config
  if 0 < c.numSpecTokens ∧ c.dynamicSdLookup = none ∧ 0 < c.numSampledTokensPerStep ∧ n = 1 ∧
      p.scheduledRunningReqs ≠ [] ∧ p.prefillScheduled = false ∧
      a.numComputedTokens + (1 + c.numSpecTokens) + c.numSampledTokensPerStep ≤ c.maxModelLen then
    if (1 + c.numSpecTokens : ℤ) > requestTokenBudget then none else some (1 + c.numSpecTokens, true)
  else some (n, false)

/-- The new tokens of a waiting request before alignment, and whether they are padded; none when
the loop ends. -/
def waitingNumNewTokens (s : Scheduler H K) (p : Pass) (r : Request H) (a : Admission) :
    Option (ℤ × Bool) :=
  let c := s.config
  let requestTokenBudget := min p.tokenBudget (p.inputBudget - c.draftSlots)
  match s.padDecode p a requestTokenBudget (r.numTokens - a.numComputedTokens) with
  | none => none
  | some (n, pad) =>
    let n := if 0 < c.longPrefillTokenThreshold ∧ c.longPrefillTokenThreshold < n then
      c.longPrefillTokenThreshold else n
    if c.enableChunkedPrefill = false ∧ (n : ℤ) > requestTokenBudget then none
    else some (min n requestTokenBudget, pad)

/-- Align the chunk of a waiting request; none when nothing is left.  A padded chunk that would be
cut loses its padding. -/
def alignWaiting (s : Scheduler H K) (r : Request H) (a : Admission) (n : ℤ) (pad : Bool) :
    Option (ℤ × Bool) :=
  let c := s.config
  if c.needMambaBlockAlignedSplit then
    let start := r.numComputedTokens + a.numNewLocalComputedTokens + a.numExternalComputedTokens
    let n := c.mambaBlockAlignedSplit r start n
    if n = 0 then none
    else if pad = true ∧ n ≠ 1 + c.numSpecTokens then some (1, false)
    else some (n, pad)
  else some (n, pad)

/-- The chunk of a waiting request; none when the loop ends. -/
def findChunk (ref : Ref) (a : Admission) : PassM H K (Option Chunk) := do
  let (s, p) ← get
  let r := s.objs ref
  if a.loadKvAsync then
    if 0 < a.numExternalComputedTokens then
      pure (some ⟨0, false, .none 0 p.encoderComputeBudget⟩)
    else throw (.assertion .externalTokensPositive)
  else if p.deferPrefills ∧ a.numComputedTokens + 1 < r.numTokens then pure none
  else
    match s.waitingNumNewTokens p r a with
    | none => pure none
    | some (n, pad) =>
      if n ≤ 0 then throw (.assertion .newTokensPositive)
      else
        match s.alignWaiting r a n pad with
        | none => pure none
        | some (n, pad) =>
          let schedule ← scheduleEncoderInputs ref a.numComputedTokens n
          let n := s.config.reservePrefillLookahead r a.numComputedTokens schedule.numNewTokens
          if n = 0 then pure none else pure (some ⟨n.toNat, pad, schedule⟩)

/-! ## Blocks -/

/-- The sum in `_inflight_prefill_reserved_blocks`. -/
def reservedBlocksOf (s : Scheduler H K) : List Ref → Except PyErr ℕ
  | [] => .ok 0
  | ref :: rest => do
    let n ← KvCache.requestRemainingBlocks s.kv (s.objs ref) s.config.maxModelLen
    let m ← s.reservedBlocksOf rest
    pure (n + m)

/-- The blocks that an asynchronous load has to leave to prefills in flight. -/
def reservedBlocks (a : Admission) : Except PyErr ℕ :=
  if a.loadKvAsync then s.reservedBlocksOf s.inflightPrefills else .ok 0

/-- The arguments of `allocate_slots` for a waiting request. -/
def admissionArgs (a : Admission) (chunk : Chunk) (reserved : ℕ) :
    AllocateSlotsArgs :=
  { numNewTokens := chunk.numNewTokens
    numNewComputedTokens := a.numNewLocalComputedTokens
    newComputedBlocks := a.newComputedBlocks
    numLookaheadTokens := if a.loadKvAsync then 0 else s.config.numLookaheadTokens
    numExternalComputedTokens := a.numExternalComputedTokens
    delayCacheBlocks := a.loadKvAsync
    fullSequenceMustFit := s.config.schedulerReserveFullIsl
    reservedBlocks := reserved
    hasScheduledReqs := !s.running.isEmpty }

/-! ## Admission -/

/-- A request waits for its blocks to be loaded. -/
def enterLoading (which : WaitingQueue) (ref : Ref) (a : Admission) (x : Scheduler H K × Pass) :
    Scheduler H K × Pass :=
  let (s, p) := x
  let s := (s.popWaiting which).modifyReq ref fun r =>
    { r with status := .waitingForRemoteKvs, numComputedTokens := a.numComputedTokens }
  ({ s with inflightPrefills := setAdd ref s.inflightPrefills },
    { p with stepSkippedWaiting := s.prependTo p.stepSkippedWaiting ref })

/-- A request moves to the running queue and enters the pass. -/
def enterAdmitted (which : WaitingQueue) (ref : Ref) (a : Admission) (chunk : Chunk)
    (resumed : Bool) (x : Scheduler H K × Pass) : Scheduler H K × Pass :=
  let (s, p) := x
  let r := s.objs ref
  let s := (s.popWaiting which).modifyReq ref (·.setRunning a.numComputedTokens)
  ({ s with
      running := s.running ++ [ref]
      inflightPrefills :=
        if a.numComputedTokens + chunk.numNewTokens < r.numTokens then
          setAdd ref s.inflightPrefills
        else s.inflightPrefills },
    { p with
      hasSyncKvLoads := p.hasSyncKvLoads || decide (0 < a.numExternalComputedTokens)
      scheduledNewReqs := if resumed then p.scheduledNewReqs else p.scheduledNewReqs ++ [ref]
      scheduledResumedReqs :=
        if resumed then p.scheduledResumedReqs ++ [ref] else p.scheduledResumedReqs
      scheduledLoras := match s.config.maxLoras, r.loraRequest with
        | some _, some lora => setAdd lora.loraIntId p.scheduledLoras
        | _, _ => p.scheduledLoras
      reqToNewBlocks := p.reqToNewBlocks.set r.requestId (KvCache.getBlocks s.kv r.requestId)
      numScheduledTokens := p.numScheduledTokens.set r.requestId chunk.numNewTokens
      tokenBudget := p.tokenBudget - chunk.numNewTokens
      inputBudget := p.inputBudget - (chunk.numNewTokens + s.config.draftSlots)
      scheduledSpecDecodeTokens :=
        if chunk.padSpecDecode then
          p.scheduledSpecDecodeTokens.set r.requestId (List.replicate s.config.numSpecTokens (-1))
        else p.scheduledSpecDecodeTokens })

/-- Move a request with its blocks out of the waiting queue. -/
def admitRequest (which : WaitingQueue) (ref : Ref) (a : Admission) (chunk : Chunk) :
    PassM H K Unit := do
  let (s, _) ← get
  if a.loadKvAsync then modify (enterLoading which ref a)
  else if chunk.padSpecDecode ∧ chunk.numNewTokens ≠ 1 + s.config.numSpecTokens then
    throw (.assertion .paddedTokens)
  else
    match (s.objs ref).status with
    | .waiting =>
      modify (enterAdmitted which ref a chunk false)
      allocateEncoderInputs ref chunk.schedule
    | .preempted =>
      modify (enterAdmitted which ref a chunk true)
      allocateEncoderInputs ref chunk.schedule
    | status => throw (.py (.runtimeError ("Invalid request status: " ++ status.name)))

/-- Give a waiting request its blocks and admit it; false ends the loop. -/
def allocateAndAdmit (which : WaitingQueue) (ref : Ref) (a : Admission) (chunk : Chunk) :
    PassM H K Bool := do
  let (s, _) ← get
  let reserved ← liftPy (s.reservedBlocks a)
  let newBlocks ← onSched (onKv
    (KvCache.allocateSlots (s.objs ref) (s.admissionArgs a chunk reserved)))
  match newBlocks with
  | some _ =>
    admitRequest which ref a chunk
    pure true
  | none =>
    if (s.objs ref).hasEncoderInputs then
      onSched (onEncoder (EncoderCacheManager.free (s.objs ref)))
      pure false
    else pure false

/-- Schedule the request at the front of a waiting queue. -/
def scheduleWaiting (inp : ScheduleInput H) (which : WaitingQueue) (ref : Ref) :
    PassM H K Bool := do
  match ← findAdmission inp ref with
  | none => skipWaiting which ref
  | some a =>
    match ← findChunk ref a with
    | none => pure false
    | some chunk => allocateAndAdmit which ref a chunk

/-- One round of the waiting loop, for the request at the front of the selected queue. -/
def waitingRound (inp : ScheduleInput H) (which : WaitingQueue) (ref : Ref) : PassM H K Bool := do
  if ← onSched (staysBlocked inp.grammar ref) then skipWaiting which ref
  else
    let (s, p) ← get
    if s.mustWait p (s.objs ref) then skipWaiting which ref else scheduleWaiting inp which ref

/-- Whether the waiting loop may take another request. -/
def canAdmit (p : Pass) : Bool :=
  decide (0 < p.tokenBudget) && decide ((s.config.draftSlots : ℤ) < p.inputBudget) &&
    decide ((s.running.length : ℤ) + s.numWaitingForStreamingInput < s.config.maxNumRunningReqs)

/-- The queue that is selected, with the request at its front. -/
def frontWaiting : Option (WaitingQueue × Ref) :=
  s.selectWaitingQueue.bind fun which => (s.queue which).head?.map fun ref => (which, ref)

/-- The waiting loop. -/
def waitingLoop (inp : ScheduleInput H) : ℕ → PassM H K Unit
  | 0 => pure ()
  | fuel + 1 => do
    let (s, p) ← get
    match s.frontWaiting with
    | none => pure ()
    | some (which, ref) =>
      if s.canAdmit p then
        if ← waitingRound inp which ref then waitingLoop inp fuel else pure ()
      else pure ()

/-- Put the requests that were set aside in front of the skipped ones. -/
def requeueSkipped (x : Scheduler H K × Pass) : Scheduler H K × Pass :=
  let (s, p) := x
  ({ s with
      skippedWaiting :=
        RequestQueue.prependRequests s.config.policy s.lt s.skippedWaiting p.stepSkippedWaiting
      prefillCapacityBound :=
        if p.deferPrefills then s.prefillCapacityBound else !s.waiting.isEmpty },
    { p with stepSkippedWaiting := [] })

/-- The waiting part of `schedule`, which runs only if nothing was preempted. -/
def scheduleWaitingRequests (inp : ScheduleInput H) : PassM H K Unit := do
  let (s, p) ← get
  if p.preemptedReqs = [] ∧ s.pauseState = .unpaused then
    waitingLoop inp (s.waiting.length + s.skippedWaiting.length)
    modify requeueSkipped
  else pure ()

end Scheduler

end Lvllm
