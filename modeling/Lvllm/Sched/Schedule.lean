import Lvllm.Sched.Tokens

/-!
# `Scheduler.schedule`

One call makes a pass over the queues.  The running requests come first; when one of them does not
get its blocks, requests are preempted until it does or is preempted itself.  If nothing was
preempted, waiting requests are admitted.  The variables of the call are the structure `Pass`.

The two loops are bounded by the queues they consume: the running loop moves its cursor towards the
end of the queue in each round, and the waiting loop takes a request off a queue in each round.
-/

namespace Lvllm

open KVCacheManager (AllocateSlotsArgs)

/-- The answers of the grammar compiler about a request. -/
inductive GrammarState where
  | compiling
  | failed
  | ready
  deriving DecidableEq, Repr

/-- What a call of `schedule` gets from outside: whether prefills are throttled, the state of each
grammar, and the connector's match of a request and a number of local tokens. -/
structure ScheduleInput (H : Type) where
  throttlePrefills : Bool := false
  grammar : Request H → GrammarState := fun _ => .ready
  /-- `get_num_new_matched_tokens`: the tokens, unless they are not known yet, and whether they are
  loaded asynchronously. -/
  numNewMatchedTokens : Request H → ℕ → Option ℕ × Bool := fun _ _ => (some 0, false)

/-- The variables of a call of `schedule`.  `encoderHits` and `withdrawn` are not in the source: they
record the items that were found in the encoder cache, and the requests that were preempted after
they had been scheduled in this call. -/
structure Pass where
  tokenBudget : ℤ
  inputBudget : ℤ
  encoderComputeBudget : ℤ
  deferPrefills : Bool := false
  reqIndex : ℕ := 0
  scheduledNewReqs : List Ref := []
  scheduledResumedReqs : List Ref := []
  scheduledRunningReqs : List Ref := []
  preemptedReqs : List Ref := []
  reqToNewBlocks : Dict String (List (List ℕ)) := .empty
  numScheduledTokens : Dict String ℕ := .empty
  scheduledEncoderInputs : Dict String (List ℕ) := .empty
  scheduledSpecDecodeTokens : Dict String (List Token) := .empty
  prefillScheduled : Bool := false
  hasSyncKvLoads : Bool := false
  scheduledLoras : List ℤ := []
  stepSkippedWaiting : List Ref := []
  encoderHits : List String := []
  withdrawn : List Ref := []

/-- Code of a call of `schedule`. -/
abbrev PassM (H K : Type) := EStateM SchedErr (Scheduler H K × Pass)

namespace Scheduler

variable {H K : Type}

/-- Run code of the scheduler in a pass. -/
def onSched {α : Type} (m : SchedM H K α) : PassM H K α :=
  zoomWith (fun x : Scheduler H K × Pass => x.1) (fun x s => (s, x.2)) m

variable [KvCache H K]

/-! ## Preemption -/

/-- `_free_request_blocks`. -/
def freeRequestBlocks (ref : Ref) : SchedM H K Unit := do
  let s ← get
  let r := s.objs ref
  if s.config.deferBlockFree = false ∨ r.lastSchedSeq ≤ s.processedStepSeq then
    onKv (KvCache.free r.requestId)
  else
    let blocks ← onKv (KvCache.popBlocksForFree r.requestId)
    modify fun s =>
      if blocks.isEmpty then s
      else { s with deferredFrees := s.deferredFrees ++ [(s.schedStepSeq, blocks)] }

/-- The part of `_preempt_request` behind the frees. -/
def toPreempted (s : Scheduler H K) (ref : Ref) (dropStaleOutput : Bool) : Scheduler H K :=
  let s := s.modifyReq ref (·.preempt dropStaleOutput)
  { s with
    inflightPrefills := s.inflightPrefills.filter (· ≠ ref)
    waiting := s.prependTo s.waiting ref
    resetPreemptedReqIds := setAdd (s.objs ref).requestId s.resetPreemptedReqIds }

/-- `_preempt_request`. -/
def preemptRequest (ref : Ref) (dropStaleOutput : Bool) : SchedM H K Unit := do
  let s ← get
  if (s.objs ref).status = .running then
    freeRequestBlocks ref
    onEncoder (EncoderCacheManager.free (s.objs ref))
    modify fun s => s.toPreempted ref dropStaleOutput
  else throw (.assertion .onlyRunningPreempted)

/-- Whether a request has a smaller key of priority and arrival time than another. -/
def keyLt (s : Scheduler H K) (a b : Ref) : Bool :=
  let a := s.objs a
  let b := s.objs b
  decide (a.priority < b.priority ∨ a.priority = b.priority ∧ a.arrivalTime < b.arrivalTime)

/-- The first running request with the largest key. -/
def lowestPriority (s : Scheduler H K) : Option Ref :=
  match s.running with
  | [] => none
  | ref :: rest => some (rest.foldl (fun best x => if s.keyLt best x then x else best) ref)

/-- The sum of the embeddings of scheduled inputs. -/
def sumEncoderEmbeds (r : Request H) : List ℕ → Except PyErr ℕ
  | [] => .ok 0
  | inputId :: rest => do
    let n ← r.getNumEncoderEmbeds inputId
    let m ← sumEncoderEmbeds r rest
    pure (n + m)

/-- Take a request that was scheduled in this pass out of it, restoring the budgets. -/
def withdraw (ref : Ref) : PassM H K Unit := do
  let (s, p) ← get
  let r := s.objs ref
  if ref ∈ p.scheduledRunningReqs then
    match p.numScheduledTokens.get? r.requestId, p.reqToNewBlocks.get? r.requestId with
    | some restored, some _ =>
      let numEmbedsToRestore ← liftPy
        (sumEncoderEmbeds r ((p.scheduledEncoderInputs.get? r.requestId).getD []))
      set (s, { p with
        scheduledRunningReqs := p.scheduledRunningReqs.erase ref
        numScheduledTokens := p.numScheduledTokens.erase r.requestId
        tokenBudget := p.tokenBudget + restored
        inputBudget := p.inputBudget + (restored + s.config.draftSlots)
        reqToNewBlocks := p.reqToNewBlocks.erase r.requestId
        scheduledSpecDecodeTokens := p.scheduledSpecDecodeTokens.erase r.requestId
        scheduledEncoderInputs := p.scheduledEncoderInputs.erase r.requestId
        encoderComputeBudget := p.encoderComputeBudget + numEmbedsToRestore
        withdrawn := p.withdrawn ++ [ref] })
    | _, _ => throw (.py .keyError)
  else pure ()

/-- Take the request to preempt off the running queue: the one of lowest priority, which may have
been scheduled already, or the last one. -/
def takeVictim : PassM H K Ref := do
  let (s, p) ← get
  match s.config.policy with
  | .priority =>
    match s.lowestPriority with
    | none => throw (.py (.valueError "max() arg is an empty sequence"))
    | some victim =>
      let victimIndex := s.running.idxOf victim
      set ({ s with running := s.running.eraseIdx victimIndex },
        { p with reqIndex := if victimIndex < p.reqIndex then p.reqIndex - 1 else p.reqIndex })
      withdraw victim
      pure victim
  | .fcfs =>
    match s.running.getLast? with
    | none => throw (.py .indexError)
    | some victim =>
      set ({ s with running := s.running.dropLast }, p)
      pure victim

/-- The loop around `allocate_slots` of a running request: preempt requests until the blocks fit or
the request itself is preempted.  A round that goes on takes a request off the running queue. -/
def allocateOrPreempt (ref : Ref) (numNewTokens : ℕ) :
    ℕ → PassM H K (Option (List (List ℕ)))
  | 0 => pure none
  | fuel + 1 => do
    let (s, _) ← get
    let newBlocks ← onSched (onKv (KvCache.allocateSlots (s.objs ref)
      { numNewTokens := numNewTokens, numLookaheadTokens := s.config.numLookaheadTokens }))
    match newBlocks with
    | some blocks => pure (some blocks)
    | none =>
      let victim ← takeVictim
      onSched (preemptRequest victim s.config.requiresKvDelivery)
      modify fun (s, p) => (s, { p with preemptedReqs := p.preemptedReqs ++ [victim] })
      if victim = ref then pure none else allocateOrPreempt ref numNewTokens fuel

/-! ## Running requests -/

/-- Whether the running loop passes over a request: its last step in flight is sure to reach the
limit of output tokens, it has to wait for its turn in the pipeline, or prefills are deferred. -/
def passesOver (s : Scheduler H K) (p : Pass) (r : Request H) : Bool :=
  (decide (0 < r.numOutputPlaceholders) &&
      decide ((r.numComputedTokens : ℤ) + 2 - r.numOutputPlaceholders ≥
        (r.numPromptTokens + r.maxTokens : ℕ))) ||
    decide (s.currentStep < r.nextDecodeEligibleStep) ||
    (p.deferPrefills && r.isPrefillChunk)

/-- The new tokens of a running request before encoder inputs are looked at. -/
def runningNumNewTokens (s : Scheduler H K) (p : Pass) (r : Request H) : ℤ :=
  let c := s.config
  let n : ℤ := r.numTokensWithSpec + r.numOutputPlaceholders - r.numComputedTokens
  let n : ℤ :=
    if 0 < c.longPrefillTokenThreshold ∧ (c.longPrefillTokenThreshold : ℤ) < n then
      c.longPrefillTokenThreshold
    else n
  let n := min (min n p.tokenBudget) (p.inputBudget - c.draftSlots)
  -- The input position stays below the length of the model.
  let n := min n ((c.maxModelLen : ℤ) - r.numComputedTokens - c.numSampledTokensPerStep)
  if c.needMambaBlockAlignedSplit then c.mambaBlockAlignedSplit r r.numComputedTokens n else n

/-- Schedule the encoder inputs of a chunk, if the request has any. -/
def scheduleEncoderInputs (ref : Ref) (numComputedTokens : ℕ) (numNewTokens : ℤ) :
    PassM H K EncoderSchedule := do
  let (s, p) ← get
  let r := s.objs ref
  if r.hasEncoderInputs then
    let schedule ← onSched (onEncoder (tryScheduleEncoderInputs s.config r numComputedTokens
      numNewTokens p.encoderComputeBudget))
    modify fun (s, p) => (s, { p with encoderHits := p.encoderHits ++ schedule.cachedHashes })
    pure schedule
  else pure (.none numNewTokens p.encoderComputeBudget)

/-- Allocate the encoder cache for the inputs of a scheduled request. -/
def allocateEncoderInputs (ref : Ref) (schedule : EncoderSchedule) : PassM H K Unit := do
  let (s, p) ← get
  let r := s.objs ref
  if schedule.encoderInputsToSchedule.isEmpty then pure ()
  else
    set (s, { p with
      scheduledEncoderInputs :=
        p.scheduledEncoderInputs.set r.requestId schedule.encoderInputsToSchedule
      encoderComputeBudget := schedule.encoderComputeBudget })
    onSched (onEncoder (schedule.encoderInputsToSchedule.forM fun inputId =>
      EncoderCacheManager.allocate r inputId))

/-- The draft tokens that a chunk of a running request covers. -/
def specTokensOf (r : Request H) (numNewTokens : ℕ) : List Token :=
  let numScheduledSpecTokens : ℤ :=
    (numNewTokens : ℤ) + r.numComputedTokens - r.numTokens - r.numOutputPlaceholders
  r.specTokenIds.take numScheduledSpecTokens.toNat

/-- Enter a running request into the pass. -/
def enterRunning (ref : Ref) (numNewTokens : ℕ) (newBlocks : List (List ℕ))
    (x : Scheduler H K × Pass) : Scheduler H K × Pass :=
  let (s, p) := x
  let r := s.objs ref
  let specTokenIds := specTokensOf r numNewTokens
  (s.modifyReq ref fun r => { r with specTokenIds := [] },
    { p with
      scheduledRunningReqs := p.scheduledRunningReqs ++ [ref]
      prefillScheduled := p.prefillScheduled || r.isPrefillChunk
      reqToNewBlocks := p.reqToNewBlocks.set r.requestId newBlocks
      numScheduledTokens := p.numScheduledTokens.set r.requestId numNewTokens
      tokenBudget := p.tokenBudget - numNewTokens
      inputBudget := p.inputBudget - (numNewTokens + s.config.draftSlots)
      reqIndex := p.reqIndex + 1
      scheduledSpecDecodeTokens :=
        if specTokenIds.isEmpty then p.scheduledSpecDecodeTokens
        else p.scheduledSpecDecodeTokens.set r.requestId specTokenIds })

/-- Go on with the next running request. -/
def nextRunning : PassM H K Bool := do
  modify fun (s, p) => (s, { p with reqIndex := p.reqIndex + 1 })
  pure true

/-- Give a running request its blocks and schedule it; false when it was preempted itself. -/
def scheduleRunning (ref : Ref) (numNewTokens : ℕ) (schedule : EncoderSchedule) :
    PassM H K Bool := do
  let (s, _) ← get
  match ← allocateOrPreempt ref numNewTokens (s.running.length + 1) with
  | none => pure false
  | some newBlocks =>
    modify (enterRunning ref numNewTokens newBlocks)
    allocateEncoderInputs ref schedule
    pure true

/-- One round of the running loop, for the request at the cursor; false ends the loop. -/
def runningRound (ref : Ref) : PassM H K Bool := do
  let (s, p) ← get
  let r := s.objs ref
  if p.inputBudget ≤ s.config.draftSlots then pure false
  else if s.passesOver p r then nextRunning
  else
    let schedule ← scheduleEncoderInputs ref r.numComputedTokens (s.runningNumNewTokens p r)
    let numNewTokens :=
      s.config.reservePrefillLookahead r r.numComputedTokens schedule.numNewTokens
    if numNewTokens = 0 then nextRunning else scheduleRunning ref numNewTokens.toNat schedule

/-- The running loop. -/
def runningLoop : ℕ → PassM H K Unit
  | 0 => pure ()
  | fuel + 1 => do
    let (s, p) ← get
    match s.running[p.reqIndex]? with
    | none => pure ()
    | some ref =>
      if 0 < p.tokenBudget then
        if ← runningRound ref then runningLoop fuel else pure ()
      else pure ()

end Scheduler

end Lvllm
