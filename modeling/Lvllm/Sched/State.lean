import Lvllm.KVCache.Manager
import Lvllm.Request.Session
import Lvllm.Sched.EncoderCache
import Lvllm.Sched.RequestQueue

/-!
# The state of the scheduler

`Scheduler` (`vllm/v1/core/sched/scheduler.py`) keeps the requests in three queues and talks to a KV
cache manager and to the encoder cache manager.  Request objects are shared: the queues, the
dictionary `requests` and the loops hold references, and a change made through one is seen through
all.  The state therefore has a store `objs` of objects, and everything else holds references into
it.

The KV cache manager is a parameter, described by the class `KvCache`; what the queues and the token
counters do does not depend on it.  `KVCacheManager`, with full attention, sliding windows and chunked
local attention, is one such manager.  The model runner, the grammar compiler and the KV connector
answer through arguments of the operations.
-/

namespace Lvllm

/-! ## Errors -/

/-- The assertions of the scheduler. -/
inductive AssertionSite where
  | maxLoras
  | computedLeTokens
  | externalTokensPositive
  | newTokensPositive
  | paddedTokens
  | totalLeMaxScheduled
  | tokenBudgetNonneg
  | inputBudgetNonneg
  | runningLeMax
  | scheduledLeRunning
  | onlyRunningPreempted
  | scheduledTokensPositive
  | staleOutputNonneg
  | placeholdersNonneg
  | duplicateRequestId
  | finishedStatus
  | streamingQueueEmpty
  | unexpectedBlockedStatus
  deriving DecidableEq, Repr

/-- What the scheduler raises: what the managers and the request raise, its own assertions, and the
errors of Python's containers. -/
inductive SchedErr where
  | py (e : PyErr)
  | assertion (site : AssertionSite)
  deriving DecidableEq, Repr

/-! ## The KV cache manager -/

open KVCacheManager (AllocateSlotsArgs)

/-- What the scheduler uses of the KV cache manager. -/
class KvCache (H : outParam Type) (K : Type) where
  newStepStarts : K → K
  getComputedBlocks : K → Request H → Except PyErr (List (List ℕ) × ℕ × ℕ)
  getComputedBlocksForConnector : K → Request H → Except PyErr (List (List ℕ) × ℕ × ℕ × Bool)
  truncateComputedBlocks : K → List (List ℕ) → ℕ → Except PyErr (List (List ℕ))
  /-- The blocks a request still needs for its whole sequence, cut at the model length. -/
  requestRemainingBlocks : K → Request H → ℕ → Except PyErr ℕ
  allocateSlots : Request H → AllocateSlotsArgs → EStateM PyErr K (Option (List (List ℕ)))
  cacheBlocks : Request H → ℕ → EStateM PyErr K Unit
  free : String → EStateM PyErr K Unit
  popBlocksForFree : String → EStateM PyErr K (List ℕ)
  freeBlocks : List ℕ → EStateM PyErr K Unit
  removeSkippedBlocks : String → ℕ → EStateM PyErr K Unit
  evictBlocks : List ℕ → EStateM PyErr K Unit
  resetPrefixCache : EStateM PyErr K Bool
  getNumCommonPrefixBlocks : String → EStateM PyErr K (List ℕ)
  takeNewBlockIds : EStateM PyErr K (List ℕ)
  takeKvCacheBlockCopies : EStateM PyErr K (List (ℕ × ℕ) × List ℕ)
  getBlocks : K → String → List (List ℕ)

/-- The manager of attention groups.  It has no Mamba layers, so a connector sees the same hits. -/
instance KVCacheManager.instKvCache {H : Type} [DecidableEq H] : KvCache H (KVCacheManager H) where
  newStepStarts s := s
  getComputedBlocks := KVCacheManager.getComputedBlocks
  getComputedBlocksForConnector s r :=
    (s.getComputedBlocks r).map fun (blocks, n, boundary) => (blocks, n, boundary, false)
  truncateComputedBlocks := KVCacheManager.truncateComputedBlocks
  requestRemainingBlocks s r maxModelLen :=
    s.getNumBlocksToAllocate r.requestId (min r.numTokens maxModelLen) [] r.numComputedTokens
      r.numComputedTokens true
  allocateSlots := KVCacheManager.allocateSlots
  cacheBlocks := KVCacheManager.cacheBlocks
  free := KVCacheManager.free
  popBlocksForFree := KVCacheManager.popBlocksForFree
  freeBlocks := KVCacheManager.freeBlocks
  removeSkippedBlocks := KVCacheManager.removeSkippedBlocks
  evictBlocks := KVCacheManager.evictBlocks
  resetPrefixCache := KVCacheManager.resetPrefixCache
  getNumCommonPrefixBlocks := KVCacheManager.getNumCommonPrefixBlocks
  takeNewBlockIds := KVCacheManager.takeNewBlockIds
  takeKvCacheBlockCopies := KVCacheManager.takeKvCacheBlockCopies
  getBlocks := KVCacheManager.getBlocks

/-! ## Configuration -/

/-- What the scheduler asks of its KV connector once. -/
structure ConnectorConfig where
  supportsDivergentLocalHybridHits : Bool := false
  /-- Whether a preempted request's output in flight must be dropped. -/
  requiresKvDelivery : Bool := false

/-- The settings that `Scheduler.__init__` reads. -/
structure SchedulerConfig (H : Type) where
  policy : SchedulingPolicy := .fcfs
  /-- Whether the scheduler is an `AsyncScheduler`. -/
  asyncScheduling : Bool := false
  /-- The hasher that requests are constructed with; none when prefix caching is off. -/
  blockHasher : Option (BlockHasher H)
  maxNumRunningReqs : ℕ
  maxNumScheduledTokens : ℕ
  maxNumBatchedTokens : ℕ
  maxModelLen : ℕ
  /-- One, or zero for a diffusion model. -/
  numSampledTokensPerStep : ℕ := 1
  longPrefillTokenThreshold : ℕ := 0
  enableChunkedPrefill : Bool := true
  disableChunkedMmInput : Bool := false
  /-- The limit on LoRA adapters, if there is a LoRA configuration. -/
  maxLoras : Option ℕ := none
  isMmEncoderOnly : Bool := false
  connector : Option ConnectorConfig := none
  recomputeKvLoadFailures : Bool := true
  deferBlockFree : Bool := false
  /-- The scheduler's block size, to which local hits are aligned for the connector. -/
  blockSize : ℕ
  hashBlockSize : ℕ
  /-- The block size of the cache configuration. -/
  cacheBlockSize : ℕ
  maxNumEncoderInputTokens : ℕ := 0
  useEagle : Bool := false
  numSpecTokens : ℕ := 0
  numLookaheadTokens : ℕ := 0
  numPrefillLookahead : ℕ := 0
  /-- The slots that drafting needs per request. -/
  draftSlots : ℕ := 0
  dynamicSdLookup : Option (List ℕ) := none
  usePp : Bool := false
  ppSize : ℕ := 1
  useV2ModelRunner : Bool := false
  schedulerReserveFullIsl : Bool := true
  needMambaBlockAlignedSplit : Bool := false
  mambaHasPrefillCheckpointBlocks : Bool := false
  mambaPartialCacheHit : Bool := false

/-- Whether output in flight is dropped at a preemption. -/
def SchedulerConfig.requiresKvDelivery {H : Type} (c : SchedulerConfig H) : Bool :=
  c.connector.any ConnectorConfig.requiresKvDelivery

/-- `PauseState`. -/
inductive PauseState where
  | unpaused
  | pausedNew
  | pausedAll
  deriving DecidableEq, Repr

/-! ## State -/

/-- The scheduler. -/
structure Scheduler (H K : Type) where
  config : SchedulerConfig H
  /-- The request objects. -/
  objs : Ref → Request H
  /-- References from this one on are not in use. -/
  nextRef : Ref
  requests : Dict String Ref := .empty
  waiting : List Ref := []
  skippedWaiting : List Ref := []
  running : List Ref := []
  finishedReqIds : List String := []
  resetPreemptedReqIds : List String := []
  prevStepScheduledReqIds : List String := []
  numWaitingForStreamingInput : ℤ := 0
  finishedRecvingKvReqIds : List String := []
  failedRecvingKvReqIds : List String := []
  grammarCompileErrorReqs : List String := []
  encoder : EncoderCacheManager
  kv : K
  currentStep : ℕ := 0
  schedStepSeq : ℕ := 0
  processedStepSeq : ℕ := 0
  /-- Blocks to free once the step of the given number is processed. -/
  deferredFrees : List (ℕ × List ℕ) := []
  prefillCapacityBound : Bool := false
  pauseState : PauseState := .unpaused
  inflightPrefills : List Ref := []
  /-- The placeholders of the draft tokens of the next step. -/
  specTokenPlaceholders : List Token := []

/-- Code of the scheduler. -/
abbrev SchedM (H K : Type) := EStateM SchedErr (Scheduler H K)

/-- A computation that raises as the managers do. -/
def liftPy {σ α : Type} : Except PyErr α → EStateM SchedErr σ α
  | .ok a => pure a
  | .error e => throw (.py e)

lemma liftPy_eq_ok {σ α : Type} {x : Except PyErr α} {s s' : σ} {a : α} :
    (liftPy x : EStateM SchedErr σ α) s = .ok a s' ↔ x = .ok a ∧ s' = s := by
  cases x with
  | ok b =>
    constructor
    · intro h
      cases h
      exact ⟨rfl, rfl⟩
    · rintro ⟨heq, rfl⟩
      cases heq
      rfl
  | error e => simp [liftPy]

namespace Scheduler

variable {H K : Type}

/-- Run code on a component, raising what it raises. -/
def onPart {σ τ α : Type} (get : τ → σ) (put : τ → σ → τ) (m : EStateM PyErr σ α) :
    EStateM SchedErr τ α := fun t =>
  match m (get t) with
  | .ok a s' => .ok a (put t s')
  | .error e s' => .error (.py e) (put t s')

lemma onPart_eq_ok {σ τ α : Type} {get : τ → σ} {put : τ → σ → τ} {m : EStateM PyErr σ α}
    {t t' : τ} {a : α} :
    onPart get put m t = .ok a t' ↔ ∃ s', m (get t) = .ok a s' ∧ t' = put t s' := by
  unfold onPart
  cases m (get t) with
  | ok b s' =>
    constructor
    · intro h
      cases h
      exact ⟨s', rfl, rfl⟩
    · rintro ⟨s1, heq, rfl⟩
      cases heq
      rfl
  | error e s' => simp

/-- Run code of the KV cache manager. -/
def onKv {α : Type} (m : EStateM PyErr K α) : SchedM H K α :=
  onPart (fun s : Scheduler H K => s.kv) (fun s k => { s with kv := k }) m

/-- Run code of the encoder cache manager. -/
def onEncoder {α : Type} (m : EncoderM α) : SchedM H K α :=
  onPart (fun s : Scheduler H K => s.encoder) (fun s e => { s with encoder := e }) m

/-- Change a request object. -/
def modifyReq (s : Scheduler H K) (ref : Ref) (f : Request H → Request H) : Scheduler H K :=
  { s with objs := Function.update s.objs ref (f (s.objs ref)) }

@[simp] lemma modifyReq_objs_self (s : Scheduler H K) (ref : Ref) (f : Request H → Request H) :
    (s.modifyReq ref f).objs ref = f (s.objs ref) :=
  Function.update_self _ _ _

@[simp] lemma modifyReq_objs_of_ne (s : Scheduler H K) {ref ref' : Ref} (h : ref' ≠ ref)
    (f : Request H → Request H) : (s.modifyReq ref f).objs ref' = s.objs ref' :=
  Function.update_of_ne h _ _

/-- `Request.__lt__` on references; objects of equal ids are told apart by their addresses. -/
def lt (s : Scheduler H K) (a b : Ref) : Bool := (s.objs a).lt (s.objs b) (decide (a < b))

/-- `add_request` of a queue. -/
def addTo (s : Scheduler H K) (queue : List Ref) (ref : Ref) : List Ref :=
  RequestQueue.addRequest s.config.policy s.lt queue ref

/-- `prepend_request` of a queue. -/
def prependTo (s : Scheduler H K) (queue : List Ref) (ref : Ref) : List Ref :=
  RequestQueue.prependRequest s.config.policy s.lt queue ref

/-- `pop_request` of a queue. -/
def popFrom (s : Scheduler H K) (queue : List Ref) : List Ref :=
  RequestQueue.popRequest s.config.policy s.lt queue

/-- `remove_requests` of a queue. -/
def removeFrom (s : Scheduler H K) (queue refs : List Ref) : List Ref :=
  RequestQueue.removeRequests s.config.policy s.lt queue refs

/-- `_is_blocked_waiting_status`. -/
def isBlockedWaitingStatus : RequestStatus → Bool
  | .waitingForStructuredOutputGrammar => true
  | .waitingForRemoteKvs => true
  | .waitingForStreamingReq => true
  | _ => false

/-- `_enqueue_waiting_request`. -/
def enqueueWaitingRequest (s : Scheduler H K) (ref : Ref) : Scheduler H K :=
  if isBlockedWaitingStatus (s.objs ref).status then
    { s with skippedWaiting := s.addTo s.skippedWaiting ref }
  else { s with waiting := s.addTo s.waiting ref }

end Scheduler

/-! ## Scheduler output -/

/-- The part of `NewRequestData` that depends on the scheduler's state. -/
structure NewRequestData where
  reqId : String
  blockIds : List (List ℕ)
  numComputedTokens : ℕ
  /-- All tokens, for the second model runner. -/
  prefillTokenIds : Option (List Token)

/-- `CachedRequestData`. -/
structure CachedRequestData where
  reqIds : List String
  resumedReqIds : List String
  newTokenIds : List (List Token)
  allTokenIds : List (String × List Token)
  newBlockIds : List (Option (List (List ℕ)))
  numComputedTokens : List ℕ
  numOutputTokens : List ℤ

/-- `SchedulerOutput`. -/
structure SchedulerOutput where
  scheduledNewReqs : List NewRequestData
  scheduledCachedReqs : CachedRequestData
  numScheduledTokens : Dict String ℕ
  totalNumScheduledTokens : ℕ
  scheduledSpecDecodeTokens : Dict String (List Token)
  scheduledEncoderInputs : Dict String (List ℕ)
  numCommonPrefixBlocks : List ℕ
  preemptedReqIds : List String
  finishedReqIds : List String
  freeEncoderMmHashes : List String
  hasSyncKvLoads : Bool
  kvCacheBlockCopies : List (ℕ × ℕ)
  numSpecTokensToSchedule : ℕ
  hasStructuredOutputRequests : Bool := false
  pendingStructuredOutputTokens : Bool := false

end Lvllm
