import Mathlib.Data.Rat.Defs
import Mathlib.Data.List.Basic

/-!
# Requests

The engine-core request record (`vllm/v1/request.py`) and the small data types it is made of:
statuses, sampling parameters, multimodal features and streaming updates.  Tokens are Python
integers; block hashes live in an arbitrary type `H`, since the scheduler and the prefix cache
only ever compare them for equality.

`Request` keeps every field that scheduling, hashing or stopping reads.  Metrics, trace headers
and connector parameters are read by none of these and are left out.
-/

namespace Lvllm

/-- A token id. -/
abbrev Token := ℤ

/-- The exceptions the modelled code raises. -/
inductive PyErr where
  | assertionError
  | valueError (msg : String)
  | runtimeError (msg : String)
  | indexError
  | keyError
  | nameError
  deriving DecidableEq, Repr

/-- `RequestStatus`, in the order of the source. -/
inductive RequestStatus where
  | waiting
  | waitingForStructuredOutputGrammar
  | waitingForRemoteKvs
  | waitingForStreamingReq
  | running
  | preempted
  | finishedStopped
  | finishedLengthCapped
  | finishedAborted
  | finishedIgnored
  | finishedError
  | finishedRepetition
  deriving DecidableEq, Repr

/-- The value of a status as an `IntEnum` member. -/
def RequestStatus.value : RequestStatus → ℕ
  | waiting => 1
  | waitingForStructuredOutputGrammar => 2
  | waitingForRemoteKvs => 3
  | waitingForStreamingReq => 4
  | running => 5
  | preempted => 6
  | finishedStopped => 7
  | finishedLengthCapped => 8
  | finishedAborted => 9
  | finishedIgnored => 10
  | finishedError => 11
  | finishedRepetition => 12

/-- Any status after `preempted` counts as finished. -/
def RequestStatus.isFinished (s : RequestStatus) : Bool :=
  decide (RequestStatus.preempted.value < s.value)

/-- Where the placeholder tokens of a multimodal item sit in the prompt. -/
structure PlaceholderRange where
  /-- The start index of the placeholder in the prompt. -/
  offset : ℕ
  /-- The length of the placeholder. -/
  length : ℕ
  /-- Which of the positions take an embedding; every one if absent. -/
  isEmbed : Option (List Bool) := none
  deriving DecidableEq, Repr

/-- The part of `MultiModalFeatureSpec` that hashing and scheduling read. -/
structure MultiModalFeatureSpec where
  /-- The hash under which the encoder output is cached. -/
  identifier : String
  /-- The location of the item's placeholder tokens in the prompt. -/
  mmPosition : PlaceholderRange
  deriving DecidableEq, Repr

/-- Parameters of repetition detection. -/
structure RepetitionDetectionParams where
  /-- The longest pattern looked for. -/
  maxPatternSize : ℤ
  /-- The shortest pattern looked for. -/
  minPatternSize : ℤ
  /-- How often a pattern must occur. -/
  minCount : ℤ
  deriving DecidableEq, Repr

/-- The sampling parameters that scheduling and stopping read. -/
structure SamplingParams where
  /-- The most output tokens to produce. -/
  maxTokens : ℕ
  /-- The fewest output tokens before repetition may stop the request. -/
  minTokens : ℕ := 0
  /-- The end-of-sequence token, if generation stops on it. -/
  eosTokenId : Option Token := none
  /-- Further tokens that stop generation. -/
  stopTokenIds : List Token := []
  /-- Repetition detection, if it is on. -/
  repetitionDetection : Option RepetitionDetectionParams := none
  /-- Whether some structured-output constraint is set. -/
  structuredOutputs : Bool := false
  /-- Overrides whether the prefix cache is read. -/
  skipReadingPrefixCache : Option Bool := none
  deriving DecidableEq, Repr

/-- The pooling parameters that scheduling reads. -/
structure PoolingParams where
  /-- Overrides whether the prefix cache is read. -/
  skipReadingPrefixCache : Option Bool := none
  deriving DecidableEq, Repr

/-- A LoRA adapter request. -/
structure LoRARequest where
  /-- The adapter's name, which enters block hashes. -/
  loraName : String
  /-- The adapter's id, which scheduling limits. -/
  loraIntId : ℤ
  deriving DecidableEq, Repr

/-- `Request.stop_reason`: a token or a text. -/
inductive StopReason where
  | token (t : Token)
  | text (s : String)
  deriving DecidableEq, Repr

/-- The data with which a streaming session is continued. -/
structure StreamingUpdate where
  /-- The new multimodal features. -/
  mmFeatures : Option (List MultiModalFeatureSpec)
  /-- The new prompt tokens. -/
  promptTokenIds : Option (List Token)
  /-- The new limit on output tokens. -/
  maxTokens : ℕ
  /-- When the update arrived. -/
  arrivalTime : ℚ
  /-- The new sampling parameters. -/
  samplingParams : Option SamplingParams
  deriving DecidableEq, Repr

/-- A request as the front end hands it to the engine core. -/
structure EngineCoreRequest where
  requestId : String
  promptTokenIds : Option (List Token)
  /-- The prompt embeddings, one byte string per row. -/
  promptEmbeds : Option (List (List UInt8)) := none
  /-- In a mixed prompt, the positions that hold token ids. -/
  promptIsTokenIds : Option (List Bool) := none
  mmFeatures : List MultiModalFeatureSpec := []
  samplingParams : Option SamplingParams
  poolingParams : Option PoolingParams := none
  arrivalTime : ℚ := 0
  loraRequest : Option LoRARequest := none
  cacheSalt : Option String := none
  priority : ℤ := 0
  resumable : Bool := false
  abortImmediately : Bool := false
  deriving DecidableEq, Repr

/-- `Request`: the engine core's mutable record of one request. -/
structure Request (H : Type) where
  requestId : String
  priority : ℤ
  samplingParams : Option SamplingParams
  poolingParams : Option PoolingParams
  loraRequest : Option LoRARequest
  /-- Whether `structured_output_request` is present. -/
  useStructuredOutput : Bool
  arrivalTime : ℚ
  status : RequestStatus
  stopReason : Option StopReason := none
  maxTokens : ℕ
  promptTokenIds : Option (List Token)
  promptEmbeds : Option (List (List UInt8))
  numPromptTokens : ℕ
  outputTokenIds : List Token := []
  allTokenIds : List Token
  /-- Output tokens scheduled but not yet sampled (async scheduling). -/
  numOutputPlaceholders : ℤ := 0
  /-- Tokens of output that was in flight when the request was preempted. -/
  numStaleOutputTokens : ℤ := 0
  /-- Whether stale output is dropped rather than delivered. -/
  dropStaleOutput : Bool := false
  /-- Tokens of steps whose output has not been processed. -/
  numInFlightTokens : ℤ := 0
  nextDecodeEligibleStep : ℕ := 0
  /-- The sequence number of the last step the request was scheduled in. -/
  lastSchedSeq : ℕ := 0
  specTokenIds : List Token := []
  numComputedTokens : ℕ := 0
  cacheSalt : Option String
  mmFeatures : List MultiModalFeatureSpec
  /-- Whether the last scheduled chunk left part of the prefill to do. -/
  isPrefillChunk : Bool := false
  sharedPrefixBoundary : ℕ := 0
  numPreemptions : ℕ := 0
  blockHashes : List H := []
  skipReadingPrefixCache : Bool
  resumable : Bool
  /-- Pending updates of a streaming session; an entry `none` ends the session. -/
  streamingQueue : Option (List (Option StreamingUpdate)) := none
  abortImmediately : Bool

namespace Request

variable {H : Type}

/-- The number of tokens known so far, prompt and output. -/
def numTokens (r : Request H) : ℕ := r.allTokenIds.length

/-- The number of tokens including the draft tokens proposed for the next step. -/
def numTokensWithSpec (r : Request H) : ℕ := r.allTokenIds.length + r.specTokenIds.length

/-- The number of output tokens. -/
def numOutputTokens (r : Request H) : ℕ := r.outputTokenIds.length

/-- Whether the request has multimodal inputs to encode. -/
def hasEncoderInputs (r : Request H) : Bool := !r.mmFeatures.isEmpty

/-- Whether the request has finished. -/
def isFinished (r : Request H) : Bool := r.status.isFinished

end Request

/-- `StreamingUpdate.from_request`: a request without `resumable` ends the session. -/
def StreamingUpdate.fromRequest {H : Type} (r : Request H) : Option StreamingUpdate :=
  if r.resumable then
    some {
      mmFeatures := some r.mmFeatures
      promptTokenIds := r.promptTokenIds
      maxTokens := r.maxTokens
      arrivalTime := r.arrivalTime
      samplingParams := r.samplingParams }
  else none

end Lvllm
