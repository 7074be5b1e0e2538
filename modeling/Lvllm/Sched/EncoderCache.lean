import Lvllm.Foundation.Dict
import Lvllm.Foundation.StateExcept
import Lvllm.Request.Request

/-!
# The encoder cache

Outputs of the multimodal encoder are kept by the worker under the hash of the item.  The scheduler
keeps the books (`vllm/v1/core/encoder_cache_manager.py`): which hashes are cached and by which
requests they are referenced, which of them no request references and may be evicted, and how many
embeddings still fit.  An entry is evicted when space is needed, and the worker is told with the
next scheduler output.

A Python set is a list without duplicates here, in the order in which its elements were added.  The
order only decides in which order `free` gives references back.
-/

namespace Lvllm

/-! ## The model -/

/-- `PlaceholderRange.get_num_embeds`. -/
def PlaceholderRange.getNumEmbeds (range : PlaceholderRange) : ℕ :=
  match range.isEmbed with
  | none => range.length
  | some mask => mask.count true

/-- `EncoderCacheManager`. -/
structure EncoderCacheManager where
  cacheSize : ℕ
  /-- The embeddings that still fit. -/
  numFreeSlots : ℤ
  /-- The embeddings that fit once every entry without references is evicted. -/
  numFreeableSlots : ℤ
  /-- The requests that reference each cached hash. -/
  cached : Dict String (List String) := .empty
  /-- The inputs of each request that are cached. -/
  requestCachedIds : Dict String (List ℕ) := .empty
  /-- The hashes without references and their sizes, the oldest first. -/
  freeable : Dict String ℕ := .empty
  /-- The hashes evicted since the worker was last told. -/
  freed : List String := []

/-- Code of the encoder cache manager. -/
abbrev EncoderM := EStateM PyErr EncoderCacheManager

/-- `set.add`. -/
def setAdd {α : Type} [DecidableEq α] (a : α) (l : List α) : List α :=
  if a ∈ l then l else l ++ [a]

namespace Request

variable {H : Type}

/-- `request.mm_features[input_id]`. -/
def mmFeature (r : Request H) (inputId : ℕ) : Except PyErr MultiModalFeatureSpec :=
  match r.mmFeatures[inputId]? with
  | none => .error .indexError
  | some f => .ok f

/-- `get_num_encoder_embeds`. -/
def getNumEncoderEmbeds (r : Request H) (inputId : ℕ) : Except PyErr ℕ :=
  match r.mmFeatures[inputId]? with
  | none => .error .assertionError
  | some f => .ok f.mmPosition.getNumEmbeds

end Request

namespace EncoderCacheManager

variable {H : Type}

/-- A manager with nothing cached. -/
def create (cacheSize : ℕ) : EncoderCacheManager :=
  { cacheSize := cacheSize, numFreeSlots := cacheSize, numFreeableSlots := cacheSize }

/-- `reset`. -/
def reset (s : EncoderCacheManager) : EncoderCacheManager := create s.cacheSize

/-- `get_cached_input_ids`. -/
def getCachedInputIds (s : EncoderCacheManager) (requestId : String) : List ℕ :=
  (s.requestCachedIds.get? requestId).getD []

/-- Add a reference of the request to the entry of a hash. -/
def addReference (s : EncoderCacheManager) (requestId mmHash : String) (inputId : ℕ) :
    EncoderCacheManager :=
  { s with
    cached := s.cached.set mmHash (setAdd requestId ((s.cached.get? mmHash).getD []))
    requestCachedIds :=
      s.requestCachedIds.set requestId (setAdd inputId (s.getCachedInputIds requestId)) }

/-- `check_and_update_cache`. -/
def checkAndUpdateCache (request : Request H) (inputId : ℕ) : EncoderM Bool := do
  let feature ← liftExcept (request.mmFeature inputId)
  let mmHash := feature.identifier
  let s ← get
  match s.cached.get? mmHash with
  | none => pure false
  | some references =>
    if references.isEmpty then
      match s.freeable.get? mmHash with
      | none => throw .keyError
      | some numEncoderEmbeds =>
        modify fun s =>
          { s with
            freeable := s.freeable.erase mmHash
            numFreeableSlots := s.numFreeableSlots - numEncoderEmbeds }
    else pure ()
    modify fun s => s.addReference request.requestId mmHash inputId
    pure true

/-- Evict one entry: the round of the loop of `can_allocate`. -/
def evict (s : EncoderCacheManager) (mmHash : String) (numFreeEmbeds : ℕ) : EncoderCacheManager :=
  { s with
    freeable := s.freeable.erase mmHash
    cached := s.cached.erase mmHash
    freed := s.freed ++ [mmHash]
    numFreeSlots := s.numFreeSlots + numFreeEmbeds }

/-- The loop of `can_allocate`, which pops the entries of `freeable` from the oldest on.  Popping an
empty dictionary raises. -/
def evictOldest (numEmbeds : ℤ) : List (String × ℕ) → EncoderM Unit
  | [] => do
    if numEmbeds > (← get).numFreeSlots then throw .keyError else pure ()
  | (mmHash, numFreeEmbeds) :: rest => do
    if numEmbeds > (← get).numFreeSlots then
      if (← get).cached.contains mmHash then
        modify fun s => s.evict mmHash numFreeEmbeds
        evictOldest numEmbeds rest
      else
        modify fun s => { s with freeable := s.freeable.erase mmHash }
        throw .keyError
    else pure ()

/-- `can_allocate`. -/
def canAllocate (request : Request H) (inputId : ℕ) (encoderComputeBudget : ℤ)
    (numEmbedsToSchedule : ℕ) : EncoderM Bool := do
  let numEmbeds ← liftExcept (request.getNumEncoderEmbeds inputId)
  if (numEmbeds : ℤ) > encoderComputeBudget then pure false
  else
    let numEmbeds : ℤ := numEmbeds + numEmbedsToSchedule
    let s ← get
    if numEmbeds ≤ s.numFreeSlots then pure true
    else if numEmbeds > s.numFreeableSlots then pure false
    else
      evictOldest numEmbeds s.freeable.entries
      pure true

/-- `allocate`. -/
def allocate (request : Request H) (inputId : ℕ) : EncoderM Unit := do
  let feature ← liftExcept (request.mmFeature inputId)
  let mmHash := feature.identifier
  modify fun s =>
    if s.cached.contains mmHash then s else { s with cached := s.cached.set mmHash [] }
  let numEncoderEmbeds ← liftExcept (request.getNumEncoderEmbeds inputId)
  let s ← get
  if s.numFreeSlots ≥ numEncoderEmbeds ∧ s.numFreeableSlots ≥ numEncoderEmbeds then
    modify fun s =>
      { s.addReference request.requestId mmHash inputId with
        numFreeSlots := s.numFreeSlots - numEncoderEmbeds
        numFreeableSlots := s.numFreeableSlots - numEncoderEmbeds }
  else throw .assertionError

/-- Whether one of the inputs has the hash. -/
def anyWithHash (request : Request H) (mmHash : String) : List ℕ → Except PyErr Bool
  | [] => .ok false
  | otherId :: rest => do
    let feature ← request.mmFeature otherId
    if feature.identifier = mmHash then pure true else anyWithHash request mmHash rest

/-- Take an input from the cached inputs of a request, and the request out when it has no other. -/
def discardInput (s : EncoderCacheManager) (requestId : String) (inputId : ℕ) :
    EncoderCacheManager :=
  match s.requestCachedIds.get? requestId with
  | none => s
  | some ids =>
    let ids := ids.filter (· ≠ inputId)
    { s with
      requestCachedIds :=
        if ids.isEmpty then s.requestCachedIds.erase requestId
        else s.requestCachedIds.set requestId ids }

/-- Take the reference of a request to the entry of a hash back.  An entry without references can be
evicted. -/
def dropReference (s : EncoderCacheManager) (requestId mmHash : String) (references : List String)
    (numEncoderEmbeds : ℕ) : EncoderCacheManager :=
  let references := references.filter (· ≠ requestId)
  let s := { s with cached := s.cached.set mmHash references }
  if references.isEmpty then
    { s with
      freeable := s.freeable.set mmHash numEncoderEmbeds
      numFreeableSlots := s.numFreeableSlots + numEncoderEmbeds }
  else s

/-- `free_encoder_input`. -/
def freeEncoderInput (request : Request H) (inputId : ℕ) : EncoderM Unit := do
  let feature ← liftExcept (request.mmFeature inputId)
  let mmHash := feature.identifier
  modify fun s => s.discardInput request.requestId inputId
  let s ← get
  match s.cached.get? mmHash with
  | none => pure ()
  | some references =>
    if references.isEmpty then pure ()
    -- One reference covers every occurrence of the item in the request.
    else if ← liftExcept (anyWithHash request mmHash (s.getCachedInputIds request.requestId)) then
      pure ()
    else
      let numEncoderEmbeds ← liftExcept (request.getNumEncoderEmbeds inputId)
      modify fun s => s.dropReference request.requestId mmHash references numEncoderEmbeds

/-- `free`. -/
def free (request : Request H) : EncoderM Unit := do
  let s ← get
  (s.getCachedInputIds request.requestId).forM fun inputId => freeEncoderInput request inputId

/-- `get_freed_mm_hashes`: what was evicted and is not cached again. -/
def getFreedMmHashes : EncoderM (List String) := do
  let s ← get
  set { s with freed := [] }
  pure (s.freed.filter fun mmHash => !s.cached.contains mmHash)

end EncoderCacheManager

end Lvllm
