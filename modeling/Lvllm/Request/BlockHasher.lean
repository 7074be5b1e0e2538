import Lvllm.Foundation.HashChain
import Lvllm.Request.Request

/-!
# Hashing the blocks of a request

`get_request_block_hasher` and the functions below it (`vllm/v1/core/kv_cache_utils.py`): a
request's tokens are cut into blocks of `hash_block_size` tokens, and each full block is hashed
together with the hash of its predecessor and with extra keys (LoRA name, multimodal items in
the block, cache salt, prompt embeddings).  Hashing is incremental: `updateBlockHashes` hashes
only the blocks completed since the last call.

The hash function is a parameter.  What it is applied to is the inductive type `HashInput`, so
that "the hash function is injective" is a statement about the tuples the source builds.
-/

namespace Lvllm

/-- One entry of the `extra_keys` tuple of a block. -/
inductive ExtraKey where
  /-- A LoRA name or a cache salt. -/
  | str (s : String)
  /-- A multimodal item with its offset relative to the start of the block. -/
  | mm (identifier : String) (offset : ℤ)
  /-- The digest of the prompt embeddings of the block. -/
  | bytes (digest : List UInt8)
  deriving DecidableEq, Repr

/-- What the caching hash function is applied to: the seed of `NONE_HASH`, or the tuple of
parent hash, block tokens and extra keys. -/
inductive HashInput (H : Type) where
  | seed (s : String)
  | block (parent : H) (tokens : List Token) (extraKeys : Option (List ExtraKey))
  deriving DecidableEq, Repr

/-- The parameters closed over by `get_request_block_hasher`, with the hash primitives the
module uses. -/
structure BlockHasher (H : Type) where
  /-- The number of tokens in a hashed block. -/
  hashBlockSize : ℕ
  /-- Blocks are not empty. -/
  hashBlockSize_pos : 0 < hashBlockSize
  /-- The caching hash function. -/
  cachingHashFn : HashInput H → H
  /-- The digest of raw tensor bytes. -/
  sha256 : List UInt8 → List UInt8
  /-- The seed string of `NONE_HASH`. -/
  noneHashSeed : String := "vllm-none-hash"
  /-- The empty byte string, which Python takes for false. -/
  emptyBytes : H

variable {H : Type}

/-- `NONE_HASH`: the parent hash of a first block. -/
def BlockHasher.noneHash (bh : BlockHasher H) : H := bh.cachingHashFn (.seed bh.noneHashSeed)

/-- The `while` loop of `_gen_mm_extra_hash_keys` over the features from index `idx` on. -/
def genMmExtraHashKeysLoop (startTokenIdx endTokenIdx : ℕ) :
    List MultiModalFeatureSpec → ℤ → List ExtraKey × ℤ
  | [], idx => ([], idx)
  | f :: fs, idx =>
    let offset := f.mmPosition.offset
    let length := f.mmPosition.length
    if endTokenIdx > offset then
      if startTokenIdx ≥ offset + length then
        -- This block has passed the current item.
        genMmExtraHashKeysLoop startTokenIdx endTokenIdx fs (idx + 1)
      else
        let key : ExtraKey := .mm f.identifier ((offset : ℤ) - startTokenIdx)
        if endTokenIdx ≥ offset + length then
          -- The item ends in this block, which may contain the next one too.
          let (keys, idx') := genMmExtraHashKeysLoop startTokenIdx endTokenIdx fs (idx + 1)
          (key :: keys, idx')
        else ([key], idx)
    else ([], idx)

/-- `_gen_mm_extra_hash_keys`.  A negative start index counts from the end of the feature list;
the only negative index ever passed is `-1`, on a nonempty list, so that the source's assertion
holds. -/
def genMmExtraHashKeys (r : Request H) (startTokenIdx endTokenIdx : ℕ) (startMmIdx : ℤ) :
    List ExtraKey × ℤ :=
  match r.mmFeatures.getLast? with
  | none => ([], startMmIdx)
  | some last =>
    if last.mmPosition.offset + last.mmPosition.length ≤ startTokenIdx then ([], startMmIdx)
    else
      let startMmIdx := if startMmIdx < 0 then r.mmFeatures.length + startMmIdx else startMmIdx
      genMmExtraHashKeysLoop startTokenIdx endTokenIdx (r.mmFeatures.drop startMmIdx.toNat)
        startMmIdx

/-- `_gen_lora_extra_hash_keys`. -/
def genLoraExtraHashKeys (r : Request H) : List ExtraKey :=
  match r.loraRequest with
  | none => []
  | some lora => [.str lora.loraName]

/-- `_gen_prompt_embeds_extra_hash_keys`.  The source memoises the digest of each block on the
request; the embeddings never change, so the memo is not observable. -/
def genPromptEmbedsExtraHashKeys (bh : BlockHasher H) (r : Request H)
    (startTokenIdx endTokenIdx : ℕ) : List ExtraKey :=
  match r.promptEmbeds with
  | none => []
  | some rows => [.bytes (bh.sha256 ((rows.take endTokenIdx).drop startTokenIdx).flatten)]

/-- The cache salt enters the first block only; an empty salt is no salt. -/
def genCacheSaltKeys (r : Request H) (startTokenIdx : ℕ) : List ExtraKey :=
  match r.cacheSalt with
  | none => []
  | some salt => if startTokenIdx = 0 ∧ salt ≠ "" then [.str salt] else []

/-- The four kinds of extra keys, in the order of the source. -/
def extraKeysList (bh : BlockHasher H) (r : Request H) (startTokenIdx endTokenIdx : ℕ)
    (mmExtraKeys : List ExtraKey) : List ExtraKey :=
  genLoraExtraHashKeys r ++ mmExtraKeys ++ genCacheSaltKeys r startTokenIdx ++
    genPromptEmbedsExtraHashKeys bh r startTokenIdx endTokenIdx

/-- `tuple(extra_keys)`, or `None` when there are no extra keys. -/
def tupleOrNone {α : Type} : List α → Option (List α)
  | [] => none
  | k :: ks => some (k :: ks)

/-- `generate_block_hash_extra_keys`. -/
def generateBlockHashExtraKeys (bh : BlockHasher H) (r : Request H)
    (startTokenIdx endTokenIdx : ℕ) (startMmIdx : ℤ) : Option (List ExtraKey) × ℤ :=
  let (mmExtraKeys, newStartMmIdx) := genMmExtraHashKeys r startTokenIdx endTokenIdx startMmIdx
  let extraKeys := extraKeysList bh r startTokenIdx endTokenIdx mmExtraKeys
  (tupleOrNone extraKeys, newStartMmIdx)

variable [DecidableEq H]

/-- `hash_block_tokens`: an absent or empty parent hash stands for `NONE_HASH`. -/
def hashBlockTokens (bh : BlockHasher H) (parentBlockHash : Option H) (tokens : List Token)
    (extraKeys : Option (List ExtraKey)) : H :=
  let parent := match parentBlockHash with
    | none => bh.noneHash
    | some p => if p = bh.emptyBytes then bh.noneHash else p
  bh.cachingHashFn (.block parent tokens extraKeys)

/-- The `while` loop of `request_block_hasher`; `fuel` bounds the number of rounds. -/
def requestBlockHasherLoop (bh : BlockHasher H) (r : Request H) :
    ℕ → ℕ → ℤ → Option H → List H
  | 0, _, _, _ => []
  | fuel + 1, startTokenIdx, currMmIdx, prevBlockHash =>
    let endTokenIdx := startTokenIdx + bh.hashBlockSize
    if endTokenIdx > r.numTokens then []
    else
      let (extraKeys, currMmIdx) :=
        generateBlockHashExtraKeys bh r startTokenIdx endTokenIdx currMmIdx
      let blockTokens := (r.allTokenIds.take endTokenIdx).drop startTokenIdx
      let blockHash := hashBlockTokens bh prevBlockHash blockTokens extraKeys
      blockHash :: requestBlockHasherLoop bh r fuel endTokenIdx currMmIdx (some blockHash)

/-- `request_block_hasher`: the hashes of the full blocks not hashed yet.  A block holds at least
one token, so the number of tokens bounds the number of rounds. -/
def requestBlockHasher (bh : BlockHasher H) (r : Request H) : List H :=
  let startTokenIdx := r.blockHashes.length * bh.hashBlockSize
  if startTokenIdx + bh.hashBlockSize > r.numTokens then []
  else
    -- The scan for multimodal items starts at the last item when some block is hashed already.
    let currMmIdx : ℤ := if startTokenIdx > 0 then -1 else 0
    requestBlockHasherLoop bh r r.numTokens startTokenIdx currMmIdx r.blockHashes.getLast?

namespace Request

/-- `Request.update_block_hashes`; without a hasher (prefix caching off) nothing is hashed. -/
def updateBlockHashes (bh : Option (BlockHasher H)) (r : Request H) : Request H :=
  match bh with
  | none => r
  | some bh => { r with blockHashes := r.blockHashes ++ requestBlockHasher bh r }

/-- `Request.append_output_token_ids`. -/
def appendOutputTokenIds (bh : Option (BlockHasher H)) (r : Request H) (tokenIds : List Token) :
    Request H :=
  updateBlockHashes bh
    { r with
      outputTokenIds := r.outputTokenIds ++ tokenIds
      allTokenIds := r.allTokenIds ++ tokenIds }

/-- `length_from_prompt_token_ids_or_embeds`. -/
def lengthFromPromptTokenIdsOrEmbeds (promptTokenIds : Option (List Token))
    (promptEmbeds : Option (List (List UInt8))) : Except PyErr ℕ :=
  match promptTokenIds, promptEmbeds with
  | none, none =>
    .error (.valueError "Neither prompt_token_ids nor prompt_embeds were defined.")
  | none, some rows => .ok rows.length
  | some ids, none => .ok ids.length
  | some ids, some rows =>
    if rows.length ≠ ids.length then
      .error (.valueError ("Prompt token ids and prompt embeds had different lengths"
        ++ s!" prompt_token_ids={ids.length}" ++ s!" prompt_embeds={rows.length}"))
    else .ok ids.length

/-- The initial `_all_token_ids`: positions covered by embeddings hold the token `0`. -/
def initialTokenIds (e : EngineCoreRequest) (numPromptTokens : ℕ) : List Token :=
  match e.promptTokenIds, e.promptIsTokenIds with
  | none, _ => List.replicate numPromptTokens 0
  | some ids, none => ids
  | some ids, some isTokenIds => (ids.zip isTokenIds).map fun p => if p.2 then p.1 else 0

/-- `Request.get_skip_reading_prefix_cache`. -/
def getSkipReadingPrefixCache (samplingParams : Option SamplingParams)
    (poolingParams : Option PoolingParams) : Bool :=
  match samplingParams.bind SamplingParams.skipReadingPrefixCache with
  | some b => b
  | none => (poolingParams.bind PoolingParams.skipReadingPrefixCache).getD false

/-- `Request.__init__` on the fields of an `EngineCoreRequest`, before the first hashing. -/
def unhashed (e : EngineCoreRequest) (maxTokens numPromptTokens : ℕ) (status : RequestStatus) :
    Request H :=
  { requestId := e.requestId
    priority := e.priority
    samplingParams := e.samplingParams
    poolingParams := e.poolingParams
    loraRequest := e.loraRequest
    useStructuredOutput := e.samplingParams.any SamplingParams.structuredOutputs
    arrivalTime := e.arrivalTime
    status := status
    maxTokens := maxTokens
    promptTokenIds := e.promptTokenIds
    promptEmbeds := e.promptEmbeds
    numPromptTokens := numPromptTokens
    allTokenIds := initialTokenIds e numPromptTokens
    cacheSalt := e.cacheSalt
    mmFeatures := e.mmFeatures
    skipReadingPrefixCache := getSkipReadingPrefixCache e.samplingParams e.poolingParams
    resumable := e.resumable
    abortImmediately := e.abortImmediately }

/-- `Request.from_engine_core_request`, that is `Request.__init__`. -/
def fromEngineCoreRequest (bh : Option (BlockHasher H)) (e : EngineCoreRequest) :
    Except PyErr (Request H) := do
  let (maxTokens, status) ←
    match e.poolingParams, e.samplingParams with
    | some _, _ => pure (1, RequestStatus.waiting)
    | none, some sp =>
      pure (sp.maxTokens, if sp.structuredOutputs then
        RequestStatus.waitingForStructuredOutputGrammar else RequestStatus.waiting)
    | none, none =>
      throw (PyErr.valueError "sampling_params and pooling_params can't both be unset")
  let numPromptTokens ← lengthFromPromptTokenIdsOrEmbeds e.promptTokenIds e.promptEmbeds
  pure (updateBlockHashes bh (unhashed e maxTokens numPromptTokens status))

end Request

end Lvllm
