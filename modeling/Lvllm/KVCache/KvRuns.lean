import Lvllm.KVCache.KvOps

/-!
# Runs of the KV cache manager

`KvReachable` are the states that the operations lead to, when the calls are those the scheduler
makes: a request is allocated slots either as a new one, with the hits of a lookup in the current
state, or with tables that cover its computed tokens, and references are given back by who holds
them.  In every such state `allocate_slots` takes exactly the blocks that it predicted.
-/

namespace Lvllm

open SingleTypeKVCacheManager List BlockPool

variable {H : Type} [DecidableEq H] {m : SingleTypeKVCacheManager}

namespace KVCacheManager

variable {s s' : KVCacheManager H} {held : List ℕ} {r : Request H}

/-! ## Calls -/

/-- The hits of a call are those of a lookup in the state, or the result of cutting them. -/
def lookupGives (s : KVCacheManager H) (r : Request H) (a : AllocateSlotsArgs) : Bool :=
  match s.getComputedBlocks r with
  | .error _ => false
  | .ok (blocks, n, _) =>
    decide (a.newComputedBlocks = blocks ∧ a.numNewComputedTokens = n) ||
      match s.truncateComputedBlocks blocks a.numNewComputedTokens with
      | .error _ => false
      | .ok blocks' => decide (a.newComputedBlocks = blocks')

/-- A new request: its hits come from a lookup, and it may have any number of external tokens below
the length of the model. -/
structure NewRequestCall (s : KVCacheManager H) (r : Request H) (a : AllocateSlotsArgs) :
    Prop where
  fresh : ∀ m ∈ s.managers, m.Fresh r.requestId
  numComputedTokens_eq : r.numComputedTokens = 0
  lookup : s.lookupGives r a = true
  total_lt : a.numComputedTokens r < s.maxModelLen

/-- The calls of `allocate_slots` that the scheduler makes. -/
def CallOk (s : KVCacheManager H) (r : Request H) (a : AllocateSlotsArgs) : Prop :=
  NewRequestCall s r a ∨ RunningCall s r a

instance (m : SingleTypeKVCacheManager) (id : String) : Decidable (m.Fresh id) :=
  decidable_of_iff (m.blocksOf id = [] ∧ m.numCachedBlock.get? id = none ∧
    m.partialHitReqs.get? id = none) ⟨fun h => ⟨h.1, h.2.1, h.2.2⟩, fun h => ⟨h.1, h.2, h.3⟩⟩

instance (s : KVCacheManager H) (r : Request H) (a : AllocateSlotsArgs) :
    Decidable (s.NewRequestCall r a) :=
  decidable_of_iff ((∀ m ∈ s.managers, m.Fresh r.requestId) ∧ r.numComputedTokens = 0 ∧
    s.lookupGives r a = true ∧ a.numComputedTokens r < s.maxModelLen)
    ⟨fun h => ⟨h.1, h.2.1, h.2.2.1, h.2.2.2⟩, fun h => ⟨h.1, h.2, h.3, h.4⟩⟩

instance (s : KVCacheManager H) (r : Request H) (a : AllocateSlotsArgs) :
    Decidable (s.RunningCall r a) :=
  decidable_of_iff ((∀ blocks ∈ a.newComputedBlocks, blocks = []) ∧ a.numNewComputedTokens = 0 ∧
    a.numExternalComputedTokens = 0 ∧ ∀ m ∈ s.managers,
      m.spec.participatesInPrefixCaching = true →
        r.numComputedTokens ≤ (m.blocksOf r.requestId).length * m.blockSize)
    ⟨fun h => ⟨h.1, h.2.1, h.2.2.1, h.2.2.2⟩, fun h => ⟨h.1, h.2, h.3, h.4⟩⟩

instance (s : KVCacheManager H) (r : Request H) (a : AllocateSlotsArgs) :
    Decidable (s.CallOk r a) := inferInstanceAs (Decidable (_ ∨ _))

omit [DecidableEq H] in
/-- Without caching a lookup finds nothing. -/
lemma getComputedBlocks_noCaching {blocks : List (List ℕ)} {n boundary : ℕ}
    (hc : s.enableCaching = false) (h : s.getComputedBlocks r = .ok (blocks, n, boundary)) (i : ℕ) :
    blocks.getD i [] = [] := by
  unfold getComputedBlocks at h
  rw [prefixCacheLookupEnabled, hc] at h
  obtain ⟨rfl, -⟩ := h
  rw [getD_eq_getElem?_getD, getElem?_map]
  cases s.managers[i]? <;> rfl

/-- A call for a new request has hits that the request may start from. -/
lemma NewRequestCall.newCall {a : AllocateSlotsArgs} (h : NewRequestCall s r a)
    (hok : KvOk s held) (hr : r.HashesChained s.pool.hasher) : NewCall s r a := by
  obtain ⟨Q, hinv⟩ := hok.inv
  have hlookup := h.lookup
  unfold lookupGives at hlookup
  split at hlookup
  · cases hlookup
  · rename_i blocks n boundary hget
    obtain ⟨hhit, -⟩ := getComputedBlocks_sound hok.config hinv.free.index hr hget
    rw [Bool.or_eq_true, decide_eq_true_eq] at hlookup
    rcases hlookup with ⟨hblocks, hn⟩ | htrunc
    · refine ⟨h.fresh, h.numComputedTokens_eq, by rwa [hblocks, hn], fun hc i m _ => ?_, h.total_lt⟩
      rw [hblocks]
      exact getComputedBlocks_noCaching (hok.config.caching_eq.trans hc) hget i
    · split at htrunc
      · cases htrunc
      · rename_i blocks' hcut
        rw [decide_eq_true_eq] at htrunc
        refine ⟨h.fresh, h.numComputedTokens_eq, htrunc ▸ hhit.truncate hcut, fun hc i m hm => ?_,
          h.total_lt⟩
        rw [htrunc]
        rcases truncateGroups_spec hcut hm with ⟨hnil, -⟩ | ⟨-, -, htake⟩
        · exact hnil
        · rw [htake, getComputedBlocks_noCaching (hok.config.caching_eq.trans hc) hget, take_nil]

end KVCacheManager

/-! ## Runs -/

/-- The manager, and the references that callers hold: popped blocks that are freed later, and the
blocks of copies that the worker has not made. -/
structure KvState (H : Type) where
  kv : KVCacheManager H
  held : List ℕ

/-- The operations of the manager.  A request comes with the contents that its hashes are of. -/
inductive KvOp (H : Type) where
  | allocateSlots (request : Request H) (contents : List BlockContent)
      (args : KVCacheManager.AllocateSlotsArgs)
  | cacheBlocks (request : Request H) (contents : List BlockContent) (numComputedTokens : ℕ)
  | removeSkippedBlocks (requestId : String) (processedComputedTokens : ℕ)
  | free (requestId : String)
  | popBlocksForFree (requestId : String)
  | freeBlocks (orderedBlocks : List ℕ)
  | takeKvCacheBlockCopies
  | takeNewBlockIds
  | getNumCommonPrefixBlocks (runningRequestId : String)
  | evictBlocks (blockIds : List ℕ)
  | resetPrefixCache

/-- The state after code that returned, with the references that the caller holds then. -/
def KvState.returned {α : Type} (held : α → List ℕ) :
    EStateM.Result PyErr (KVCacheManager H) α → Option (KvState H)
  | .ok x kv => some ⟨kv, held x⟩
  | .error _ _ => none

/-- Run an operation. -/
def KvState.step (s : KvState H) : KvOp H → Option (KvState H)
  | .allocateSlots r _ a => returned (fun _ => s.held) (KVCacheManager.allocateSlots r a s.kv)
  | .cacheBlocks r _ n => returned (fun _ => s.held) (KVCacheManager.cacheBlocks r n s.kv)
  | .removeSkippedBlocks id n =>
    returned (fun _ => s.held) (KVCacheManager.removeSkippedBlocks id n s.kv)
  | .free id => returned (fun _ => s.held) (KVCacheManager.free id s.kv)
  | .popBlocksForFree id =>
    returned (fun blocks => s.held ++ blocks) (KVCacheManager.popBlocksForFree id s.kv)
  | .freeBlocks blocks =>
    returned (fun _ => s.held.diff blocks) (KVCacheManager.freeBlocks blocks s.kv)
  | .takeKvCacheBlockCopies =>
    returned (fun copies => s.held ++ copies.2) (KVCacheManager.takeKvCacheBlockCopies s.kv)
  | .takeNewBlockIds => returned (fun _ => s.held) (KVCacheManager.takeNewBlockIds s.kv)
  | .getNumCommonPrefixBlocks id =>
    returned (fun _ => s.held) (KVCacheManager.getNumCommonPrefixBlocks id s.kv)
  | .evictBlocks blocks => returned (fun _ => s.held) (KVCacheManager.evictBlocks blocks s.kv)
  | .resetPrefixCache => returned (fun _ => s.held) (KVCacheManager.resetPrefixCache s.kv)

/-- What callers see to: the hashes of a request are a chain, slots are allocated by calls that the
scheduler makes, and references are given back by who holds them. -/
def KvOp.Allowed (s : KvState H) : KvOp H → Prop
  | .allocateSlots r contents a =>
    r.blockHashes = chainHashes s.kv.pool.hasher contents ∧ s.kv.CallOk r a
  | .cacheBlocks r contents _ => r.blockHashes = chainHashes s.kv.pool.hasher contents
  | .freeBlocks blocks => ∀ b ∈ blocks, blocks.count b ≤ s.held.count b
  | _ => True

instance (s : KvState H) (op : KvOp H) : Decidable (op.Allowed s) :=
  match op with
  | .allocateSlots _ _ _ => inferInstanceAs (Decidable (_ ∧ _))
  | .cacheBlocks r contents _ =>
    inferInstanceAs (Decidable (r.blockHashes = chainHashes s.kv.pool.hasher contents))
  | .freeBlocks blocks => inferInstanceAs (Decidable (∀ b ∈ blocks, blocks.count b ≤ s.held.count b))
  | .removeSkippedBlocks _ _ | .free _ | .popBlocksForFree _ | .takeKvCacheBlockCopies |
    .takeNewBlockIds | .getNumCommonPrefixBlocks _ | .evictBlocks _ | .resetPrefixCache =>
    isTrue trivial

/-- A manager that has no request yet. -/
structure NoRequests (m : SingleTypeKVCacheManager) : Prop where
  reqToBlocks_eq : m.reqToBlocks = .empty
  partialHitReqs_eq : m.partialHitReqs = .empty
  pendingCowCopies_eq : m.pendingCowCopies = []

/-- A new manager over a new pool. -/
structure KvInit (s : KvState H) : Prop where
  pool : ∃ n caching hasher events, BlockPool.init n caching hasher events = .ok s.kv.pool ∧
    hasher.CollisionFree
  config : s.kv.ConfigOk
  managers : ∀ (i : ℕ) (m : SingleTypeKVCacheManager), s.kv.managers[i]? = some m →
    m.kvCacheGroupId = i ∧ m.enableCaching = s.kv.pool.enableCaching ∧ NoRequests m
  held_eq : s.held = []

/-- The states that the operations lead to. -/
def KvReachable (s : KvState H) : Prop :=
  Reached KvInit KvState.step (fun s op => op.Allowed s) s

open KVCacheManager

/-- A manager without requests references nothing. -/
lemma NoRequests.refs_eq (h : NoRequests m) (b : ℕ) : m.refs b = 0 := by
  rw [refs, retained, h.reqToBlocks_eq, h.pendingCowCopies_eq]
  rfl

lemma NoRequests.blocksOf_eq (h : NoRequests m) (id : String) : m.blocksOf id = [] := by
  rw [blocksOf, h.reqToBlocks_eq]
  rfl

lemma KvInit.kvOk {s : KvState H} (h : KvInit s) : KvOk s.kv s.held := by
  obtain ⟨n, caching, hasher, events, hinit, hbh⟩ := h.pool
  obtain ⟨hfree, hn, hcnt⟩ := freeInv_init hinit
  have hrefs : ∀ b, totalRefs s.kv.managers b = 0 := by
    intro b
    refine sum_eq_zero fun x hx => ?_
    obtain ⟨m, hm, rfl⟩ := mem_map.1 hx
    obtain ⟨i, hi⟩ := getElem?_of_mem hm
    exact (h.managers i m hi).2.2.refs_eq b
  obtain ⟨-, b0, q, -, hpool⟩ := init_eq_ok hinit
  have hkeys : ∀ b, s.kv.pool.keysOf b = [] := by
    intro b
    rw [hpool, keysOf]
    by_cases hb : b = b0 <;> simp [hb]
  refine ⟨⟨_, hfree, fun b _ => ?_, fun b hb => ?_, ⟨fun _ => (0, 0), fun i m hm id j b hj => ?_,
    fun b key hkey => ?_⟩, fun b hb => absurd (hkeys b) hb, fun _ => hkeys,
    fun i m hm => ⟨(h.managers i m hm).1, (h.managers i m hm).2.1⟩, fun m hm _ id hmem => ?_⟩,
    h.config, ?_, fun m hm id => ?_⟩
  · rw [hcnt, hrefs, h.held_eq]
    rfl
  · rw [hrefs, h.held_eq] at hb
    cases hb
  · rw [(h.managers i m hm).2.2.blocksOf_eq] at hj
    cases hj
  · rw [hkeys] at hkey
    cases hkey
  · obtain ⟨i, hi⟩ := getElem?_of_mem hm
    rw [(h.managers i m hi).2.2.blocksOf_eq] at hmem
    cases hmem
  · rw [hpool]
    exact hbh
  · obtain ⟨i, hi⟩ := getElem?_of_mem hm
    rw [(h.managers i m hi).2.2.partialHitReqs_eq]
    rfl

omit [DecidableEq H] in
lemma KvState.returned_eq_some {α : Type} {held : α → List ℕ}
    {res : EStateM.Result PyErr (KVCacheManager H) α} {s' : KvState H}
    (h : returned held res = some s') : ∃ x, res = .ok x s'.kv ∧ s'.held = held x := by
  cases res with
  | ok x kv =>
    cases h
    exact ⟨x, rfl, rfl⟩
  | error e kv => cases h

/-- A call that callers see to is one of the two kinds. -/
lemma KVCacheManager.CallOk.cases {s : KVCacheManager H} {held : List ℕ} {r : Request H}
    {a : AllocateSlotsArgs} (h : s.CallOk r a) (hok : KvOk s held)
    (hr : r.HashesChained s.pool.hasher) : NewCall s r a ∨ RunningCall s r a :=
  h.imp (·.newCall hok hr) id

lemma KvOk.of_returned {α : Type} {held : α → List ℕ} {R : Prop}
    {res : EStateM.Result PyErr (KVCacheManager H) α} {s' : KvState H}
    (hstep : KvState.returned held res = some s')
    (hok : ∀ {x}, res = .ok x s'.kv → KvOk s'.kv (held x) ∧ R) : KvOk s'.kv s'.held ∧ R := by
  obtain ⟨x, hrun, hheld⟩ := KvState.returned_eq_some hstep
  rw [hheld]
  exact hok hrun

/-- Every operation keeps the manager in order, and those that neither allocate nor remove skipped
blocks keep the tables. -/
lemma KvOk.step {s s' : KvState H} (h : KvOk s.kv s.held) {op : KvOp H} (hop : op.Allowed s)
    (hstep : s.step op = some s') : KvOk s'.kv s'.held ∧
      (SameKv s.kv s'.kv ∧ TablesKept s.kv s'.kv ∨ (∃ r contents a, op = .allocateSlots r contents a) ∨
        ∃ id n, op = .removeSkippedBlocks id n) := by
  cases op with
  | allocateSlots r contents a =>
    exact KvOk.of_returned hstep fun hrun =>
      ⟨(h.allocateSlots (hop.2.cases h ⟨contents, hop.1⟩) ⟨contents, hop.1⟩ hrun).1,
        .inr (.inl ⟨r, contents, a, rfl⟩)⟩
  | cacheBlocks r contents n =>
    exact KvOk.of_returned hstep fun hrun => (h.cacheBlocks ⟨contents, hop⟩ hrun).imp_right .inl
  | removeSkippedBlocks id n =>
    obtain ⟨s₁, hrun1, hok, -⟩ := h.removeSkippedBlocks id n
    refine KvOk.of_returned hstep fun hrun => ?_
    rw [hrun1] at hrun
    cases hrun
    exact ⟨hok, .inr (.inr ⟨id, n, rfl⟩)⟩
  | free id =>
    exact KvOk.of_returned hstep fun hrun => (h.free hrun).imp_right .inl
  | popBlocksForFree id =>
    exact KvOk.of_returned hstep fun hrun => (h.popBlocksForFree hrun).imp_right .inl
  | freeBlocks blocks =>
    exact KvOk.of_returned hstep fun hrun =>
      (h.freeBlocks (subperm_append_diff_self_of_count_le hop).symm hrun).imp_right .inl
  | takeKvCacheBlockCopies =>
    exact KvOk.of_returned hstep fun hrun => (h.takeKvCacheBlockCopies hrun).imp_right .inl
  | takeNewBlockIds =>
    exact KvOk.of_returned hstep fun hrun => (h.takeNewBlockIds hrun).imp_right .inl
  | getNumCommonPrefixBlocks id =>
    exact KvOk.of_returned hstep fun hrun => (h.getNumCommonPrefixBlocks hrun).imp_right .inl
  | evictBlocks blocks =>
    exact KvOk.of_returned hstep fun hrun => (h.evictBlocks hrun).imp_right .inl
  | resetPrefixCache =>
    exact KvOk.of_returned hstep fun hrun => (h.resetPrefixCache hrun).imp_right .inl

/-- The manager is in order in every state reached. -/
lemma KvReachable.kvOk {s : KvState H} (h : KvReachable s) : KvOk s.kv s.held :=
  Reached.invariant (fun _ => KvInit.kvOk)
    (fun _ _ _ hok hop hstep => (KvOk.step hok hop hstep).1) h

/-! ## The prediction is exact -/

/-- In every state reached and for every call the scheduler makes, `allocate_slots` removes skipped
blocks and predicts a number of blocks.  If the capacity check passes, the allocation returns and
takes exactly as many blocks from the free queue.  If `allocate_slots` returns none, the state is as
it was before, or as it is after the skipped blocks are removed. -/
theorem allocate_slots_takes_predicted_blocks {s : KvState H} (hs : KvReachable s) (r : Request H)
    (hr : r.HashesChained s.kv.pool.hasher) (a : AllocateSlotsArgs) (hcall : s.kv.CallOk r a) :
    ∃ s₁ R, KVCacheManager.removeSkippedBlocks r.requestId (s.kv.processedTokens r a) s.kv =
        .ok () s₁ ∧
      s₁.predictedBlocks r a = .ok R ∧
      (s₁.CapacityOk r a R → ∃ bs s₂, allocateBlocks r a s₁ = .ok bs s₂ ∧
        s₂.pool.getNumFreeBlocks + R = s₁.pool.getNumFreeBlocks) ∧
      ∀ s', KVCacheManager.allocateSlots r a s.kv = .ok none s' → s' = s.kv ∨ s' = s₁ := by
  have hok := hs.kvOk
  obtain ⟨s₁, hskip, hok1, hshape⟩ := hok.removeSkippedBlocks r.requestId (s.kv.processedTokens r a)
  obtain ⟨R, hR, hagree⟩ := predictionAgrees_of_skippedRemoved hok1 (hcall.cases hok hr) hshape
  refine ⟨s₁, R, hskip, hR, fun hcap => ?_, fun s' hnone => ?_⟩
  · obtain ⟨bs, s₂, halloc, -, -, hfree, -⟩ := hagree (by unfold CapacityOk at hcap; omega)
    exact ⟨bs, s₂, halloc, hfree⟩
  · cases allocateSlots_outcome hnone with
    | gated heq => exact .inl heq
    | full hskip' _ _ =>
      rw [hskip] at hskip'
      cases hskip'
      exact .inr rfl

/-! ## A manager with three groups -/

lemma smallBlockSize_pos : 0 < 4 := by decide

/-- A manager of one group with blocks of four tokens. -/
def smallManager (kind : KVCacheSpecKind) (groupId : ℕ) : SingleTypeKVCacheManager :=
  { spec := { kind := kind, blockSize := 4, blockSize_pos := smallBlockSize_pos }
    enableCaching := true
    kvCacheGroupId := groupId
    cacheHitAlignmentTokens := 4 }

/-- A manager over the groups given, with blocks of four tokens. -/
def smallKv (kinds : List KVCacheSpecKind) (pool : BlockPool FreeHash) : KvState FreeHash :=
  { kv :=
      { maxModelLen := 64
        enableCaching := true
        watermarkBlocks := 0
        schedulerBlockSize := 4
        enablePartialHashHits := false
        numReprefillableTokens := 0
        eagleGroupIds := []
        retentionInterval := none
        pool := pool
        managers := kinds.zipIdx.map fun x => smallManager x.1 x.2 }
    held := [] }

/-- A new manager of this kind, with full attention first. -/
lemma kvInit_smallKv {n : ℕ} {events : Bool} {kinds : List KVCacheSpecKind}
    {pool : BlockPool FreeHash} (h : init n true freeHasher events = .ok pool) :
    KvInit (smallKv (.fullAttention :: kinds) pool) := by
  obtain ⟨-, b, q, -, hpool⟩ := init_eq_ok h
  have hcaching : pool.enableCaching = true := by rw [hpool]
  have hhasher : pool.hasher = freeHasher := by rw [hpool]
  have hmem : ∀ m ∈ (smallKv (.fullAttention :: kinds) pool).kv.managers, m.blockSize = 4 := by
    intro m hm
    obtain ⟨x, -, rfl⟩ := mem_map.1 hm
    rfl
  refine ⟨⟨n, true, freeHasher, events, h, freeHasher_collisionFree⟩,
    ⟨hcaching.symm, fun _ m hm _ => ?_, fun m hm _ => ?_, Nat.succ_pos 3, fun hc => (by cases hc),
      fun _ _ => ⟨smallManager .fullAttention 0, mem_map.2 ⟨(.fullAttention, 0), ?_, rfl⟩, rfl⟩⟩,
    fun i m hm => ?_, rfl⟩
  · rw [hmem m hm]
    change pool.hasher.hashBlockSize ∣ 4
    rw [hhasher]
    exact dvd_rfl
  · rw [hmem m hm]
    exact dvd_rfl
  · simp
  · change ((_ : List _).zipIdx.map fun x => smallManager x.1 x.2)[i]? = some m at hm
    rw [getElem?_map, getElem?_zipIdx] at hm
    cases hget : (KVCacheSpecKind.fullAttention :: kinds)[i]? with
    | none => simp [hget] at hm
    | some kind =>
      simp only [hget, Option.map_some, Option.some.injEq, Nat.zero_add] at hm
      subst hm
      exact ⟨rfl, hcaching.symm, rfl, rfl, rfl⟩

/-- A run from the start of a manager can be evaluated. -/
lemma exists_reached_kv (n : ℕ) (start : BlockPool FreeHash → KvState FreeHash)
    (hstart : ∀ pool, init n true freeHasher false = .ok pool → KvInit (start pool))
    (ops : List (KvOp FreeHash)) (P : KvState FreeHash → KvOp FreeHash → Prop)
    [∀ s op, Decidable (P s op)] (Q : KvState FreeHash → Prop) [DecidablePred Q]
    (h : (init n true freeHasher false).toOption.any (fun pool =>
      (runAll KvState.step P ops (start pool)).any fun s => decide (Q s)) = true) :
    ∃ s, Reached KvInit KvState.step P s ∧ Q s := by
  cases hpool : init n true freeHasher false with
  | error e =>
    rw [hpool] at h
    cases h
  | ok pool =>
    rw [hpool] at h
    exact Reached.exists_runAll (hstart pool hpool) ops Q h

/-- The contents of the full blocks of a text request. -/
def textContents (tokens : List Token) : List BlockContent :=
  (List.range (tokens.length / 4)).map fun i => ((tokens.take (4 * i + 4)).drop (4 * i), none)

/-- A text request under an id. -/
def namedRequest (requestId : String) (tokens : List Token) : Request FreeHash :=
  { BlockPool.textRequest tokens with requestId := requestId }

/-- A request of twelve tokens is served and freed.  The next one starts with the same tokens, and
the connector has four more: of the nine blocks predicted, four are hits that leave the free queue,
four hold external and new tokens, and one is a scratch block. -/
theorem allocate_slots_takes_nine_blocks :
    ∃ (s : KvState FreeHash) (r : Request FreeHash) (a : AllocateSlotsArgs),
      KvReachable s ∧ r.HashesChained s.kv.pool.hasher ∧ s.kv.CallOk r a ∧
      a.newComputedBlocks = [[1, 2, 3], [0, 5, 6], []] ∧ a.numExternalComputedTokens = 4 ∧
      ∃ s₁, KVCacheManager.removeSkippedBlocks r.requestId (s.kv.processedTokens r a) s.kv =
          .ok () s₁ ∧ s₁.predictedBlocks r a = .ok 9 ∧
        (s₁.CapacityOk r a 9 → ∃ bs s₂, allocateBlocks r a s₁ = .ok bs s₂ ∧
          s₂.pool.getNumFreeBlocks + 9 = s₁.pool.getNumFreeBlocks) ∧
        ∀ s', KVCacheManager.allocateSlots r a s.kv = .ok none s' → s' = s.kv ∨ s' = s₁ := by
  let tokens : List Token := [1, 2, 3, 4, 5, 6, 7, 8, 9, 10, 11, 12]
  let r := namedRequest "b" (tokens ++ [13, 14, 15, 16, 17, 18])
  let a : AllocateSlotsArgs :=
    { numNewTokens := 2, numNewComputedTokens := 12,
      newComputedBlocks := [[1, 2, 3], [0, 5, 6], []], numExternalComputedTokens := 4 }
  let ops : List (KvOp FreeHash) := [.allocateSlots (namedRequest "a" tokens) (textContents tokens)
      { numNewTokens := 12, newComputedBlocks := [[], [], []] }, .free "a"]
  obtain ⟨s, hreach, hcall, hhashes, hnine⟩ := exists_reached_kv 16
    (smallKv [.fullAttention, .slidingWindow 6 0, .kpoolTail]) (fun _ => kvInit_smallKv) ops
    (fun s op => op.Allowed s) (fun s => s.kv.CallOk r a ∧ r.blockHashes =
        chainHashes s.kv.pool.hasher (textContents (tokens ++ [13, 14, 15, 16, 17, 18])) ∧
      ∃ u s₁, KVCacheManager.removeSkippedBlocks r.requestId (s.kv.processedTokens r a) s.kv =
        .ok u s₁ ∧ s₁.predictedBlocks r a = .ok 9) (by decide +kernel)
  obtain ⟨s₁, R, hskip, hR, hrest⟩ :=
    allocate_slots_takes_predicted_blocks hreach r ⟨_, hhashes⟩ a hcall
  obtain rfl : R = 9 := by simpa [hskip, hR] using hnine
  exact ⟨s, r, a, hreach, ⟨_, hhashes⟩, hcall, rfl, rfl, s₁, hskip, hR, hrest⟩

end Lvllm
