import Lvllm.KVCache.Predictor

/-!
# Operations of the KV cache manager

Every operation of the manager keeps `KvOk`.  One rule lifts what a manager does to the
coordinator's loop over all managers.  `allocateSlots_outcome` says once what `allocate_slots` can
do; the rest of the development reads it through that lemma.
-/

namespace Lvllm

open SingleTypeKVCacheManager List KVCacheManager BlockPool

variable {H : Type} [DecidableEq H] {ms : List SingleTypeKVCacheManager}

namespace KVCacheManager

variable {s s' : KVCacheManager H} {held : List ℕ}

/-- Each table is what it was, or its request is forgotten. -/
def TablesKept (s s' : KVCacheManager H) : Prop :=
  ∀ (i : ℕ) (m' : SingleTypeKVCacheManager), s'.managers[i]? = some m' →
    ∃ m, s.managers[i]? = some m ∧ ∀ id, m'.blocksOf id = m.blocksOf id ∨ m'.blocksOf id = []

section

omit [DecidableEq H]

lemma TablesKept.of_managers_eq (h : s'.managers = s.managers) : TablesKept s s' :=
  fun _ m hm => ⟨m, h ▸ hm, fun _ => .inl rfl⟩

/-- The tables once a request is forgotten. -/
lemma blocksOf_forgetRequest (m : SingleTypeKVCacheManager) (id id' : String) :
    (m.forgetRequest id).blocksOf id' = m.blocksOf id' ∨
      (m.forgetRequest id).blocksOf id' = [] := by
  by_cases hid : id' = id
  · subst hid
    exact .inr (by simp [forgetRequest, blocksOf])
  · exact .inl (by simp [forgetRequest, blocksOf, hid])

end

/-- A call leaves the manager in order with its configuration, and keeps or forgets tables. -/
abbrev KvKept (s s' : KVCacheManager H) (held : List ℕ) : Prop :=
  KvOk s' held ∧ SameKv s s' ∧ TablesKept s s'

/-- The rule for the coordinator's loops: each manager does a step, and hands references of blocks
to the caller with the value it returns. -/
lemma KvOk.of_onManagers {α : Type} {f : ℕ → ManagerM H α} {xs : List α} (h : KvOk s held)
    (handed : α → List ℕ)
    (hf : ∀ i p Q ms held m x p' m', KvInv p Q ms held → ms[i]? = some m → SamePool s.pool p →
      p.hasher.CollisionFree → f i (p, m) = .ok x (p', m') →
      TableStep p p' ms i m m' (held ++ handed x) ∧
        ∀ id, m'.blocksOf id = m.blocksOf id ∨ m'.blocksOf id = [])
    (hrun : onManagers f s = .ok xs s') :
    KvKept s s' (held ++ xs.flatMap handed) := by
  obtain ⟨p', ms', hloop, rfl⟩ := onManagers_eq_ok hrun
  obtain ⟨⟨hinv, hpool⟩, hlen, hR⟩ := runManagers_invariant (fun _ m m' => SameGroup m m' ∧
      (∀ id, m.partialHitReqs.get? id = none → m'.partialHitReqs.get? id = none) ∧
      ∀ id, m'.blocksOf id = m.blocksOf id ∨ m'.blocksOf id = [])
    (fun _ xs p ms => (∃ Q, KvInv p Q ms (held ++ xs.flatMap handed)) ∧ SamePool s.pool p)
    (fun i xs p ms m x p' m' hJ hm hx => by
      obtain ⟨⟨Q, hinv⟩, hpool⟩ := hJ
      obtain ⟨hstep, htables⟩ :=
        hf i p Q ms _ m x p' m' hinv hm hpool (hpool.hasher_eq ▸ h.collisionFree) hx
      exact ⟨⟨by simpa using hstep.inv, hpool.trans hstep.pool⟩, hstep.group, hstep.noPartial,
        htables⟩)
    ⟨by simpa using h.inv, .refl _⟩ hloop
  have hsame : SameKv s { s with pool := p', managers := ms' } :=
    ⟨hpool, ⟨hlen, fun k m m' hm hm' => (hR k m m' hm hm').1⟩, rfl⟩
  refine ⟨h.of_sameKv hsame hinv fun m' hm' id => ?_, hsame, fun k m' hk => ?_⟩
  · obtain ⟨k, hk⟩ := getElem?_of_mem hm'
    obtain ⟨m, hm, -⟩ := hsame.groups.exists_of_getElem? hk
    exact (hR k m m' hm hk).2.1 id (h.noPartial m (mem_of_getElem? hm) id)
  · obtain ⟨m, hm, -⟩ := hsame.groups.exists_of_getElem? hk
    exact ⟨m, hm, (hR k m m' hm hk).2.2⟩

/-- The rule for code that hands nothing out. -/
lemma KvOk.of_onManagers_unit {α : Type} {f : ℕ → ManagerM H α} {xs : List α} (h : KvOk s held)
    (hf : ∀ i p Q ms held m x p' m', KvInv p Q ms held → ms[i]? = some m → SamePool s.pool p →
      p.hasher.CollisionFree → f i (p, m) = .ok x (p', m') → TableStep p p' ms i m m' held ∧
        ∀ id, m'.blocksOf id = m.blocksOf id ∨ m'.blocksOf id = [])
    (hrun : onManagers f s = .ok xs s') : KvKept s s' held := by
  have hok := h.of_onManagers (fun _ => []) (fun i p Q ms held m x p' m' hinv hm hpool hbh hx => by
    rw [append_nil]
    exact hf i p Q ms held m x p' m' hinv hm hpool hbh hx) hrun
  rwa [flatMap_eq_nil_iff.2 fun _ _ => rfl, append_nil] at hok

omit [DecidableEq H] in
lemma onPool_eq_ok {α : Type} {x : PoolM H α} {a : α} :
    onPool x s = .ok a s' ↔ ∃ p, x s.pool = .ok a p ∧ s' = { s with pool := p } :=
  zoomWith_eq_ok

/-! ## Freeing -/

/-- Forgetting a request makes no partial hit. -/
lemma noPartial_forgetRequest {m : SingleTypeKVCacheManager} {id' : String}
    (h : m.partialHitReqs.get? id' = none) (id : String) :
    (m.forgetRequest id).partialHitReqs.get? id' = none := by
  by_cases hid : id' = id
  · subst hid
    exact Dict.get?_erase_self _ _
  · exact (Dict.get?_erase_ne _ hid).trans h

section

variable (h : KvOk s held) {id : String} {blocks : List ℕ} {r : Request H}

include h

lemma KvOk.free (hrun : free id s = .ok () s') : KvKept s s' held := by
  obtain ⟨xs, s₁, hloop, hpure⟩ := bind_eq_ok.1 hrun
  cases hpure
  refine h.of_onManagers_unit (fun i p Q ms held m x p' m' hinv hm hpool hbh hx => ?_) hloop
  obtain ⟨p₁, hfree, hframe, hinv'⟩ := hinv.freeRequest hm hbh id
  obtain ⟨-, ⟨rfl, rfl⟩⟩ : x = () ∧ p₁ = p' ∧ m.forgetRequest id = m' := by
    rw [hfree] at hx
    cases hx
    exact ⟨rfl, rfl, rfl⟩
  exact ⟨⟨hinv', .of_refFrame hframe, ⟨rfl, rfl, rfl⟩,
    fun id' hid => noPartial_forgetRequest hid id⟩, blocksOf_forgetRequest m id⟩

/-- `pop_blocks_for_free` hands the references of all tables of a request out. -/
lemma KvOk.popBlocksForFree (hrun : popBlocksForFree id s = .ok blocks s') :
    KvKept s s' (held ++ blocks) := by
  obtain ⟨xs, s₁, hloop, hpure⟩ := bind_eq_ok.1 hrun
  cases hpure
  rw [← flatMap_id]
  refine h.of_onManagers (fun bs => bs) (fun i p Q ms held m x p' m' hinv hm hpool hbh hx => ?_)
    hloop
  cases hx
  exact ⟨⟨⟨Q, hinv.popBlocksForFree hm hbh id⟩, .refl p, ⟨rfl, rfl, rfl⟩,
    fun id' hid => noPartial_forgetRequest hid id⟩, blocksOf_forgetRequest m id⟩

lemma KvOk.freeBlocks {held' : List ℕ}
    (hheld : held.Perm (blocks ++ held')) (hrun : freeBlocks blocks s = .ok () s') :
    KvKept s s' held' := by
  obtain ⟨Q, hinv⟩ := h.inv
  obtain ⟨p', Q', hfree, hframe, hinv'⟩ := hinv.freeHeld hheld
  obtain ⟨p₁, hrun₁, rfl⟩ := onPool_eq_ok.1 hrun
  rw [hfree] at hrun₁
  cases hrun₁
  have hsame : SameKv s { s with pool := p' } := ⟨.of_refFrame hframe, .refl _, rfl⟩
  exact ⟨h.of_sameKv hsame ⟨Q', hinv'⟩ h.noPartial, hsame, .of_managers_eq rfl⟩

/-- `take_kv_cache_block_copies` hands the references that the copies retain out. -/
lemma KvOk.takeKvCacheBlockCopies {copies : List (ℕ × ℕ) × List ℕ}
    (hrun : takeKvCacheBlockCopies s = .ok copies s') :
    KvKept s s' (held ++ copies.2) := by
  obtain ⟨xs, s₁, hloop, hpure⟩ := bind_eq_ok.1 hrun
  cases hpure
  have hflat : (xs.flatten.flatMap fun c => [c.1, c.2]) =
      xs.flatMap fun cs => cs.flatMap fun c => [c.1, c.2] := by
    rw [← flatMap_id, flatMap_assoc]
    rfl
  rw [hflat]
  refine h.of_onManagers _ (fun i p Q ms held m x p' m' hinv hm hpool hbh hx => ?_) hloop
  cases hx
  refine ⟨⟨⟨Q, hinv.retable hm hbh ⟨rfl, rfl, rfl⟩ (fun b => ?_) fun id j b hj => ⟨id, hj⟩⟩,
    .refl p, ⟨rfl, rfl, rfl⟩, fun _ hid => hid⟩, fun _ => .inl rfl⟩
  rw [count_append]
  change m.reqToBlocks.sum (·.count b) + 0 + (held.count b + m.retained.count b) =
    m.reqToBlocks.sum (·.count b) + m.retained.count b + held.count b
  omega

/-- `take_new_block_ids` touches no block. -/
lemma KvOk.takeNewBlockIds {ids : List ℕ}
    (hrun : takeNewBlockIds s = .ok ids s') : KvKept s s' held := by
  obtain ⟨xs, s₁, hloop, hpure⟩ := bind_eq_ok.1 hrun
  cases hpure
  refine h.of_onManagers_unit (fun i p Q ms held m x p' m' hinv hm hpool hbh hx => ?_) hloop
  cases hx
  exact ⟨⟨⟨Q, hinv.retable hm hbh ⟨rfl, rfl, rfl⟩ (fun _ => rfl) fun id j b hj => ⟨id, hj⟩⟩,
    .refl p, ⟨rfl, rfl, rfl⟩, fun _ hid => hid⟩, fun _ => .inl rfl⟩

/-- `get_num_common_prefix_blocks` reads a table, which may make an empty one. -/
lemma KvOk.getNumCommonPrefixBlocks {ns : List ℕ}
    (hrun : getNumCommonPrefixBlocks id s = .ok ns s') :
    KvKept s s' held := by
  unfold KVCacheManager.getNumCommonPrefixBlocks at hrun
  rw [bind_get] at hrun
  split at hrun
  · refine h.of_onManagers_unit (fun i p Q ms held m x p' m' hinv hm hpool hbh hx => ?_) hrun
    have hcases : p' = p ∧ (m' = m ∨ m' = m.readBlocks id) := by
      unfold SingleTypeKVCacheManager.getNumCommonPrefixBlocks at hx
      rw [bind_get] at hx
      cases hkind : m.spec.kind with
      | fullAttention =>
        simp only [hkind] at hx
        cases hx
        exact ⟨rfl, .inr rfl⟩
      | _ =>
        simp only [hkind] at hx
        cases hx
        exact ⟨rfl, .inl rfl⟩
    obtain ⟨rfl, rfl | rfl⟩ := hcases
    · exact ⟨⟨⟨Q, hinv.retable hm hbh (.refl _) (fun _ => rfl) fun id j b hj => ⟨id, hj⟩⟩, .refl _,
        .refl _, fun _ hid => hid⟩, fun _ => .inl rfl⟩
    · refine ⟨⟨⟨Q, hinv.retable hm hbh ⟨rfl, rfl, rfl⟩ (fun b => by rw [refs_readBlocks])
        fun id' j b hj => ⟨id', ?_⟩⟩, .refl _, ⟨rfl, rfl, rfl⟩, fun _ hid => hid⟩,
        fun id' => .inl (blocksOf_readBlocks m id id')⟩
      rwa [blocksOf_readBlocks] at hj
  · cases hrun
    exact ⟨h, .refl s, .of_managers_eq rfl⟩

/-! ## Keys -/

/-- Code of the pool that only removes keys. -/
lemma KvOk.of_removesKeys {α : Type} {x : PoolM H α} {a : α}
    (hx : Keeps (BlockPool.NewKeys s.pool fun _ _ => False) x) (hrun : onPool x s = .ok a s') :
    KvKept s s' held := by
  obtain ⟨Q, hinv⟩ := h.inv
  obtain ⟨p', hp', rfl⟩ := onPool_eq_ok.1 hrun
  obtain ⟨⟨hindex, hframe⟩, hkeys⟩ := hx.ok (BlockPool.NewKeys.refl hinv.free.index) hp'
  have hsame : SameKv s { s with pool := p' } := ⟨.of_indexFrame hframe, .refl _, rfl⟩
  refine ⟨h.of_sameKv hsame ⟨Q, hinv.changeKeys hframe hindex fun b key hkey => ?_⟩ h.noPartial,
    hsame, .of_managers_eq rfl⟩
  rcases hkeys b key hkey with hold | hfalse
  · exact .inl hold
  · cases hfalse

lemma KvOk.evictBlocks (hrun : evictBlocks blocks s = .ok () s') : KvKept s s' held :=
  h.of_removesKeys (keeps_newKeys_evictBlocks blocks) hrun

lemma KvOk.resetPrefixCache {flag : Bool}
    (hrun : resetPrefixCache s = .ok flag s') : KvKept s s' held :=
  h.of_removesKeys keeps_newKeys_resetPrefixCache hrun

/-- The coordinator's `cache_blocks` gives blocks in the tables of a request keys of its hashes. -/
lemma KvOk.coordinatorCacheBlocks {n : ℕ}
    (hr : r.HashesChained s.pool.hasher) (hc : s.enableCaching = true)
    (hrun : coordinatorCacheBlocks r n s = .ok () s') :
    KvKept s s' held := by
  unfold KVCacheManager.coordinatorCacheBlocks at hrun
  rw [bind_get] at hrun
  obtain ⟨xs, s₁, hloop, hpure⟩ := bind_eq_ok.1 hrun
  cases hpure
  refine h.of_onManagers_unit (fun i p Q ms held m x p' m' hinv hm hpool hbh hx => ?_) hloop
  have hstep := cacheBlocks_ok hinv.free.index hx
  have hcaching : p.enableCaching = true := by
    rw [hpool.enableCaching_eq, ← h.config.caching_eq]
    exact hc
  refine ⟨⟨⟨Q, hinv.cacheBlocks hm hbh ?_ hcaching hx⟩, .of_indexFrame hstep.keys.1.2, hstep.group,
    fun id hid => by rw [hstep.partialHitReqs_eq]; exact hid⟩, fun id => .inl (hstep.blocksOf_eq id)⟩
  rw [hpool.hasher_eq]
  exact hr

lemma KvOk.cacheBlocks {n : ℕ}
    (hr : r.HashesChained s.pool.hasher) (hrun : cacheBlocks r n s = .ok () s') :
    KvKept s s' held := by
  unfold KVCacheManager.cacheBlocks at hrun
  rw [bind_get] at hrun
  split at hrun
  · rename_i hc
    exact h.coordinatorCacheBlocks hr hc hrun
  · cases hrun
    exact ⟨h, .refl s, .of_managers_eq rfl⟩

end

/-! ## Skipped blocks -/

/-- Two managers with tables of the same lengths. -/
structure SameShape (m m' : SingleTypeKVCacheManager) : Prop where
  length_eq : ∀ id, (m'.blocksOf id).length = (m.blocksOf id).length
  numCachedBlock_eq : m'.numCachedBlock = m.numCachedBlock
  partialHitReqs_eq : m'.partialHitReqs = m.partialHitReqs

/-- What `remove_skipped_blocks` leaves alone. -/
structure SkippedRemoved (s s' : KVCacheManager H) : Prop where
  same : SameKv s s'
  frame : s.pool.RefFrame s'.pool
  shape : ∀ (k : ℕ) (m m' : SingleTypeKVCacheManager), s.managers[k]? = some m →
    s'.managers[k]? = some m' → SameShape m m'

/-- `remove_skipped_blocks` returns, and frees blocks of one request's tables. -/
lemma KvOk.removeSkippedBlocks (h : KvOk s held) (id : String) (n : ℕ) :
    ∃ s', removeSkippedBlocks id n s = .ok () s' ∧ KvOk s' held ∧ SkippedRemoved s s' := by
  obtain ⟨xs, p', ms', hrun, ⟨hinv, hframe⟩, hlen, hR⟩ := runManagers_returns
    (f := fun _ => SingleTypeKVCacheManager.removeSkippedBlocks id n)
    (fun _ m m' => SameGroup m m' ∧ SameShape m m')
    (fun _ p ms => (∃ Q, KvInv p Q ms held) ∧ s.pool.RefFrame p)
    (fun i p ms m hJ hm => by
      obtain ⟨⟨Q, hinv⟩, hframe⟩ := hJ
      obtain ⟨p', m', hrun, hframe', hstep, hlen, hcached, hpart⟩ :=
        hinv.removeSkippedBlocks hm (hframe.hasher_eq ▸ h.collisionFree) id n
      exact ⟨(), p', m', hrun, ⟨hstep.inv, hframe.trans hframe'⟩, hstep.group, hlen, hcached,
        hpart⟩)
    ⟨h.inv, .refl _⟩
  have hsame : SameKv s { s with pool := p', managers := ms' } :=
    ⟨.of_refFrame hframe, ⟨hlen, fun k m m' hm hm' => (hR k m m' hm hm').1⟩, rfl⟩
  refine ⟨{ s with pool := p', managers := ms' }, ?_, h.of_sameKv hsame hinv fun m' hm' id' => ?_,
    hsame, hframe, fun k m m' hm hm' => (hR k m m' hm hm').2⟩
  · unfold KVCacheManager.removeSkippedBlocks
    rw [bind_ok (onManagers_ok hrun)]
    rfl
  · obtain ⟨k, hk⟩ := getElem?_of_mem hm'
    obtain ⟨m, hm, -⟩ := hsame.groups.exists_of_getElem? hk
    rw [(hR k m m' hm hk).2.partialHitReqs_eq]
    exact h.noPartial m (mem_of_getElem? hm) id'

/-! ## `allocate_slots` -/

section AllocateSlots

variable {r : Request H} {a : AllocateSlotsArgs} {res : Option (List (List ℕ))}

/-- The computed tokens up to which `allocate_slots` removes skipped blocks. -/
def processedTokens (s : KVCacheManager H) (r : Request H) (a : AllocateSlotsArgs) : ℕ :=
  ((a.totalComputedTokens r s.maxModelLen : ℤ) - r.numInFlightTokens).toNat

/-- The capacity check of `allocate_slots`. -/
def CapacityOk (s : KVCacheManager H) (r : Request H) (a : AllocateSlotsArgs)
    (numBlocksToAllocate : ℕ) : Prop :=
  (numBlocksToAllocate + s.watermarkFor a r : ℤ) ≤
    (s.pool.getNumFreeBlocks : ℤ) - a.reservedBlocks

/-- How `allocate_slots` returned: before it changed anything; after the skipped blocks were
removed, since the blocks do not fit; or with the blocks allocated, and cached if they are to be. -/
inductive AllocateSlotsOutcome (r : Request H) (a : AllocateSlotsArgs) (s s' : KVCacheManager H) :
    Option (List (List ℕ)) → Prop
  | gated : s' = s → AllocateSlotsOutcome r a s s' none
  | full {R : ℕ} :
      KVCacheManager.removeSkippedBlocks r.requestId (s.processedTokens r a) s = .ok () s' →
      s'.predictedBlocks r a = .ok R → ¬ s'.CapacityOk r a R → AllocateSlotsOutcome r a s s' none
  | allocated {R : ℕ} {s₁ s₂ : KVCacheManager H} {bs : List (List ℕ)} :
      KVCacheManager.removeSkippedBlocks r.requestId (s.processedTokens r a) s = .ok () s₁ →
      s₁.predictedBlocks r a = .ok R → s₁.CapacityOk r a R →
      allocateBlocks r a s₁ = .ok bs s₂ →
      ((s₁.enableCaching = false ∨ a.delayCacheBlocks = true) ∧ s' = s₂ ∨
        (s₁.enableCaching = true ∧ a.delayCacheBlocks = false) ∧
          KVCacheManager.coordinatorCacheBlocks r
            (min (a.totalComputedTokens r s₁.maxModelLen + a.numNewTokens) r.numTokens) s₂ =
            .ok () s') →
      AllocateSlotsOutcome r a s s' (some bs)

omit [DecidableEq H] in
/-- Reading a computed value in the state monad. -/
lemma ofExcept_onPool_eq_ok {α : Type} {x : Except PyErr α} {b : α}
    (h : onPool (BlockPool.ofExcept x) s = .ok b s') : x = .ok b ∧ s' = s := by
  obtain ⟨p, hp, rfl⟩ := onPool_eq_ok.1 h
  obtain ⟨hx, rfl⟩ := BlockPool.ofExcept_eq_ok.1 hp
  exact ⟨hx, rfl⟩

/-- A call of `allocate_slots` that returns has one of the three outcomes. -/
lemma allocateSlots_outcome
    (hrun : allocateSlots r a s = .ok res s') : AllocateSlotsOutcome r a s s' res := by
  unfold allocateSlots at hrun
  rw [bind_get] at hrun
  split at hrun
  · cases hrun
  obtain ⟨fits, s₀, hfits, hrun⟩ := bind_eq_ok.1 hrun
  obtain ⟨-, rfl⟩ := ofExcept_onPool_eq_ok hfits
  cases fits with
  | false =>
    cases hrun
    exact .gated rfl
  | true =>
    obtain ⟨⟨⟩, s₁, hskip, hrun⟩ := bind_eq_ok.1 hrun
    rw [bind_get] at hrun
    obtain ⟨R, s₁', hR, hrun⟩ := bind_eq_ok.1 hrun
    obtain ⟨hR, rfl⟩ := ofExcept_onPool_eq_ok hR
    by_cases hcap : (R + s₁'.watermarkFor a r : ℤ) >
        (s₁'.pool.getNumFreeBlocks : ℤ) - a.reservedBlocks
    · rw [if_pos hcap] at hrun
      cases hrun
      exact .full hskip hR (not_le.2 hcap)
    · rw [if_neg hcap] at hrun
      obtain ⟨bs, s₂, halloc, hrun⟩ := bind_eq_ok.1 hrun
      by_cases hcache : (!s₁'.enableCaching || a.delayCacheBlocks) = true
      · rw [if_pos hcache] at hrun
        cases hrun
        refine .allocated hskip hR (not_lt.1 hcap) halloc (.inl ⟨?_, rfl⟩)
        simpa using hcache
      · rw [if_neg hcache] at hrun
        obtain ⟨⟨⟩, s₃, hcached, hrun⟩ := bind_eq_ok.1 hrun
        cases hrun
        refine .allocated hskip hR (not_lt.1 hcap) halloc (.inr ⟨?_, hcached⟩)
        simpa using hcache

/-- A new request stays new while skipped blocks are removed. -/
lemma NewCall.of_skippedRemoved (h : NewCall s r a) (hskip : SkippedRemoved s s') :
    NewCall s' r a := by
  refine ⟨fun m' hm' => ?_, h.numComputedTokens_eq, h.hit.congr hskip.frame hskip.same.groups,
    fun hc i m' hm' => ?_, ?_⟩
  · obtain ⟨k, hk⟩ := getElem?_of_mem hm'
    obtain ⟨m, hm, -⟩ := hskip.same.groups.exists_of_getElem? hk
    have hshape := hskip.shape k m m' hm hk
    obtain ⟨hblocks, hcached, hpart⟩ := h.fresh m (mem_of_getElem? hm)
    refine ⟨eq_nil_of_length_eq_zero ?_, ?_, ?_⟩
    · rw [hshape.length_eq, hblocks, length_nil]
    · rw [hshape.numCachedBlock_eq, hcached]
    · rw [hshape.partialHitReqs_eq, hpart]
  · obtain ⟨m, hm, -⟩ := hskip.same.groups.exists_of_getElem? hm'
    exact h.noCaching (hskip.frame.enableCaching_eq ▸ hc) i m hm
  · rw [hskip.same.settings]
    exact h.total_lt

omit [DecidableEq H] in
/-- The tables cover the same tokens once skipped blocks are removed. -/
lemma RunningCall.of_skippedRemoved (h : RunningCall s r a) (hskip : SkippedRemoved s s') :
    RunningCall s' r a := by
  refine { h with covered := fun m' hm' hpart => ?_ }
  obtain ⟨k, hk⟩ := getElem?_of_mem hm'
  obtain ⟨m, hm, hgroup⟩ := hskip.same.groups.exists_of_getElem? hk
  rw [(hskip.shape k m m' hm hk).length_eq, hgroup.blockSize_eq]
  exact h.covered m (mem_of_getElem? hm) (hgroup.spec_eq ▸ hpart)

/-- After the skipped blocks are removed the prediction agrees with the allocation. -/
lemma predictionAgrees_of_skippedRemoved (hok : KvOk s' held)
    (hcall : NewCall s r a ∨ RunningCall s r a) (hskip : SkippedRemoved s s') :
    PredictionAgrees s' held r a :=
  predictionAgrees hok (hcall.imp (·.of_skippedRemoved hskip) (·.of_skippedRemoved hskip))

/-- How `allocate_slots` returned from a manager in order: the states on the way are in order, and
what follows the allocation keeps the tables. -/
inductive AllocateSlotsKeeps (r : Request H) (a : AllocateSlotsArgs) (held : List ℕ)
    (s s' : KVCacheManager H) : Prop
  | gated (heq : s' = s)
  | full (hskip : KVCacheManager.removeSkippedBlocks r.requestId (s.processedTokens r a) s =
      .ok () s') (hok : KvOk s' held) (hshape : SkippedRemoved s s')
  | allocated {R : ℕ} {s₁ s₂ : KVCacheManager H} {bs : List (List ℕ)}
      (hskip : KVCacheManager.removeSkippedBlocks r.requestId (s.processedTokens r a) s = .ok () s₁)
      (hok : KvOk s₁ held) (hshape : SkippedRemoved s s₁) (hR : s₁.predictedBlocks r a = .ok R)
      (hfree : R ≤ s₁.pool.getNumFreeBlocks) (halloc : allocateBlocks r a s₁ = .ok bs s₂)
      (hsame : SameKv s₁ s₂) (hkept : KvKept s₂ s' held)

lemma KvOk.allocateSlots_keeps (h : KvOk s held) (hcall : NewCall s r a ∨ RunningCall s r a)
    (hr : r.HashesChained s.pool.hasher) (hrun : allocateSlots r a s = .ok res s') :
    AllocateSlotsKeeps r a held s s' := by
  obtain ⟨s1, hskip1, hok1, hshape1⟩ := h.removeSkippedBlocks r.requestId (s.processedTokens r a)
  cases allocateSlots_outcome hrun with
  | gated heq => exact .gated heq
  | full hskip _ _ =>
    rw [hskip1] at hskip
    cases hskip
    exact .full hskip1 hok1 hshape1
  | allocated hskip hR hcap halloc hrest =>
    rw [hskip1] at hskip
    cases hskip
    obtain ⟨R', hR', hagree⟩ := predictionAgrees_of_skippedRemoved hok1 hcall hshape1
    obtain rfl := Except.ok.inj (hR'.symm.trans hR)
    have hfree : R' ≤ s1.pool.getNumFreeBlocks := by unfold CapacityOk at hcap; omega
    obtain ⟨bs', s2, halloc', hok2, hsame2, -⟩ := hagree hfree
    rw [halloc'] at halloc
    cases halloc
    refine .allocated hskip1 hok1 hshape1 hR hfree halloc' hsame2 ?_
    rcases hrest with ⟨-, rfl⟩ | ⟨⟨hc, -⟩, hcache⟩
    · exact ⟨hok2, .refl _, .of_managers_eq rfl⟩
    · exact hok2.coordinatorCacheBlocks (by rwa [(hshape1.same.trans hsame2).pool.hasher_eq])
        (by rw [hsame2.settings]; exact hc) hcache

/-- `allocate_slots` keeps the manager in order. -/
lemma KvOk.allocateSlots (h : KvOk s held) (hcall : NewCall s r a ∨ RunningCall s r a)
    (hr : r.HashesChained s.pool.hasher)
    (hrun : allocateSlots r a s = .ok res s') : KvOk s' held ∧ SameKv s s' := by
  cases h.allocateSlots_keeps hcall hr hrun with
  | gated heq =>
    subst heq
    exact ⟨h, .refl _⟩
  | full _ hok hshape => exact ⟨hok, hshape.same⟩
  | allocated _ _ hshape _ _ _ hsame hkept =>
    exact ⟨hkept.1, (hshape.same.trans hsame).trans hkept.2.1⟩

end AllocateSlots

end KVCacheManager

end Lvllm
