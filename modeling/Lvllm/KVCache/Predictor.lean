import Lvllm.KVCache.Allocation

/-!
# The allocation predictor

`get_num_blocks_to_allocate` is computed before anything is allocated.  For a request that the
tables cover it is what the managers still need.  For a new request it is what they need after the
hits are touched, plus the hits that leave the free queue by that.  `predictionAgrees` follows
the prediction through the three parts of the allocation: the free queue shrinks by as much.
-/

namespace Lvllm

open SingleTypeKVCacheManager List

variable {H : Type}

/-! ## What no operation changes -/

/-- The managers of two states, one by one. -/
structure SameGroups (ms ms' : List SingleTypeKVCacheManager) : Prop where
  length_eq : ms'.length = ms.length
  group : ∀ (k : ℕ) (m m' : SingleTypeKVCacheManager), ms[k]? = some m → ms'[k]? = some m' →
    SameGroup m m'

namespace SameGroups

variable {ms ms' ms'' : List SingleTypeKVCacheManager} {i : ℕ} {m m' : SingleTypeKVCacheManager}

lemma refl (ms : List SingleTypeKVCacheManager) : SameGroups ms ms := by
  refine ⟨rfl, fun k m m' hm hm' => ?_⟩
  obtain rfl := Option.some.inj (hm.symm.trans hm')
  exact .refl m

/-- The manager of the first state at the index of one of the second. -/
lemma exists_of_getElem? (h : SameGroups ms ms') (hm' : ms'[i]? = some m') :
    ∃ m, ms[i]? = some m ∧ SameGroup m m' := by
  have hlt : i < ms.length := h.length_eq ▸ (List.getElem?_eq_some_iff.1 hm').1
  exact ⟨ms[i], getElem?_eq_getElem hlt, h.group i _ m' (getElem?_eq_getElem hlt) hm'⟩

lemma trans (h : SameGroups ms ms') (h' : SameGroups ms' ms'') : SameGroups ms ms'' := by
  refine ⟨h'.length_eq.trans h.length_eq, fun k m m'' hm hm'' => ?_⟩
  obtain ⟨m', hm', hgroup'⟩ := h'.exists_of_getElem? hm''
  have hgroup := h.group k m m' hm hm'
  exact ⟨hgroup'.1.trans hgroup.1, hgroup'.2.trans hgroup.2, hgroup'.3.trans hgroup.3⟩

lemma set (hm : ms[i]? = some m) (hgroup : SameGroup m m') : SameGroups ms (ms.set i m') := by
  refine ⟨length_set, fun k m1 m2 hm1 hm2 => ?_⟩
  by_cases hk : i = k
  · subst hk
    rw [getElem?_set_self (List.getElem?_eq_some_iff.1 hm).1] at hm2
    obtain rfl := Option.some.inj (hm.symm.trans hm1)
    obtain rfl := Option.some.inj hm2
    exact hgroup
  · rw [getElem?_set_ne hk] at hm2
    obtain rfl := Option.some.inj (hm1.symm.trans hm2)
    exact .refl m1

end SameGroups

variable [DecidableEq H]

variable {R n total : ℕ} {ms : List SingleTypeKVCacheManager} {hits : List (List ℕ)}
  {p : BlockPool H} {k : ℕ}

/-- A hit stays a hit while references change. -/
lemma KVCacheManager.PrefixHit.congr {p' : BlockPool H} {ms' : List SingleTypeKVCacheManager}
    (h : KVCacheManager.PrefixHit p ms hits n) (hframe : p.RefFrame p')
    (hgroups : SameGroups ms ms') : KVCacheManager.PrefixHit p' ms' hits n := by
  refine ⟨fun i m' hm' j b hj => ?_, fun i m' hm' hne hmod => ?_, fun i m' hm' hpart => ?_⟩
  · obtain ⟨m, hm, hgroup⟩ := hgroups.exists_of_getElem? hm'
    rw [hframe.nullBlock_eq, hframe.keysOf_eq, hframe.hasher_eq, hgroup.blockSize_eq,
      hgroup.spec_eq]
    exact h.placed i m hm j b hj
  · obtain ⟨m, hm, hgroup⟩ := hgroups.exists_of_getElem? hm'
    rw [hgroup.blockSize_eq] at hmod ⊢
    rw [hgroup.spec_eq]
    obtain ⟨hfull, hlen, hkeys⟩ := h.ends i m hm hne hmod
    refine ⟨hfull, hlen, fun b hb => ?_⟩
    rw [hframe.keysOf_eq]
    exact hkeys b hb
  · obtain ⟨m, hm, hgroup⟩ := hgroups.exists_of_getElem? hm'
    rw [hgroup.blockSize_eq]
    exact h.covers i m hm (hgroup.spec_eq ▸ hpart)

/-! ## The prediction of one manager -/

omit [DecidableEq H] in
lemma getNumSkippedTokens_le (m : SingleTypeKVCacheManager) (n : ℕ) :
    m.getNumSkippedTokens n ≤ n := by
  unfold getNumSkippedTokens
  cases m.spec.kind with
  | slidingWindow window extra =>
    have := window.pos
    dsimp only
    omega
  | chunkedLocalAttention chunk => exact Nat.div_mul_le_self _ _
  | _ => exact Nat.zero_le n

section Prediction

variable {p : BlockPool H} {m : SingleTypeKVCacheManager} {id : String}

section

omit [DecidableEq H]

/-- Outside prefix caching the prediction is the scratch block, if it is not held yet. -/
lemma getNumBlocksToAllocate_scratch (hspec : m.spec.participatesInPrefixCaching = false)
    (numTokens : ℕ) (hits : List ℕ) (total n : ℕ) (cap : Bool) :
    m.getNumBlocksToAllocate p id numTokens hits total n cap =
      .ok (m.slotsNeeded id numTokens) := by
  rw [slotsNeeded_of_scratch hspec]
  unfold getNumBlocksToAllocate
  rcases kind_of_scratch hspec with hk | hk
  · simp only [hk]
  · simp only [hk]
    cases m.blocksOf id with
    | nil => rfl
    | cons b blocks => simp

/-- Groups in prefix caching use the prediction of the base class. -/
lemma getNumBlocksToAllocate_of_participates (hspec : m.spec.participatesInPrefixCaching = true)
    (numTokens : ℕ) (hits : List ℕ) (total n : ℕ) (cap : Bool) :
    m.getNumBlocksToAllocate p id numTokens hits total n cap =
      m.baseNumBlocksToAllocate p id numTokens hits total n cap := by
  unfold KVCacheSpec.participatesInPrefixCaching at hspec
  unfold getNumBlocksToAllocate
  cases hkind : m.spec.kind with
  | circularBuffer | kpoolTail => simp [hkind] at hspec
  | _ => rfl

/-- For a request without hits whose table covers the computed tokens, the prediction is what the
manager needs. -/
lemma getNumBlocksToAllocate_covered (hnone : m.partialHitReqs.get? id = none)
    (hcovered : m.spec.participatesInPrefixCaching = true →
      total ≤ (m.blocksOf id).length * m.blockSize) (numTokens n : ℕ) :
    m.getNumBlocksToAllocate p id numTokens [] total n false =
      .ok (m.slotsNeeded id numTokens) := by
  cases hspec : m.spec.participatesInPrefixCaching with
  | false => exact getNumBlocksToAllocate_scratch hspec _ _ _ _ _
  | true =>
    have hskip : m.getNumSkippedTokens total / m.blockSize ≤ (m.blocksOf id).length :=
      Nat.div_le_of_le_mul (by
        rw [Nat.mul_comm]
        exact (getNumSkippedTokens_le m total).trans (hcovered hspec))
    rw [getNumBlocksToAllocate_of_participates hspec, slotsNeeded_of_participates _ _ hspec, hnone]
    unfold baseNumBlocksToAllocate
    simp only [isEmpty_nil, if_true, length_nil, drop_nil, Nat.zero_add,
      hasPartialLocalHit, Bool.not_true, Bool.false_and, Bool.false_eq_true, if_false,
      getNumEvictableBlocks, countP_nil, Nat.add_zero, Option.isSome_none,
      Nat.max_eq_right hskip, ite_self]

/-- What is needed once the hits of a new request are recorded. -/
lemma slotsNeeded_recordComputedBlocks (hspec : m.spec.participatesInPrefixCaching = true)
    (hnone : m.partialHitReqs.get? id = none) (k : ℕ) (hits : List ℕ) (n numTokens : ℕ) :
    (m.recordComputedBlocks id k p.nullBlock (hits.drop k) n).slotsNeeded id numTokens =
      (if m.hasPartialLocalHit (hits.drop k) n then 1 else 0) +
        (cdiv numTokens m.blockSize - max k hits.length) := by
  have hgroup := (recordComputedBlocks_table m id k p.nullBlock (hits.drop k) n).2.2
  rw [slotsNeeded_of_participates _ _ (by rw [hgroup.spec_eq, hspec]), hgroup.blockSize_eq,
    blocksOf_recordComputedBlocks, blocksOf_setBlocks_self, partialHitReqs_recordComputedBlocks,
    hnone, length_append, length_replicate, length_drop]
  have hmax : k + (hits.length - k) = max k hits.length := by omega
  rw [hmax]
  by_cases hinner : m.hasPartialLocalHit (hits.drop k) n = true
  · simp only [hinner, and_self, if_true, Option.isSome_some]
  · simp only [hinner, and_false, if_false, Option.isSome_none, Bool.false_eq_true]

/-- For a new request the prediction is what the manager needs once the hits are recorded, and the
hits that leave the free queue. -/
lemma getNumBlocksToAllocate_fresh (hspec : m.spec.participatesInPrefixCaching = true)
    (hfresh : m.Fresh id) {hits : List ℕ} (hk : k = m.getNumSkippedTokens total / m.blockSize)
    (hinner : m.hasPartialLocalHit (hits.drop k) n = m.hasPartialLocalHit hits n) (numTokens : ℕ) :
    m.getNumBlocksToAllocate p id numTokens hits total n false =
      .ok (getNumEvictableBlocks p (hits.drop k) +
        (m.recordComputedBlocks id k p.nullBlock (hits.drop k) n).slotsNeeded id numTokens) := by
  have hcontains : m.numCachedBlock.contains id = false := by
    rw [Dict.contains, hfresh.numCachedBlock_eq]
    rfl
  rw [getNumBlocksToAllocate_of_participates hspec,
    slotsNeeded_recordComputedBlocks hspec hfresh.partialHitReqs_eq, hinner]
  unfold baseNumBlocksToAllocate
  simp only [hcontains, Bool.false_eq_true, if_false, hfresh.blocksOf_eq, length_nil,
    Nat.add_zero, Nat.sub_zero, ← hk]
  split
  · congr 1
    omega
  · congr 1
    omega

lemma participates_of_isFullAttention (hfull : m.spec.isFullAttention = true) :
    m.spec.participatesInPrefixCaching = true := by
  unfold KVCacheSpec.isFullAttention at hfull
  unfold KVCacheSpec.participatesInPrefixCaching
  cases hkind : m.spec.kind with
  | fullAttention => rfl
  | _ => simp [hkind] at hfull

end

variable {ms : List SingleTypeKVCacheManager} {i : ℕ} {hits : List (List ℕ)} {n : ℕ}

omit [DecidableEq H] in
lemma hasPartialLocalHit_iff {hits : List ℕ} :
    m.hasPartialLocalHit hits n = true ↔ hits ≠ [] ∧ n % m.blockSize ≠ 0 := by
  simp [hasPartialLocalHit]

/-- A partial hit is one of full attention, where no block is skipped. -/
lemma hasPartialLocalHit_drop (hhit : KVCacheManager.PrefixHit p ms hits n) (hm : ms[i]? = some m)
    (hk : k = m.getNumSkippedTokens total / m.blockSize) :
    m.hasPartialLocalHit ((hits.getD i []).drop k) n = m.hasPartialLocalHit (hits.getD i []) n := by
  by_cases hnil : hits.getD i [] = []
  · rw [hnil, drop_nil]
  by_cases hmod : n % m.blockSize = 0
  · simp [hasPartialLocalHit, hmod]
  · have hfull := (hhit.ends i m hm hnil hmod).1
    rw [hk, getNumSkippedTokens_of_isFullAttention hfull, Nat.zero_div, drop_zero]

omit [DecidableEq H] in
lemma getElem?_eq_getLastD {l : List ℕ} {j : ℕ} (h : l.length = j + 1) (d : ℕ) :
    l[j]? = some (l.getLastD d) := by
  rw [getLastD_eq_getLast?, getLast?_eq_getElem?, h]
  simp [h]

/-- The record of a partial hit names the last block of the hit, which is in the table. -/
lemma partialOk_recordComputedBlocks {Q held : List ℕ} (h : KvInv p Q ms held)
    (hhit : KVCacheManager.PrefixHit p ms hits n) (hm : ms[i]? = some m)
    (hnone : m.partialHitReqs.get? id = none) (hk : k = m.getNumSkippedTokens total / m.blockSize) :
    (m.recordComputedBlocks id k p.nullBlock ((hits.getD i []).drop k) n).PartialOk
      p.nullBlock id := by
  intro blockIdx src hsome
  rw [partialHitReqs_recordComputedBlocks] at hsome
  by_cases hinner : m.hasPartialLocalHit ((hits.getD i []).drop k) n = true
  · rw [if_pos ⟨rfl, hinner⟩] at hsome
    obtain ⟨rfl, rfl⟩ := Prod.mk.inj (Option.some.inj hsome)
    rw [hasPartialLocalHit_drop hhit hm hk, hasPartialLocalHit_iff] at hinner
    obtain ⟨hfull, hlen, hkeys⟩ := hhit.ends i m hm hinner.1 hinner.2
    obtain rfl : k = 0 := by
      rw [hk, getNumSkippedTokens_of_isFullAttention hfull, Nat.zero_div]
    have hlast := getElem?_eq_getLastD hlen p.nullBlock
    refine ⟨?_, ?_, ?_⟩
    · rw [blocksOf_recordComputedBlocks, blocksOf_setBlocks_self]
      exact hlast
    · exact (h.keyed _ (hkeys _ (mem_of_getElem? hlast))).1
    · rw [(recordComputedBlocks_table m id 0 p.nullBlock _ n).2.2.spec_eq]
      exact participates_of_isFullAttention hfull
  · rw [if_neg fun hboth => hinner hboth.2, hnone] at hsome
    cases hsome

end Prediction

/-! ## The parts of the allocation -/

/-- An allocation is under way: `slack` blocks are left once every manager has what it needs. -/
structure Allocating (p₀ : BlockPool H) (ms₀ : List SingleTypeKVCacheManager) (held : List ℕ)
    (id : String) (numTokens slack : ℕ) (p : BlockPool H) (ms : List SingleTypeKVCacheManager) :
    Prop where
  free : ∃ Q, KvInv p Q ms held ∧ Q.length = slack + (ms.map (·.slotsNeeded id numTokens)).sum
  pool : SamePool p₀ p
  groups : SameGroups ms₀ ms
  partialOk : ∀ m ∈ ms, m.PartialOk p₀.nullBlock id
  others : ∀ m ∈ ms, ∀ id', id' ≠ id → m.partialHitReqs.get? id' = none

section Parts

variable {p₀ p p' : BlockPool H} {ms₀ ms : List SingleTypeKVCacheManager} {held : List ℕ}
  {id : String} {numTokens slack : ℕ}

variable {i ext : ℕ}

section

variable (h : Allocating p₀ ms₀ held id numTokens slack p ms)

include h

lemma Allocating.step {Q Q' : List ℕ}
    (hQ : Q.length = slack + (ms.map (·.slotsNeeded id numTokens)).sum)
    {m m' : SingleTypeKVCacheManager} (hm : ms[i]? = some m)
    (hstep : AllocStep p p' Q Q' ms i m m' held id numTokens) :
    Allocating p₀ ms₀ held id numTokens slack p' (ms.set i m') := by
  have hmem : ∀ m1 ∈ ms.set i m', m1 = m' ∨ m1 ∈ ms := fun m1 hm1 =>
    (mem_or_eq_of_mem_set hm1).symm
  refine ⟨⟨Q', hstep.inv, ?_⟩, h.pool.trans hstep.pool, h.groups.trans (.set hm hstep.group),
    fun m1 hm1 => ?_, fun m1 hm1 id' hid => ?_⟩
  · have hsum := sum_map_set (·.slotsNeeded id numTokens) m' hm
    have htaken := hstep.taken
    omega
  · rcases hmem m1 hm1 with rfl | hold
    · exact h.pool.nullBlock_eq ▸ hstep.partialOk
    · exact h.partialOk m1 hold
  · rcases hmem m1 hm1 with rfl | hold
    · rw [hstep.others id' hid]
      exact h.others m (mem_of_getElem? hm) id' hid
    · exact h.others m1 hold id' hid

/-- In an allocation that is under way, the free queue has what the manager needs. -/
lemma Allocating.slotsNeeded_le (hm : ms[i]? = some m) :
    ∃ Q, KvInv p Q ms held ∧ m.PartialOk p.nullBlock id ∧
      Q.length = slack + (ms.map (·.slotsNeeded id numTokens)).sum ∧
      m.slotsNeeded id numTokens ≤ Q.length := by
  obtain ⟨Q, hinv, hQ⟩ := h.free
  have hle : m.slotsNeeded id numTokens ≤ (ms.map (·.slotsNeeded id numTokens)).sum :=
    le_sum_of_mem (mem_map_of_mem (mem_of_getElem? hm))
  exact ⟨Q, hinv, h.pool.nullBlock_eq ▸ h.partialOk m (mem_of_getElem? hm), hQ, by omega⟩

/-- Every manager does its part: what each one guarantees holds of all in the end. -/
lemma Allocating.runManagers {α : Type} {f : ℕ → ManagerM H α}
    (done : SingleTypeKVCacheManager → Prop) (hbh : p₀.hasher.CollisionFree)
    (hf : ∀ i p Q ms m, KvInv p Q ms held → ms[i]? = some m → p.hasher.CollisionFree →
      m.PartialOk p.nullBlock id → m.slotsNeeded id numTokens ≤ Q.length →
      ∃ x p' Q' m', f i (p, m) = .ok x (p', m') ∧
        AllocStep p p' Q Q' ms i m m' held id numTokens ∧ done m') :
    ∃ xs p' ms', Lvllm.runManagers f 0 p ms = .ok xs (p', ms') ∧
      Allocating p₀ ms₀ held id numTokens slack p' ms' ∧ ∀ m ∈ ms', done m := by
  obtain ⟨xs, p', ms', hrun, halloc, hlen, hdone⟩ := runManagers_returns (fun _ _ => done)
    (fun _ => Allocating p₀ ms₀ held id numTokens slack) (fun i p ms m halloc hm => by
      obtain ⟨Q, hinv, hpart, hQ, hle⟩ := halloc.slotsNeeded_le hm
      obtain ⟨x, p', Q', m', hrun, hstep, hm'⟩ := hf i p Q ms m hinv hm
        (halloc.pool.hasher_eq ▸ hbh) hpart hle
      exact ⟨x, p', m', hrun, halloc.step hQ hm hstep, hm'⟩) h
  refine ⟨xs, p', ms', hrun, halloc, fun m hm => ?_⟩
  obtain ⟨k, hk⟩ := getElem?_of_mem hm
  have hlt : k < ms.length := hlen ▸ (List.getElem?_eq_some_iff.1 hk).1
  exact hdone k _ m (getElem?_eq_getElem hlt) hk

lemma Allocating.allocateExternal (hbh : p₀.hasher.CollisionFree) (hle : n + ext ≤ numTokens) :
    ∃ xs p' ms', Lvllm.runManagers (fun _ => allocateExternalComputedBlocks id n ext) 0 p ms =
        .ok xs (p', ms') ∧ Allocating p₀ ms₀ held id numTokens slack p' ms' := by
  obtain ⟨xs, p', ms', hrun, halloc, -⟩ := h.runManagers (fun _ => True) hbh
    fun i p Q ms m hinv hm hbh' hpart hQ => by
      obtain ⟨p', Q', m', hrun, hstep⟩ :=
        AllocStep.allocateExternalComputedBlocks hinv hm hbh' hpart hQ hle
      exact ⟨(), p', Q', m', hrun, hstep, trivial⟩
  exact ⟨xs, p', ms', hrun, halloc⟩

/-- The new blocks.  Afterwards nothing is needed and no partial hit is left. -/
lemma Allocating.allocateNew (hbh : p₀.hasher.CollisionFree) : ∃ bs p' ms' Q', Lvllm.runManagers
        (fun _ => allocateNewBlocks id numTokens) 0 p ms =
        .ok bs (p', ms') ∧ KvInv p' Q' ms' held ∧ Q'.length = slack ∧ SamePool p₀ p' ∧
      SameGroups ms₀ ms' ∧ (∀ m ∈ ms', ∀ id', m.partialHitReqs.get? id' = none) ∧
      ∀ m ∈ ms', m.slotsNeeded id numTokens = 0 := by
  obtain ⟨bs, p', ms', hrun, halloc, hdone⟩ := h.runManagers
    (fun m => m.slotsNeeded id numTokens = 0 ∧ m.partialHitReqs.get? id = none) hbh
    fun i p Q ms m hinv hm hbh' hpart hQ => AllocStep.allocateNewBlocks hinv hm hbh' hpart hQ
  obtain ⟨Q', hinv, hlen⟩ := halloc.free
  have hzero : (ms'.map (·.slotsNeeded id numTokens)).sum = 0 := by
    rw [sum_eq_zero]
    intro x hx
    obtain ⟨m, hm, rfl⟩ := mem_map.1 hx
    exact (hdone m hm).1
  refine ⟨bs, p', ms', Q', hrun, hinv, by omega, halloc.pool, halloc.groups,
    fun m hm id' => ?_, fun m hm => (hdone m hm).1⟩
  by_cases hid : id' = id
  · exact hid ▸ (hdone m hm).2
  · exact halloc.others m hm id' hid

end

/-! ## Touching the hits -/

/-- What is fixed while the hits of a new request are touched. -/
structure NewRequest (p₀ : BlockPool H) (ms₀ : List SingleTypeKVCacheManager) (id : String)
    (hits : List (List ℕ)) (n : ℕ) : Prop where
  collisionFree : p₀.hasher.CollisionFree
  fresh : ∀ m ∈ ms₀, m.Fresh id
  hit : KVCacheManager.PrefixHit p₀ ms₀ hits n
  noCaching : p₀.enableCaching = false → ∀ (i : ℕ) (m : SingleTypeKVCacheManager),
    ms₀[i]? = some m → hits.getD i [] = []
  others : ∀ m ∈ ms₀, ∀ id', m.partialHitReqs.get? id' = none

/-- The hits of the groups before `i` are touched.  The prediction for the other groups is still
the one that was made for them at the start. -/
structure Touching (p₀ : BlockPool H) (ms₀ : List SingleTypeKVCacheManager) (held : List ℕ)
    (id : String) (hits : List (List ℕ)) (total n numTokens slack i : ℕ) (p : BlockPool H)
    (ms : List SingleTypeKVCacheManager) : Prop where
  free : ∃ Q R, KvInv p Q ms held ∧
    KVCacheManager.sumBlocksToAllocate p₀ id numTokens hits total n false i (ms₀.drop i) = .ok R ∧
    Q.length = slack + ((ms.take i).map (·.slotsNeeded id numTokens)).sum + R
  frame : p₀.RefFrame p
  groups : SameGroups ms₀ ms
  rest : ∀ k, i ≤ k → ms[k]? = ms₀[k]?
  /-- The hits of the other groups have the references they had. -/
  refCnt_eq : ∀ b, ∀ key ∈ p₀.keysOf b, i ≤ key.groupId →
    (p.blocks b).refCnt = (p₀.blocks b).refCnt
  partialOk : ∀ m ∈ ms, m.PartialOk p₀.nullBlock id
  others : ∀ m ∈ ms, ∀ id', id' ≠ id → m.partialHitReqs.get? id' = none

lemma KvInv.groupId_unique {Q : List ℕ} (h : KvInv p Q ms held) {b : ℕ}
    {key key' : BlockHashWithGroupId H} (hkey : key ∈ p.keysOf b) (hkey' : key' ∈ p.keysOf b) :
    key.groupId = key'.groupId := by
  obtain ⟨pos, hpos⟩ := h.placed
  obtain ⟨_, _, hat⟩ := hpos.keys b key hkey
  obtain ⟨_, _, hat'⟩ := hpos.keys b key' hkey'
  rw [hat.groupId_eq, hat'.groupId_eq]

/-- A manager that is replaced leaves the ones before it. -/
lemma sum_take_set_succ {α : Type} (f : α → ℕ) {l : List α} {a : α} (a' : α) (h : l[i]? = some a) :
    (((l.set i a').take (i + 1)).map f).sum = ((l.take i).map f).sum + f a' := by
  have hlt : i < l.length := (List.getElem?_eq_some_iff.1 h).1
  have hset : (l.set i a')[i]? = some a' := getElem?_set_self hlt
  rw [take_add_one, hset, take_set_of_le le_rfl]
  simp

variable {hits : List (List ℕ)} {total n i : ℕ} {m : SingleTypeKVCacheManager}

omit [DecidableEq H] in
/-- The prediction from group `i` on is that of group `i` and that of the groups after it. -/
lemma sumBlocksToAllocate_drop (hm : ms₀[i]? = some m)
    (h : KVCacheManager.sumBlocksToAllocate p₀ id numTokens hits total n false i (ms₀.drop i) =
      .ok R) :
    ∃ a R', m.getNumBlocksToAllocate p₀ id numTokens (hits.getD i []) total n false = .ok a ∧
      KVCacheManager.sumBlocksToAllocate p₀ id numTokens hits total n false (i + 1)
        (ms₀.drop (i + 1)) = .ok R' ∧ R = a + R' := by
  obtain ⟨hlt, rfl⟩ := List.getElem?_eq_some_iff.1 hm
  rw [drop_eq_getElem_cons hlt, KVCacheManager.sumBlocksToAllocate] at h
  obtain ⟨a, ha, h⟩ := except_bind_eq_ok.1 h
  obtain ⟨R', hR', h⟩ := except_bind_eq_ok.1 h
  cases h
  exact ⟨a, R', ha, hR', rfl⟩

/-- The hits of group `i` are evictable in the current pool iff they were at the start. -/
lemma Touching.evictable_eq (h : Touching p₀ ms₀ held id hits total n numTokens slack i p ms)
    (hnew : NewRequest p₀ ms₀ id hits n) (hm : ms₀[i]? = some m) (k : ℕ) :
    getNumEvictableBlocks p ((hits.getD i []).drop k) =
      getNumEvictableBlocks p₀ ((hits.getD i []).drop k) := by
  obtain ⟨Q, -, hinv, -⟩ := h.free
  refine countP_congr fun b hb => ?_
  obtain ⟨j, hj⟩ := getElem?_of_mem (mem_of_mem_drop hb)
  rw [h.frame.isNull_eq]
  rcases hnew.hit.placed i m hm j b hj with ⟨-, rfl⟩ | ⟨key, hkey, hat⟩
  · -- The null block is never counted.
    have hnull : (p₀.blocks p₀.nullBlock).isNull = true := by
      rw [← h.frame.isNull_eq, ← h.frame.nullBlock_eq]
      exact (hinv.free.isNull_iff _).2 rfl
    simp [hnull]
  · rw [h.refCnt_eq b key hkey hat.groupId_eq.ge]

lemma Touching.step (hnew : NewRequest p₀ ms₀ id hits n)
    (h : Touching p₀ ms₀ held id hits (n + ext) n numTokens slack i p ms) (hm : ms[i]? = some m) :
    ∃ p' m', addLocalComputedBlocks id (hits.getD i []) n ext (p, m) = .ok () (p', m') ∧
      Touching p₀ ms₀ held id hits (n + ext) n numTokens slack (i + 1) p' (ms.set i m') := by
  obtain ⟨Q, R, hinv, hR, hQ⟩ := h.free
  have hm0 : ms₀[i]? = some m := (h.rest i le_rfl) ▸ hm
  have hmem0 : m ∈ ms₀ := mem_of_getElem? hm0
  have hmem : m ∈ ms := mem_of_getElem? hm
  obtain ⟨a, R', ha, hR', rfl⟩ := sumBlocksToAllocate_drop hm0 hR
  cases hspec : m.spec.participatesInPrefixCaching with
  | false =>
    have hset : ms.set i m = ms := by
      obtain ⟨hlt, rfl⟩ := List.getElem?_eq_some_iff.1 hm
      exact set_getElem_self hlt
    rw [getNumBlocksToAllocate_scratch hspec] at ha
    refine ⟨p, m, addLocalComputedBlocks_scratch hspec _ _ _, ⟨Q, R', by rwa [hset], hR', ?_⟩,
      h.frame, by rw [hset]; exact h.groups, fun k hk => ?_, fun b key hkey hle => ?_, ?_, ?_⟩
    · rw [sum_take_set_succ _ m hm, hQ]
      cases ha
      omega
    · rw [hset]
      exact h.rest k (by omega)
    · exact h.refCnt_eq b key hkey (by omega)
    · rw [hset]
      exact h.partialOk
    · rw [hset]
      exact h.others
  | true =>
    have hfresh := hnew.fresh m hmem0
    have hbh : p.hasher.CollisionFree := h.frame.hasher_eq ▸ hnew.collisionFree
    have hhit : KVCacheManager.PrefixHit p ms hits n := hnew.hit.congr h.frame h.groups
    have hhits : HitsAt p m i (hits.getD i []) := hhit.placed i m hm
    obtain ⟨p', hrun, hframe, hcnt, hinv'⟩ := hinv.addLocalComputedBlocks hm hbh hspec
      hfresh.blocksOf_eq hhits (fun hc => hnew.noCaching (h.frame.enableCaching_eq ▸ hc) i m hm0)
      (n := n) (k := m.getNumSkippedTokens (n + ext) / m.blockSize) rfl
    have hdrop := hasPartialLocalHit_drop hhit hm
      (k := m.getNumSkippedTokens (n + ext) / m.blockSize) rfl
    have hpart := partialOk_recordComputedBlocks hinv hhit hm hfresh.partialHitReqs_eq
      (k := m.getNumSkippedTokens (n + ext) / m.blockSize) rfl
    have hlen := hinv.length_filter_hits hm hbh hhits
      (m.getNumSkippedTokens (n + ext) / m.blockSize)
    rw [getNumBlocksToAllocate_fresh hspec hfresh rfl hdrop, ← h.evictable_eq hnew hm0,
      ← h.frame.nullBlock_eq] at ha
    generalize m.getNumSkippedTokens (n + ext) / m.blockSize = k at hrun hcnt hinv' hpart hlen ha
    have hgroup := (recordComputedBlocks_table m id k p.nullBlock ((hits.getD i []).drop k) n).2.2
    have hothers : ∀ id', id' ≠ id → (m.recordComputedBlocks id k p.nullBlock
        ((hits.getD i []).drop k) n).partialHitReqs.get? id' = none := by
      intro id' hid
      rw [partialHitReqs_recordComputedBlocks, if_neg fun hboth => hid hboth.1]
      exact h.others m hmem id' hid
    generalize m.recordComputedBlocks id k p.nullBlock ((hits.getD i []).drop k) n = m' at *
    refine ⟨p', m', hrun, ⟨_, R', hinv', hR', ?_⟩, h.frame.trans hframe,
      h.groups.trans (.set hm hgroup), fun j hj => ?_, fun b key hkey hle => ?_, fun m1 hm1 => ?_,
      fun m1 hm1 id' hid => ?_⟩
    · rw [sum_take_set_succ _ m' hm]
      cases ha
      omega
    · rw [getElem?_set_ne (by omega)]
      exact h.rest j (by omega)
    · -- A block with a key of a later group is not a hit of this one.
      rw [hcnt, h.refCnt_eq b key hkey (by omega)]
      have hnot : b ∉ (hits.getD i []).drop k := by
        intro hb
        obtain ⟨j, hj⟩ := getElem?_of_mem (mem_of_mem_drop hb)
        have hkey' : key ∈ p.keysOf b := by
          rw [h.frame.keysOf_eq]
          exact hkey
        rcases hhits j b hj with ⟨-, rfl⟩ | ⟨key', hkey'', hat⟩
        · exact (hinv.keyed _ (ne_nil_of_mem hkey')).1 rfl
        · have := hinv.groupId_unique hkey' hkey''
          have := hat.groupId_eq
          omega
      rw [count_eq_zero.2 hnot]
      omega
    · rcases mem_or_eq_of_mem_set hm1 with hold | rfl
      · exact h.partialOk m1 hold
      · exact h.frame.nullBlock_eq ▸ hpart
    · rcases mem_or_eq_of_mem_set hm1 with hold | rfl
      · exact h.others m1 hold id' hid
      · exact hothers id' hid

/-- Once the hits of every group are touched, the allocation is under way. -/
lemma Touching.allocating (hlen : ms.length = ms₀.length)
    (h : Touching p₀ ms₀ held id hits total n numTokens slack ms₀.length p ms) :
    Allocating p₀ ms₀ held id numTokens slack p ms := by
  obtain ⟨Q, R, hinv, hR, hQ⟩ := h.free
  refine ⟨⟨Q, hinv, ?_⟩, .of_refFrame h.frame, h.groups, h.partialOk, h.others⟩
  rw [drop_length] at hR
  cases hR
  rw [← hlen, take_length] at hQ
  exact hQ

lemma Touching.addLocal (hnew : NewRequest p₀ ms₀ id hits n)
    (h : Touching p₀ ms₀ held id hits (n + ext) n numTokens slack 0 p₀ ms₀) :
    ∃ xs p' ms', Lvllm.runManagers (fun i => addLocalComputedBlocks id (hits.getD i []) n ext) 0 p₀
        ms₀ = .ok xs (p', ms') ∧ Allocating p₀ ms₀ held id numTokens slack p' ms' := by
  obtain ⟨xs, p', ms', hrun, htouch, hlen, -⟩ := runManagers_returns (fun _ _ _ => True)
    (Touching p₀ ms₀ held id hits (n + ext) n numTokens slack)
    (fun i p ms m hJ hm => by
      obtain ⟨p', m', hrun, hJ'⟩ := hJ.step hnew hm
      exact ⟨(), p', m', hrun, hJ', trivial⟩) h
  exact ⟨xs, p', ms', hrun, htouch.allocating hlen⟩

omit [DecidableEq H] in
/-- If every manager's prediction is a number, so is the sum. -/
lemma sumBlocksToAllocate_ok {cap : Bool} (f : SingleTypeKVCacheManager → ℕ → ℕ)
    (h : ∀ (k : ℕ) m, ms[k]? = some m →
      m.getNumBlocksToAllocate p id numTokens (hits.getD (i + k) []) total n cap =
        .ok (f m (i + k))) :
    KVCacheManager.sumBlocksToAllocate p id numTokens hits total n cap i ms =
      .ok ((ms.zipIdx i).map fun x => f x.1 x.2).sum := by
  induction ms generalizing i with
  | nil => rfl
  | cons m ms ih =>
    have hm := h 0 m rfl
    have hrest := ih (i := i + 1) fun k m1 hm1 => by
      have := h (k + 1) m1 (by simpa using hm1)
      rwa [show i + (k + 1) = i + 1 + k by omega] at this
    rw [Nat.add_zero] at hm
    simp only [KVCacheManager.sumBlocksToAllocate, hm, hrest, zipIdx_cons, map_cons, sum_cons]
    rfl

omit [DecidableEq H] in
lemma sumBlocksToAllocate_exists {cap : Bool} (h : ∀ (k : ℕ) m, ms[k]? = some m →
      ∃ a, m.getNumBlocksToAllocate p id numTokens (hits.getD k []) total n cap = .ok a) :
    ∃ R, KVCacheManager.sumBlocksToAllocate p id numTokens hits total n cap 0 ms = .ok R := by
  refine ⟨_, sumBlocksToAllocate_ok (fun m i => (m.getNumBlocksToAllocate p id numTokens
    (hits.getD i []) total n cap).toOption.getD 0) fun k m hm => ?_⟩
  obtain ⟨a, ha⟩ := h k m hm
  rw [Nat.zero_add, ha]
  rfl

end Parts

/-! ## The allocation of a call -/

namespace KVCacheManager

variable {s s' : KVCacheManager H} {held : List ℕ} {r : Request H} {a : AllocateSlotsArgs}

/-- A state of the manager between two operations; `held` lists the references that callers took
over. -/
structure KvOk (s : KVCacheManager H) (held : List ℕ) : Prop where
  inv : ∃ Q, KvInv s.pool Q s.managers held
  config : s.ConfigOk
  collisionFree : s.pool.hasher.CollisionFree
  noPartial : ∀ m ∈ s.managers, ∀ id, m.partialHitReqs.get? id = none

/-- A call for a request that the manager does not know, with the hits of a lookup. -/
structure NewCall (s : KVCacheManager H) (r : Request H) (a : AllocateSlotsArgs) : Prop where
  fresh : ∀ m ∈ s.managers, m.Fresh r.requestId
  numComputedTokens_eq : r.numComputedTokens = 0
  hit : PrefixHit s.pool s.managers a.newComputedBlocks a.numNewComputedTokens
  noCaching : s.pool.enableCaching = false → ∀ (i : ℕ) (m : SingleTypeKVCacheManager),
    s.managers[i]? = some m → a.newComputedBlocks.getD i [] = []
  total_lt : a.numComputedTokens r < s.maxModelLen

/-- A call for a request whose tables cover its computed tokens. -/
structure RunningCall (s : KVCacheManager H) (r : Request H) (a : AllocateSlotsArgs) : Prop where
  noHits : ∀ blocks ∈ a.newComputedBlocks, blocks = []
  numNewComputedTokens_eq : a.numNewComputedTokens = 0
  numExternalComputedTokens_eq : a.numExternalComputedTokens = 0
  covered : ∀ m ∈ s.managers, m.spec.participatesInPrefixCaching = true →
    r.numComputedTokens ≤ (m.blocksOf r.requestId).length * m.blockSize

/-- Whether the call brings hits or external tokens. -/
def bringsComputed (a : AllocateSlotsArgs) : Bool :=
  a.newComputedBlocks.any (!·.isEmpty) || decide (0 < a.numExternalComputedTokens)

/-- The prediction that `allocate_slots` compares with the free blocks. -/
def predictedBlocks (s : KVCacheManager H) (r : Request H) (a : AllocateSlotsArgs) :
    Except PyErr ℕ :=
  s.getNumBlocksToAllocate r.requestId (a.numTokensNeedSlot r s.maxModelLen) a.newComputedBlocks
    (a.numComputedTokens r) (a.numLocalComputedTokens r) false

/-- What no operation changes in the manager. -/
structure SameKv (s s' : KVCacheManager H) : Prop where
  pool : SamePool s.pool s'.pool
  groups : SameGroups s.managers s'.managers
  settings : s' = { s with pool := s'.pool, managers := s'.managers }

section

omit [DecidableEq H]

lemma SameKv.refl (s : KVCacheManager H) : SameKv s s := ⟨.refl _, .refl _, rfl⟩

lemma SameKv.trans {s'' : KVCacheManager H} (h : SameKv s s') (h' : SameKv s' s'') :
    SameKv s s'' := by
  refine ⟨h.pool.trans h'.pool, h.groups.trans h'.groups, ?_⟩
  rw [h'.settings, h.settings]

/-- The configuration is about what no operation changes. -/
lemma ConfigOk.of_sameKv (h : s.ConfigOk) (hsame : SameKv s s') : s'.ConfigOk := by
  have hmem : ∀ m' ∈ s'.managers, ∃ m ∈ s.managers, SameGroup m m' := by
    intro m' hm'
    obtain ⟨i, hi⟩ := getElem?_of_mem hm'
    obtain ⟨m, hm, hgroup⟩ := hsame.groups.exists_of_getElem? hi
    exact ⟨m, mem_of_getElem? hm, hgroup⟩
  have hcaching : s'.enableCaching = s.enableCaching := by rw [hsame.settings]
  have hsched : s'.schedulerBlockSize = s.schedulerBlockSize := by rw [hsame.settings]
  have hinner : s'.enablePartialHashHits = s.enablePartialHashHits := by rw [hsame.settings]
  refine ⟨?_, fun hc m' hm' hpart => ?_, fun m' hm' hpart => ?_, ?_, fun hp m' hm' hpart => ?_,
    fun hc hlen => ?_⟩
  · rw [hcaching, hsame.pool.enableCaching_eq, h.caching_eq]
  · obtain ⟨m, hm, hgroup⟩ := hmem m' hm'
    rw [hsame.pool.hasher_eq, hgroup.blockSize_eq]
    exact h.hash_dvd (hcaching ▸ hc) m hm (hgroup.spec_eq ▸ hpart)
  · obtain ⟨m, hm, hgroup⟩ := hmem m' hm'
    rw [hsched, hgroup.blockSize_eq]
    exact h.scheduler_dvd m hm (hgroup.spec_eq ▸ hpart)
  · rw [hsched]
    exact h.scheduler_pos
  · obtain ⟨m, hm, hgroup⟩ := hmem m' hm'
    rw [hsame.pool.hasher_eq, hgroup.blockSize_eq, hgroup.spec_eq]
    exact h.partialHits (hinner ▸ hp) m hm (hgroup.spec_eq ▸ hpart)
  · obtain ⟨m, hm, hpart⟩ := h.cacheable (hcaching ▸ hc) (hsame.groups.length_eq ▸ hlen)
    obtain ⟨i, hi⟩ := getElem?_of_mem hm
    have hlt : i < s'.managers.length := hsame.groups.length_eq ▸ (List.getElem?_eq_some_iff.1 hi).1
    have hgroup := hsame.groups.group i m _ hi (getElem?_eq_getElem hlt)
    exact ⟨_, getElem_mem hlt, by rw [hgroup.spec_eq, hpart]⟩

lemma onManagers_ok {α : Type} {f : ℕ → ManagerM H α} {xs : List α}
    (h : runManagers f 0 s.pool s.managers = .ok xs (p, ms)) :
    onManagers f s = .ok xs { s with pool := p, managers := ms } := by
  simp only [onManagers, h]

lemma onManagers_eq_ok {α : Type} {f : ℕ → ManagerM H α} {xs : List α}
    (h : onManagers f s = .ok xs s') :
    ∃ p ms, runManagers f 0 s.pool s.managers = .ok xs (p, ms) ∧
      s' = { s with pool := p, managers := ms } := by
  unfold onManagers at h
  split at h
  · cases h
  · rename_i xs' p ms hrun
    cases h
    exact ⟨p, ms, hrun, rfl⟩

end

/-- Only the tables, the references and the keys changed. -/
lemma KvOk.of_sameKv {held' : List ℕ} (h : KvOk s held) (hsame : SameKv s s')
    (hinv : ∃ Q, KvInv s'.pool Q s'.managers held')
    (hnone : ∀ m ∈ s'.managers, ∀ id, m.partialHitReqs.get? id = none) : KvOk s' held' :=
  ⟨hinv, h.config.of_sameKv hsame, hsame.pool.hasher_eq ▸ h.collisionFree, hnone⟩

/-- Without hits, and with tables that cover the computed tokens, the prediction is what the
managers need. -/
lemma getNumBlocksToAllocate_covered (h : KvOk s held)
    (hnil : ∀ i, a.newComputedBlocks.getD i [] = [])
    (hcovered : ∀ m ∈ s.managers, m.spec.participatesInPrefixCaching = true →
      total ≤ (m.blocksOf r.requestId).length * m.blockSize) (numTokens n : ℕ) :
    s.getNumBlocksToAllocate r.requestId numTokens a.newComputedBlocks total n false =
      .ok (s.managers.map (·.slotsNeeded r.requestId numTokens)).sum := by
  have hsum := sumBlocksToAllocate_ok (p := s.pool) (i := 0) (n := n)
    (fun m _ => m.slotsNeeded r.requestId numTokens)
    fun k m hm => by
      have hmem := mem_of_getElem? hm
      rw [hnil]
      exact Lvllm.getNumBlocksToAllocate_covered (h.noPartial m hmem _) (hcovered m hmem)
        numTokens n
  unfold getNumBlocksToAllocate
  rw [hsum]
  congr 2
  rw [show (fun x : SingleTypeKVCacheManager × ℕ => x.1.slotsNeeded r.requestId numTokens) =
      (fun m : SingleTypeKVCacheManager => m.slotsNeeded r.requestId numTokens) ∘ Prod.fst from rfl,
    ← map_map, zipIdx_map_fst]

/-- The start of an allocation without hits. -/
lemma KvOk.allocating (h : KvOk s held) (id : String) (numTokens : ℕ)
    (hfree : (s.managers.map (·.slotsNeeded id numTokens)).sum ≤ s.pool.getNumFreeBlocks) :
    Allocating s.pool s.managers held id numTokens
      (s.pool.getNumFreeBlocks - (s.managers.map (·.slotsNeeded id numTokens)).sum) s.pool
      s.managers := by
  obtain ⟨Q, hinv⟩ := h.inv
  have hQ : s.pool.getNumFreeBlocks = Q.length := hinv.free.holds.numFreeBlocks_eq
  refine ⟨⟨Q, hinv, by omega⟩, .refl _, .refl _, fun m hm idx src hsome => ?_,
    fun m hm id' _ => h.noPartial m hm id'⟩
  rw [h.noPartial m hm] at hsome
  cases hsome

/-- What `NewCall` fixes while the hits are touched. -/
lemma NewCall.newRequest (hcall : NewCall s r a) (h : KvOk s held) :
    NewRequest s.pool s.managers r.requestId a.newComputedBlocks (a.numLocalComputedTokens r) := by
  have hn : a.numLocalComputedTokens r = a.numNewComputedTokens := by
    rw [AllocateSlotsArgs.numLocalComputedTokens, hcall.numComputedTokens_eq, Nat.zero_add]
  exact ⟨h.collisionFree, hcall.fresh, hn ▸ hcall.hit, hcall.noCaching, h.noPartial⟩

/-- The prediction for a new request is a number. -/
lemma NewCall.predictedBlocks_ok (hcall : NewCall s r a) (h : KvOk s held) :
    ∃ R, s.predictedBlocks r a = .ok R := by
  have hnew := hcall.newRequest h
  refine sumBlocksToAllocate_exists fun k m hm => ?_
  cases hspec : m.spec.participatesInPrefixCaching with
  | false => exact ⟨_, getNumBlocksToAllocate_scratch hspec _ _ _ _ _⟩
  | true =>
    exact ⟨_, getNumBlocksToAllocate_fresh hspec (hnew.fresh m (mem_of_getElem? hm)) rfl
      (hasPartialLocalHit_drop hnew.hit hm rfl) _⟩

/-- The computed tokens are among those that need slots. -/
lemma NewCall.total_le (hcall : NewCall s r a) :
    a.numLocalComputedTokens r + a.numExternalComputedTokens ≤
      a.numTokensNeedSlot r s.maxModelLen := by
  have := hcall.total_lt
  unfold AllocateSlotsArgs.numTokensNeedSlot AllocateSlotsArgs.totalComputedTokens
  unfold AllocateSlotsArgs.numComputedTokens at this ⊢
  omega

lemma NewCall.known_eq (hcall : NewCall s r a) :
    (s.managers.any fun m => m.numCachedBlock.contains r.requestId) = false := by
  refine any_eq_false.2 fun m hm => ?_
  rw [Dict.contains, (hcall.fresh m hm).numCachedBlock_eq]
  exact Bool.false_ne_true

/-- The state in which the hits of a new request are touched one group after another. -/
lemma KvOk.touching (h : KvOk s held) (hR : s.predictedBlocks r a = .ok R)
    (hfree : R ≤ s.pool.getNumFreeBlocks) :
    Touching s.pool s.managers held r.requestId a.newComputedBlocks
      (a.numLocalComputedTokens r + a.numExternalComputedTokens) (a.numLocalComputedTokens r)
      (a.numTokensNeedSlot r s.maxModelLen) (s.pool.getNumFreeBlocks - R) 0 s.pool
      s.managers := by
  obtain ⟨Q, hinv⟩ := h.inv
  have hQ : s.pool.getNumFreeBlocks = Q.length := hinv.free.holds.numFreeBlocks_eq
  refine ⟨⟨Q, R, hinv, hR, ?_⟩, .refl _, .refl _, fun _ _ => rfl, fun _ _ _ _ => rfl,
    fun m hm idx src hsome => ?_, fun m hm id' _ => h.noPartial m hm id'⟩
  · rw [take_zero, map_nil, sum_nil]
    omega
  · rw [h.noPartial m hm] at hsome
    cases hsome

/-- The allocation for a new request with hits or external tokens. -/
lemma NewCall.allocateNewComputedBlocks (hcall : NewCall s r a) (h : KvOk s held)
    (hR : s.predictedBlocks r a = .ok R) (hfree : R ≤ s.pool.getNumFreeBlocks) :
    ∃ p' ms', KVCacheManager.allocateNewComputedBlocks r.requestId a.newComputedBlocks
        (a.numLocalComputedTokens r) a.numExternalComputedTokens s =
        .ok () { s with pool := p', managers := ms' } ∧
      Allocating s.pool s.managers held r.requestId (a.numTokensNeedSlot r s.maxModelLen)
        (s.pool.getNumFreeBlocks - R) p' ms' := by
  have hnew := hcall.newRequest h
  have htotal := hcall.total_le
  have hknown := hcall.known_eq
  have hstart := h.touching hR hfree
  obtain ⟨xs, p1, ms1, hrun1, halloc1⟩ := hstart.addLocal hnew
  unfold KVCacheManager.allocateNewComputedBlocks
  rw [bind_get]
  simp only [hknown, Bool.false_eq_true, if_false]
  rw [bind_ok (onManagers_ok hrun1)]
  by_cases hext : a.numExternalComputedTokens > 0
  · obtain ⟨ys, p2, ms2, hrun2, halloc2⟩ := halloc1.allocateExternal h.collisionFree htotal
    refine ⟨p2, ms2, ?_, halloc2⟩
    rw [if_pos hext, bind_ok (onManagers_ok hrun2)]
    rfl
  · refine ⟨p1, ms1, ?_, halloc1⟩
    rw [if_neg hext]
    rfl

/-- `allocate_new_blocks` after the parts before it. -/
lemma KvOk.allocateNewBlocks (h : KvOk s held) {id : String} {numTokens slack : ℕ}
    (halloc : Allocating s.pool s.managers held id numTokens slack p ms) :
    ∃ bs s', KVCacheManager.allocateNewBlocks id numTokens { s with pool := p, managers := ms } =
        .ok bs s' ∧ KvOk s' held ∧ SameKv s s' ∧ s'.pool.getNumFreeBlocks = slack ∧
      ∀ m ∈ s'.managers, m.slotsNeeded id numTokens = 0 := by
  obtain ⟨bs, p', ms', Q', hrun, hinv, hlen, hpool, hgroups, hnone, hzero⟩ :=
    halloc.allocateNew h.collisionFree
  have hsame : SameKv s { s with pool := p', managers := ms' } := ⟨hpool, hgroups, rfl⟩
  exact ⟨bs, { s with pool := p', managers := ms' }, onManagers_ok hrun,
    h.of_sameKv hsame ⟨Q', hinv⟩ hnone, hsame, hinv.free.holds.numFreeBlocks_eq.trans hlen, hzero⟩

/-- The allocation takes from the free queue exactly as many blocks as predicted, and it does not
fail when there are as many. -/
def PredictionAgrees (s : KVCacheManager H) (held : List ℕ) (r : Request H)
    (a : AllocateSlotsArgs) : Prop :=
  ∃ R, s.getNumBlocksToAllocate r.requestId (a.numTokensNeedSlot r s.maxModelLen)
      a.newComputedBlocks (a.numComputedTokens r) (a.numLocalComputedTokens r) false = .ok R ∧
    (R ≤ s.pool.getNumFreeBlocks → ∃ bs s', allocateBlocks r a s = .ok bs s' ∧ KvOk s' held ∧
      SameKv s s' ∧ s'.pool.getNumFreeBlocks + R = s.pool.getNumFreeBlocks ∧
      ∀ m ∈ s'.managers, m.slotsNeeded r.requestId (a.numTokensNeedSlot r s.maxModelLen) = 0)

omit [DecidableEq H] in
lemma getD_eq_nil_of_any (h : hits.any (!·.isEmpty) = false) (i : ℕ) : hits.getD i [] = [] := by
  rw [any_eq_false] at h
  rw [getD_eq_getElem?_getD]
  cases hget : hits[i]? with
  | none => rfl
  | some blocks => simpa using h blocks (mem_of_getElem? hget)

/-- A call without hits and external tokens goes straight to the new blocks. -/
lemma predictionAgrees_of_covered (h : KvOk s held)
    (hnil : a.newComputedBlocks.any (!·.isEmpty) = false) (hext : a.numExternalComputedTokens = 0)
    (hcovered : ∀ m ∈ s.managers, m.spec.participatesInPrefixCaching = true →
      a.numComputedTokens r ≤ (m.blocksOf r.requestId).length * m.blockSize) :
    PredictionAgrees s held r a := by
  refine ⟨_, getNumBlocksToAllocate_covered h (getD_eq_nil_of_any hnil) hcovered _ _,
    fun hfree => ?_⟩
  obtain ⟨bs, s', hrun, hok, hsame, hlen, hzero⟩ := h.allocateNewBlocks (h.allocating _ _ hfree)
  refine ⟨bs, s', ?_, hok, hsame, by omega, hzero⟩
  unfold allocateBlocks
  simp only [hnil, hext, Nat.lt_irrefl, decide_false, Bool.or_false, Bool.false_eq_true, if_false]
  exact hrun

/-- A call with hits or external tokens takes the hits first. -/
lemma NewCall.predictionAgrees_of_computed (hcall : NewCall s r a) (h : KvOk s held)
    (hbrings : bringsComputed a = true) : PredictionAgrees s held r a := by
  obtain ⟨R, hR⟩ := hcall.predictedBlocks_ok h
  refine ⟨R, hR, fun hfree => ?_⟩
  obtain ⟨p, ms, hrun1, halloc⟩ := hcall.allocateNewComputedBlocks h hR hfree
  obtain ⟨bs, s', hrun, hok, hsame, hlen, hzero⟩ := h.allocateNewBlocks halloc
  refine ⟨bs, s', ?_, hok, hsame, by omega, hzero⟩
  unfold allocateBlocks
  unfold bringsComputed at hbrings
  rw [bind_get, if_pos hbrings, bind_ok hrun1]
  exact hrun

omit [DecidableEq H] in
/-- A running request brings neither hits nor external tokens. -/
lemma RunningCall.brings_eq (h : RunningCall s r a) : bringsComputed a = false := by
  rw [bringsComputed, Bool.or_eq_false_iff, decide_eq_false_iff_not, h.numExternalComputedTokens_eq]
  refine ⟨any_eq_false.2 fun blocks hblocks => ?_, lt_irrefl 0⟩
  rw [h.noHits blocks hblocks]
  simp

/-- In a call without hits and external tokens the tables cover the computed tokens. -/
lemma covered_of_not_brings (hcall : NewCall s r a ∨ RunningCall s r a)
    (hbrings : bringsComputed a = false) :
    a.newComputedBlocks.any (!·.isEmpty) = false ∧ a.numExternalComputedTokens = 0 ∧
      ∀ m ∈ s.managers, m.spec.participatesInPrefixCaching = true →
        a.numComputedTokens r ≤ (m.blocksOf r.requestId).length * m.blockSize := by
  rw [bringsComputed, Bool.or_eq_false_iff, decide_eq_false_iff_not] at hbrings
  refine ⟨hbrings.1, by omega, fun m hm hpart => ?_⟩
  unfold AllocateSlotsArgs.numComputedTokens AllocateSlotsArgs.numLocalComputedTokens
  rcases hcall with hnew | hrunning
  · -- Without a hit there are no computed tokens.
    obtain ⟨i, hi⟩ := getElem?_of_mem hm
    have hcovers := hnew.hit.covers i m hi hpart
    rw [getD_eq_nil_of_any hbrings.1, length_nil, Nat.zero_mul] at hcovers
    have hzero := hnew.numComputedTokens_eq
    omega
  · have hcovered := hrunning.covered m hm hpart
    have hn := hrunning.numNewComputedTokens_eq
    omega

/-- The predictor agrees with the allocator on new and on running requests. -/
lemma predictionAgrees (h : KvOk s held) (hcall : NewCall s r a ∨ RunningCall s r a) :
    PredictionAgrees s held r a := by
  cases hbrings : bringsComputed a with
  | true =>
    rcases hcall with hnew | hrunning
    · exact hnew.predictionAgrees_of_computed h hbrings
    · rw [hrunning.brings_eq] at hbrings
      cases hbrings
  | false =>
    obtain ⟨hnil, hext, hcovered⟩ := covered_of_not_brings hcall hbrings
    exact predictionAgrees_of_covered h hnil hext hcovered

end KVCacheManager

end Lvllm
