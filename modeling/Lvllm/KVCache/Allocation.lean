import Lvllm.KVCache.CacheBlocks
import Mathlib.Data.List.NodupEquivFin

/-!
# Allocation, step by step

`slotsNeeded` is the number of blocks that a manager still has to take from the free queue for a
request.  Each manager's part of the allocation takes some of these blocks and lowers the number by
as many: touching the hits and padding, the blocks for external tokens, and the new blocks with the
copy of a partial hit.  After the last part nothing is needed any more.
-/

namespace Lvllm

open List SingleTypeKVCacheManager KVCacheSpec

variable {H : Type}

/-! ## Running code on all managers -/

section

variable {α : Type} {f : ℕ → ManagerM H α}

variable (R : ℕ → SingleTypeKVCacheManager → SingleTypeKVCacheManager → Prop)
  {p p' : BlockPool H} {ms ms' : List SingleTypeKVCacheManager} {xs : List α}

/-- The loop rule, with the values returned so far and what the code does to each manager.  `E` is
what an error of one manager means. -/
lemma runManagers_rule (E : Prop)
    (J : ℕ → List α → BlockPool H → List SingleTypeKVCacheManager → Prop)
    (hstep : ∀ i xs p ms m, J i xs p ms → ms[i]? = some m → match f i (p, m) with
      | .ok x (p', m') => J (i + 1) (xs ++ [x]) p' (ms.set i m') ∧ R i m m'
      | .error _ _ => E) (h : J 0 [] p ms) :
    match runManagers f 0 p ms with
    | .ok xs (p', ms') => J ms.length xs p' ms' ∧ ms'.length = ms.length ∧
      ∀ k m m', ms[k]? = some m → ms'[k]? = some m' → R k m m'
    | .error _ _ => E := by
  have hgen : ∀ (post pre : List SingleTypeKVCacheManager) (ys : List α) (p : BlockPool H),
      J pre.length ys p (pre ++ post) → match runManagers f pre.length p post with
        | .ok xs (p', post') =>
          J (pre.length + post.length) (ys ++ xs) p' (pre ++ post') ∧ post'.length = post.length ∧
            ∀ k m m', post[k]? = some m → post'[k]? = some m' → R (pre.length + k) m m'
        | .error _ _ => E := by
    intro post
    induction post with
    | nil =>
      intro pre ys p hJ
      simpa [runManagers] using hJ
    | cons m post ih =>
      intro pre ys p hJ
      have hJ1 := hstep pre.length ys p (pre ++ m :: post) m hJ (by simp)
      rw [runManagers]
      split at hJ1
      · rename_i x p₁ m₁ hf
        have hrest := ih (pre ++ [m₁]) (ys ++ [x]) p₁ (by simpa using hJ1.1)
        rw [length_append, length_singleton] at hrest
        simp only [hf]
        split at hrest
        · rename_i hrun
          obtain ⟨hJ2, hlen, hR⟩ := hrest
          simp only [hrun]
          refine ⟨by simpa [Nat.add_assoc, Nat.add_comm 1] using hJ2, by simp [hlen],
            fun k m₂ m3 hk hk' => ?_⟩
          cases k with
          | zero =>
            cases hk
            cases hk'
            exact hJ1.2
          | succ k =>
            rw [Nat.add_left_comm, Nat.add_comm k]
            exact hR k m₂ m3 hk hk'
        · rename_i hrun
          simpa [hrun] using hrest
      · rename_i hf
        simpa [hf] using hJ1
  simpa using hgen ms [] [] p h

/-- The loop rule for code that returns on every manager. -/
lemma runManagers_returns (J : ℕ → BlockPool H → List SingleTypeKVCacheManager → Prop)
    (hstep : ∀ i p ms m, J i p ms → ms[i]? = some m →
      ∃ x p' m', f i (p, m) = .ok x (p', m') ∧ J (i + 1) p' (ms.set i m') ∧ R i m m')
    (h : J 0 p ms) :
    ∃ xs p' ms', runManagers f 0 p ms = .ok xs (p', ms') ∧ J ms.length p' ms' ∧
      ms'.length = ms.length ∧ ∀ k m m', ms[k]? = some m → ms'[k]? = some m' → R k m m' := by
  have hrule := runManagers_rule (f := f) R False (fun i _ => J i) (fun i _ p ms m hJ hm => by
    obtain ⟨x, p', m', hf, hJ'⟩ := hstep i p ms m hJ hm
    rw [hf]
    exact hJ') h
  split at hrule
  · rename_i hrun
    exact ⟨_, _, _, hrun, hrule⟩
  · exact hrule.elim

/-- The loop rule for code that has returned. -/
lemma runManagers_invariant (J : ℕ → List α → BlockPool H → List SingleTypeKVCacheManager → Prop)
    (hstep : ∀ i xs p ms m x p' m', J i xs p ms → ms[i]? = some m → f i (p, m) = .ok x (p', m') →
      J (i + 1) (xs ++ [x]) p' (ms.set i m') ∧ R i m m')
    (h : J 0 [] p ms) (hrun : runManagers f 0 p ms = .ok xs (p', ms')) :
    J ms.length xs p' ms' ∧ ms'.length = ms.length ∧
      ∀ k m m', ms[k]? = some m → ms'[k]? = some m' → R k m m' := by
  have hrule := runManagers_rule (f := f) R True J (fun i xs p ms m hJ hm => by
    split
    · exact hstep i xs p ms m _ _ _ hJ hm ‹_›
    · trivial) h
  rw [hrun] at hrule
  exact hrule

end

/-! ## What is still needed -/

namespace SingleTypeKVCacheManager

/-- The blocks that the request still takes from the free queue to get `numTokens` slots. -/
def slotsNeeded (m : SingleTypeKVCacheManager) (requestId : String) (numTokens : ℕ) : ℕ :=
  if m.spec.participatesInPrefixCaching then
    (if (m.partialHitReqs.get? requestId).isSome then 1 else 0) +
      (cdiv numTokens m.blockSize - (m.blocksOf requestId).length)
  else if (m.blocksOf requestId).isEmpty then 1 else 0

/-- The shared block of a partial hit is in the table, and it is not the null block. -/
def PartialOk (m : SingleTypeKVCacheManager) (nullBlock : ℕ) (requestId : String) : Prop :=
  ∀ blockIdx src, m.partialHitReqs.get? requestId = some (blockIdx, src) →
    (m.blocksOf requestId)[blockIdx]? = some src ∧ src ≠ nullBlock ∧
      m.spec.participatesInPrefixCaching = true

/-- The request is new to the manager. -/
structure Fresh (m : SingleTypeKVCacheManager) (requestId : String) : Prop where
  blocksOf_eq : m.blocksOf requestId = []
  numCachedBlock_eq : m.numCachedBlock.get? requestId = none
  partialHitReqs_eq : m.partialHitReqs.get? requestId = none

variable {m : SingleTypeKVCacheManager} {id : String} {n : ℕ} {blocks : List ℕ}

lemma slotsNeeded_of_scratch (h : m.spec.participatesInPrefixCaching = false) :
    m.slotsNeeded id n = if (m.blocksOf id).isEmpty then 1 else 0 := by
  simp [slotsNeeded, h]

lemma slotsNeeded_of_participates (id : String) (n : ℕ)
    (h : m.spec.participatesInPrefixCaching = true) :
    m.slotsNeeded id n = (if (m.partialHitReqs.get? id).isSome then 1 else 0) +
      (cdiv n m.blockSize - (m.blocksOf id).length) := by
  simp [slotsNeeded, h]

@[simp] lemma blocksOf_addBlocks_self (m : SingleTypeKVCacheManager) (id : String)
    (blocks : List ℕ) : (m.addBlocks id blocks).blocksOf id = m.blocksOf id ++ blocks :=
  blocksOf_setBlocks_self m id _

/-- Groups outside prefix caching hold one scratch block per request. -/
lemma kind_of_scratch {spec : KVCacheSpec} (h : spec.participatesInPrefixCaching = false) :
    spec.kind = .circularBuffer ∨ spec.kind = .kpoolTail := by
  unfold participatesInPrefixCaching at h
  cases hk : spec.kind <;> simp_all

/-- Appending blocks lowers what is needed by as many, while they are needed. -/
lemma slotsNeeded_addBlocks (hpart : m.spec.participatesInPrefixCaching = true)
    (hle : blocks.length ≤ cdiv n m.blockSize - (m.blocksOf id).length) :
    (m.addBlocks id blocks).slotsNeeded id n + blocks.length = m.slotsNeeded id n := by
  have hpart' : (m.addBlocks id blocks).spec.participatesInPrefixCaching = true := hpart
  rw [slotsNeeded_of_participates _ _ hpart, slotsNeeded_of_participates _ _ hpart',
    blocksOf_addBlocks_self, length_append]
  change (if (m.partialHitReqs.get? id).isSome = true then 1 else 0) +
    (cdiv n m.blockSize - _) + _ = _
  omega

lemma slotsNeeded_addBlocks_scratch
    (hpart : m.spec.participatesInPrefixCaching = false) (hlen : blocks.length = 1) :
    (m.addBlocks id blocks).slotsNeeded id n = 0 := by
  have hpart' : (m.addBlocks id blocks).spec.participatesInPrefixCaching = false := hpart
  rw [slotsNeeded_of_scratch hpart', blocksOf_addBlocks_self, if_neg]
  cases blocks with
  | nil => simp at hlen
  | cons b blocks => simp

lemma PartialOk.addBlocks {nullBlock : ℕ} (h : m.PartialOk nullBlock id) (blocks : List ℕ) :
    (m.addBlocks id blocks).PartialOk nullBlock id := by
  intro blockIdx src hpart
  obtain ⟨hget, hne, hspec⟩ := h blockIdx src hpart
  refine ⟨?_, hne, hspec⟩
  rw [blocksOf_addBlocks_self, getElem?_append_left (List.getElem?_eq_some_iff.1 hget).1]
  exact hget

/-! ## The record of a hit -/

section Record

variable (m : SingleTypeKVCacheManager) (id : String) (k nullBlock : ℕ) (hits : List ℕ) (n : ℕ)

/-- Whichever branch is taken, the record writes one table. -/
lemma recordComputedBlocks_table : (m.recordComputedBlocks id k nullBlock hits n).reqToBlocks =
        (m.setBlocks id (List.replicate k nullBlock ++ hits)).reqToBlocks ∧
      (m.recordComputedBlocks id k nullBlock hits n).pendingCowCopies = m.pendingCowCopies ∧
      SameGroup m (m.recordComputedBlocks id k nullBlock hits n) := by
  simp only [recordComputedBlocks]
  split
  · exact ⟨rfl, rfl, rfl, rfl, rfl⟩
  · exact ⟨rfl, rfl, rfl, rfl, rfl⟩

lemma blocksOf_recordComputedBlocks (id' : String) :
    (m.recordComputedBlocks id k nullBlock hits n).blocksOf id' =
      (m.setBlocks id (List.replicate k nullBlock ++ hits)).blocksOf id' :=
  blocksOf_congr (m.recordComputedBlocks_table id k nullBlock hits n).1 id'

lemma refs_recordComputedBlocks (b : ℕ) : (m.recordComputedBlocks id k nullBlock hits n).refs b =
      (m.setBlocks id (List.replicate k nullBlock ++ hits)).refs b :=
  refs_congr (m.recordComputedBlocks_table id k nullBlock hits n).1
    (m.recordComputedBlocks_table id k nullBlock hits n).2.1 b

/-- The hit of a request is partial or not; other requests are left alone. -/
lemma partialHitReqs_recordComputedBlocks (id' : String) :
    (m.recordComputedBlocks id k nullBlock hits n).partialHitReqs.get? id' =
      if id' = id ∧ m.hasPartialLocalHit hits n = true then
        some (n / m.blockSize, hits.getLastD nullBlock)
      else m.partialHitReqs.get? id' := by
  simp only [recordComputedBlocks]
  split
  · rename_i hinner
    -- The test reads the spec of the manager, which the record leaves.
    by_cases hid : id' = id
    · subst hid
      rw [if_pos ⟨rfl, hinner⟩]
      exact Dict.get?_set_self _ _ _
    · rw [if_neg fun h => hid h.1]
      exact Dict.get?_set_ne _ hid _
  · rename_i hinner
    rw [if_neg fun h => hinner h.2]
    rfl

end Record

end SingleTypeKVCacheManager

open SingleTypeKVCacheManager

variable [DecidableEq H]

/-! ## One manager at a time -/

section Manager

variable {p : BlockPool H} {Q held : List ℕ} {ms : List SingleTypeKVCacheManager} {i : ℕ}
  {m : SingleTypeKVCacheManager} {id : String}

/-- The blocks of a hit in group `i`: each is null, outside full attention, or has a key that names
its place. -/
def HitsAt (p : BlockPool H) (m : SingleTypeKVCacheManager) (i : ℕ) (hits : List ℕ) : Prop :=
  ∀ (j b : ℕ), hits[j]? = some b → (m.spec.isFullAttention = false ∧ b = p.nullBlock) ∨
    ∃ key ∈ p.keysOf b, KeyAt p.hasher m.blockSize i j key

variable {b numTokens : ℕ} {hits : List ℕ}

/-- The blocks of a hit are blocks of the pool. -/
lemma KvInv.lt_of_mem_hits (h : KvInv p Q ms held) (hhits : HitsAt p m i hits) (hb : b ∈ hits) :
    b < p.numGpuBlocks := by
  obtain ⟨j, hj⟩ := getElem?_of_mem hb
  rcases hhits j b hj with ⟨-, rfl⟩ | ⟨key, hkey, -⟩
  · exact h.free.nullBlock_lt
  · exact (h.keyed b (ne_nil_of_mem hkey)).2

/-- The non-null blocks of a hit are all different. -/
lemma KvInv.hits_injective (h : KvInv p Q ms held) (hm : ms[i]? = some m)
    (hbh : p.hasher.CollisionFree) (hhits : HitsAt p m i hits) {j j' : ℕ} (hj : hits[j]? = some b)
    (hj' : hits[j']? = some b) (hb : b ≠ p.nullBlock) :
    j = j' := by
  rcases hhits j b hj with ⟨-, hnull⟩ | ⟨key, hkey, hat⟩
  · exact absurd hnull hb
  rcases hhits j' b hj' with ⟨-, hnull⟩ | ⟨key', hkey', hat'⟩
  · exact absurd hnull hb
  -- All keys of the block name its place.
  obtain ⟨pos, hpos⟩ := h.placed
  have heq := (hpos.pos_eq hbh hm hkey hat).symm.trans (hpos.pos_eq hbh hm hkey' hat')
  exact congrArg Prod.snd heq

omit [DecidableEq H] in
/-- `add_local_computed_blocks` outside prefix caching does nothing. -/
lemma addLocalComputedBlocks_scratch (hpart : m.spec.participatesInPrefixCaching = false)
    (hits : List ℕ) (n ext : ℕ) :
    addLocalComputedBlocks id hits n ext (p, m) = .ok () (p, m) := by
  unfold addLocalComputedBlocks
  rw [bind_get]
  rcases kind_of_scratch hpart with hk | hk
  · simp only [hk]
    rfl
  · simp only [hk]
    rfl

/-- `add_local_computed_blocks` touches the hits inside the window and writes the table. -/
lemma KvInv.addLocalComputedBlocks (h : KvInv p Q ms held) (hm : ms[i]? = some m)
    (hbh : p.hasher.CollisionFree) (hpart : m.spec.participatesInPrefixCaching = true)
    (hfresh : m.blocksOf id = []) (hhits : HitsAt p m i hits)
    (hcaching : p.enableCaching = false → hits = []) {n ext k : ℕ}
    (hk : k = m.getNumSkippedTokens (n + ext) / m.blockSize) :
    ∃ p', addLocalComputedBlocks id hits n ext (p, m) =
        .ok () (p', m.recordComputedBlocks id k p.nullBlock (hits.drop k) n) ∧ p.RefFrame p' ∧
      (∀ c, (p'.blocks c).refCnt = (p.blocks c).refCnt + (hits.drop k).count c) ∧
      KvInv p' (Q.filter (· ∉ hits.drop k))
        (ms.set i (m.recordComputedBlocks id k p.nullBlock (hits.drop k) n)) held := by
  have hlt : ∀ b ∈ hits.drop k, b < p.numGpuBlocks := fun b hb =>
    h.lt_of_mem_hits hhits (mem_of_mem_drop hb)
  obtain ⟨p', htouch, hframe, hfree, hcnt⟩ := BlockPool.touch_spec h.free hlt
    fun b hb => h.refCnt_nonneg hb
  have hrefs : ∀ b, b ≠ p.nullBlock →
      (m.recordComputedBlocks id k p.nullBlock (hits.drop k) n).refs b =
        m.refs b + (hits.drop k).count b := by
    intro b hb
    have hset := refs_setBlocks m id (List.replicate k p.nullBlock ++ hits.drop k) b
    rw [hfresh, count_nil, count_append, count_replicate,
      if_neg (by simpa using Ne.symm hb)] at hset
    rw [refs_recordComputedBlocks]
    omega
  refine ⟨p', ?_, hframe, hcnt, ?_⟩
  · have hempty : (m.blocksOf id).isEmpty = true := by rw [hfresh]; rfl
    unfold SingleTypeKVCacheManager.addLocalComputedBlocks
    rw [bind_get]
    unfold participatesInPrefixCaching at hpart
    cases hkind : m.spec.kind with
    | circularBuffer | kpoolTail => simp [hkind] at hpart
    | _ =>
      simp only [hkind, hempty, if_true, ← hk]
      cases hc : m.enableCaching with
      | true =>
        simp only [if_true]
        rw [bind_ok (onPool_ok htouch)]
        rfl
      | false =>
        -- Without caching there are no hits, so nothing is touched.
        obtain rfl : hits = [] := hcaching ((h.group i m hm).2.symm.trans hc)
        rw [drop_nil] at htouch ⊢
        cases htouch
        rfl
  · refine h.update hm (.of_refFrame hframe) (recordComputedBlocks_table m id k _ _ n).2.2 hfree
      (fun b hb => ?_) (fun b hb => ?_) [] (fun b => b) (fun b hb => ?_) (fun b => ?_)
      (fun id' j b hj hb => ?_) (fun hfull id' hmem => ?_) hbh
    · rw [hcnt, hrefs b hb]
      omega
    · by_cases hnull : b = p.nullBlock
      · exact .inr (hnull ▸ h.free.nullBlock_lt)
      · rw [hrefs b hnull] at hb
        by_cases hmem : b ∈ hits.drop k
        · exact .inr (hlt b hmem)
        · rw [count_eq_zero.2 hmem] at hb
          exact .inl (by omega)
    · cases hb
    · rw [hframe.keysOf_eq]
      exact List.Subset.refl _
    · rw [blocksOf_recordComputedBlocks] at hj
      by_cases hid : id' = id
      · subst hid
        rw [blocksOf_setBlocks_self, getElem?_append, length_replicate] at hj
        split at hj
        · obtain ⟨_, hnull⟩ := List.getElem?_eq_some_iff.1 hj
          rw [getElem_replicate] at hnull
          exact absurd hnull.symm hb
        · rename_i hge
          rw [getElem?_drop, show k + (j - k) = j by omega] at hj
          rcases hhits j b hj with ⟨-, hnull⟩ | hkey
          · exact absurd hnull hb
          · exact .inr (.inr ⟨not_mem_nil, hkey⟩)
      · rw [blocksOf_setBlocks_ne _ hid] at hj
        exact .inl ⟨id', hj⟩
    · rw [blocksOf_recordComputedBlocks] at hmem
      by_cases hid : id' = id
      · -- In full attention nothing is padded, and the hits are cached blocks.
        subst hid
        have hzero : k = 0 := by
          rw [hk, getNumSkippedTokens_of_isFullAttention hfull, Nat.zero_div]
        rw [blocksOf_setBlocks_self, hzero] at hmem
        obtain ⟨j, hj⟩ := getElem?_of_mem (show p.nullBlock ∈ hits from hmem)
        rcases hhits j _ hj with ⟨hfalse, -⟩ | ⟨key, hkey, -⟩
        · rw [hfull] at hfalse
          cases hfalse
        · exact absurd rfl (h.keyed _ (ne_nil_of_mem hkey)).1
      · rw [blocksOf_setBlocks_ne _ hid] at hmem
        exact ⟨id', hmem⟩

omit [DecidableEq H] in
/-- A value that stands at one index occurs at most once. -/
lemma count_le_one_of_index_unique {l : List ℕ}
    (h : ∀ (j j' : ℕ), l[j]? = some b → l[j']? = some b → j = j') : l.count b ≤ 1 := by
  by_contra hcount
  have hdup : l.Duplicate b := duplicate_iff_two_le_count.2 (by omega)
  obtain ⟨⟨j, hj⟩, ⟨j', hj'⟩, hlt, hb, hb'⟩ := duplicate_iff_exists_distinct_get.1 hdup
  have heq := h j j' (List.getElem?_eq_some_iff.2 ⟨hj, hb.symm⟩)
    (List.getElem?_eq_some_iff.2 ⟨hj', hb'.symm⟩)
  simp [heq] at hlt

/-- The hits that are evictable are those that leave the free queue when they are touched. -/
lemma KvInv.length_filter_hits (h : KvInv p Q ms held) (hm : ms[i]? = some m)
    (hbh : p.hasher.CollisionFree) (hhits : HitsAt p m i hits) (k : ℕ) :
    (Q.filter (· ∉ hits.drop k)).length + getNumEvictableBlocks p (hits.drop k) = Q.length := by
  have hperm : (Q.filter (· ∈ hits.drop k)).Perm ((hits.drop k).filter fun b =>
      decide ((p.blocks b).refCnt = 0) && !(p.blocks b).isNull) := by
    refine (perm_ext_iff_of_nodup (h.free.holds.nodup.filter _)
      (nodup_iff_count_le_one.2 fun b => ?_)).2 fun b => ?_
    · by_cases hb : (decide ((p.blocks b).refCnt = 0) && !(p.blocks b).isNull) = true
      · have hne : b ≠ p.nullBlock := by
          rw [Bool.and_eq_true, Bool.not_eq_true'] at hb
          exact (h.free.isNull_eq_false_iff b).1 hb.2
        refine (filter_sublist.count_le b).trans
          (count_le_one_of_index_unique fun j j' hj hj' => ?_)
        rw [getElem?_drop] at hj hj'
        have := h.hits_injective hm hbh hhits hj hj' hne
        omega
      · refine (count_eq_zero.2 fun hmem => ?_).trans_le (Nat.zero_le 1)
        exact hb (mem_filter.1 hmem).2
    · simp only [mem_filter, decide_eq_true_eq, Bool.and_eq_true, Bool.not_eq_true', h.free.mem_iff]
      constructor
      · rintro ⟨⟨-, hnull, hzero⟩, hmem⟩
        exact ⟨hmem, hzero, hnull⟩
      · rintro ⟨hmem, hzero, hnull⟩
        exact ⟨⟨h.lt_of_mem_hits hhits (mem_of_mem_drop hmem), hnull, hzero⟩, hmem⟩
  rw [getNumEvictableBlocks, countP_eq_length_filter, ← hperm.length_eq, Nat.add_comm,
    ← countP_eq_length_filter, ← countP_eq_length_filter]
  have hsplit := length_eq_countP_add_countP (fun b => decide (b ∈ hits.drop k)) (l := Q)
  simpa using hsplit.symm

/-- What a manager's part of an allocation does: it takes blocks from the free queue, and needs as
many less. -/
structure AllocStep (p p' : BlockPool H) (Q Q' : List ℕ) (ms : List SingleTypeKVCacheManager)
    (i : ℕ) (m m' : SingleTypeKVCacheManager) (held : List ℕ) (id : String) (numTokens : ℕ) :
    Prop where
  inv : KvInv p' Q' (ms.set i m') held
  pool : SamePool p p'
  group : SameGroup m m'
  taken : Q'.length + m.slotsNeeded id numTokens = Q.length + m'.slotsNeeded id numTokens
  partialOk : m'.PartialOk p.nullBlock id
  others : ∀ id', id' ≠ id → m'.partialHitReqs.get? id' = m.partialHitReqs.get? id'

/-- Two parts of an allocation by one manager. -/
lemma AllocStep.trans {p₁ p₂ : BlockPool H} {Q₁ Q₂ : List ℕ} {m₁ m₂ : SingleTypeKVCacheManager}
    (h₁ : AllocStep p p₁ Q Q₁ ms i m m₁ held id numTokens)
    (h₂ : AllocStep p₁ p₂ Q₁ Q₂ (ms.set i m₁) i m₁ m₂ held id numTokens) :
    AllocStep p p₂ Q Q₂ ms i m m₂ held id numTokens := by
  refine ⟨?_, h₁.pool.trans h₂.pool, ⟨h₂.group.1.trans h₁.group.1, h₂.group.2.trans h₁.group.2,
    h₂.group.3.trans h₁.group.3⟩, ?_, h₁.pool.nullBlock_eq ▸ h₂.partialOk,
    fun id' hid => (h₂.others id' hid).trans (h₁.others id' hid)⟩
  · have hinv := h₂.inv
    rwa [set_set] at hinv
  · have ht1 := h₁.taken
    have ht2 := h₂.taken
    omega

section Steps

variable (h : KvInv p Q ms held) (hm : ms[i]? = some m) (hbh : p.hasher.CollisionFree)
  (hpart : m.PartialOk p.nullBlock id)

include h hm hbh hpart

lemma AllocStep.refl : AllocStep p p Q Q ms i m m held id numTokens :=
  ⟨h.retable hm hbh (.refl m) (fun _ => rfl) fun id' _ _ hj => ⟨id', hj⟩, .refl p, .refl m, rfl,
    hpart, fun _ _ => rfl⟩

variable (hQ : m.slotsNeeded id numTokens ≤ Q.length)

include hQ

/-- Blocks that are needed are appended to the table. -/
lemma AllocStep.append {n : ℕ} (hspec : m.spec.participatesInPrefixCaching = true)
    (hn : n ≤ cdiv numTokens m.blockSize - (m.blocksOf id).length) :
    ∃ p', appendNewBlocks id n (p, m) = .ok (Q.take n) (p', m.addBlocks id (Q.take n)) ∧
      AllocStep p p' Q (Q.drop n) ms i m (m.addBlocks id (Q.take n)) held id numTokens ∧
      (Q.take n).length = n := by
  have hneeded := slotsNeeded_of_participates id numTokens hspec
  have hnQ : n ≤ Q.length := by omega
  have hlen : (Q.take n).length = n := length_take_of_le hnQ
  obtain ⟨p', hrun, hpool, hinv⟩ := h.appendNewBlocks hm hbh hnQ id
  refine ⟨p', hrun, ⟨hinv, hpool, ⟨rfl, rfl, rfl⟩, ?_, hpart.addBlocks _, fun _ _ => rfl⟩, hlen⟩
  have hless := slotsNeeded_addBlocks (n := numTokens) hspec (hlen.trans_le hn)
  rw [length_drop]
  omega

/-- A group outside prefix caching takes its scratch block once. -/
lemma AllocStep.claimRingBlock (hspec : m.spec.participatesInPrefixCaching = false) :
    ∃ bs p' Q' m', claimRingBlock id (p, m) = .ok bs (p', m') ∧
      AllocStep p p' Q Q' ms i m m' held id numTokens ∧ m'.slotsNeeded id numTokens = 0 := by
  unfold SingleTypeKVCacheManager.claimRingBlock
  rw [bind_get]
  cases hempty : (m.blocksOf id).isEmpty with
  | false =>
    refine ⟨[], p, Q, m, by simp only [hempty]; rfl, .refl h hm hbh hpart, ?_⟩
    rw [slotsNeeded_of_scratch hspec, hempty]
    rfl
  | true =>
    have hone : m.slotsNeeded id numTokens = 1 := by
      rw [slotsNeeded_of_scratch hspec, if_pos hempty]
    have hlen : (Q.take 1).length = 1 := length_take_of_le (by omega)
    obtain ⟨p', hrun, hpool, hinv⟩ := h.appendNewBlocks hm hbh (hone ▸ hQ) id
    have hzero : (m.addBlocks id (Q.take 1)).slotsNeeded id numTokens = 0 :=
      slotsNeeded_addBlocks_scratch hspec hlen
    refine ⟨Q.take 1, p', Q.drop 1, m.addBlocks id (Q.take 1), by simp only [hempty]; exact hrun,
      ⟨hinv, hpool, ⟨rfl, rfl, rfl⟩, ?_, hpart.addBlocks _, fun _ _ => rfl⟩, hzero⟩
    rw [hzero, hone, length_drop]
    omega

/-- `allocate_external_computed_blocks` takes blocks that the request needs anyway. -/
lemma AllocStep.allocateExternalComputedBlocks {n ext : ℕ} (hle : n + ext ≤ numTokens) :
    ∃ p' Q' m', allocateExternalComputedBlocks id n ext (p, m) =
        .ok () (p', m') ∧ AllocStep p p' Q Q' ms i m m' held id numTokens := by
  unfold SingleTypeKVCacheManager.allocateExternalComputedBlocks
  rw [bind_get]
  cases hspec : m.spec.participatesInPrefixCaching with
  | false =>
    obtain ⟨bs, p', Q', m', hrun, hstep, -⟩ := AllocStep.claimRingBlock h hm hbh hpart hQ hspec
    refine ⟨p', Q', m', ?_, hstep⟩
    rcases kind_of_scratch hspec with hk | hk
    · simp only [hk]
      rw [bind_ok hrun]
      rfl
    · simp only [hk]
      rw [bind_ok hrun]
      rfl
  | true =>
    have hcdiv := cdiv_mono m.blockSize hle
    obtain ⟨p', hrun, hstep, -⟩ := AllocStep.append h hm hbh hpart hQ hspec
      (n := cdiv (n + ext) m.blockSize - (m.blocksOf id).length) (by omega)
    unfold participatesInPrefixCaching at hspec
    cases hkind : m.spec.kind with
    | circularBuffer | kpoolTail => simp [hkind] at hspec
    | _ =>
      simp only [hkind]
      generalize (if m.getNumSkippedTokens (n + ext) > 0 then
        min (n + ext - m.getNumSkippedTokens (n + ext)) ext else ext) = ext'
      by_cases hext : ext' = 0
      · rw [if_pos hext]
        exact ⟨p, Q, m, rfl, .refl h hm hbh hpart⟩
      · rw [if_neg hext, bind_ok hrun]
        exact ⟨p', _, _, rfl, hstep⟩

omit hQ in
/-- Reading the table makes an entry for the request. -/
lemma AllocStep.readBlocks (numTokens : ℕ) :
    AllocStep p p Q Q ms i m (m.readBlocks id) held id numTokens := by
  refine ⟨h.retable hm hbh ⟨rfl, rfl, rfl⟩ (fun b => by rw [refs_readBlocks]) fun id' j b hj => ?_,
    .refl p, ⟨rfl, rfl, rfl⟩, ?_, fun blockIdx src hsome => ?_, fun _ _ => rfl⟩
  · rw [blocksOf_readBlocks] at hj
    exact ⟨id', hj⟩
  · have hsame : (m.readBlocks id).slotsNeeded id numTokens = m.slotsNeeded id numTokens := by
      unfold slotsNeeded
      rw [blocksOf_readBlocks]
      rfl
    rw [hsame]
  · rw [blocksOf_readBlocks]
    exact hpart blockIdx src hsome

/-- The copy of a partial hit is the one block that it needs besides the new ones. -/
lemma AllocStep.redirectPartialHit (hspec : m.spec.participatesInPrefixCaching = true) :
    ∃ bs p' Q' m', redirectPartialHit id (p, m) = .ok bs (p', m') ∧
      AllocStep p p' Q Q' ms i m m' held id numTokens ∧ m'.partialHitReqs.get? id = none := by
  cases hget : m.partialHitReqs.get? id with
  | none =>
    refine ⟨[], p, Q, m, ?_, .refl h hm hbh hpart, hget⟩
    unfold SingleTypeKVCacheManager.redirectPartialHit
    rw [bind_get]
    simp only [hget]
    rfl
  | some hit =>
    obtain ⟨blockIdx, src⟩ := hit
    obtain ⟨hsrc, hne, -⟩ := hpart blockIdx src hget
    have hneeded := slotsNeeded_of_participates id numTokens hspec
    rw [hget] at hneeded
    simp only [Option.isSome_some, if_true] at hneeded
    obtain ⟨p', m', hrun, hpool, hgroup, hinv, hlen, herase⟩ :=
      h.redirectPartialHit hm hbh hget hsrc hne (by omega)
    have hnone : m'.partialHitReqs.get? id = none := by rw [herase, Dict.get?_erase_self]
    refine ⟨Q.take 1, p', Q.drop 1, m', hrun, ⟨hinv, hpool, hgroup, ?_, fun idx b hsome => ?_,
      fun id' hid => ?_⟩, hnone⟩
    · have hspec' : m'.spec.participatesInPrefixCaching = true := by rw [hgroup.spec_eq, hspec]
      have hneeded' := slotsNeeded_of_participates id numTokens hspec'
      rw [hnone, hlen, hgroup.blockSize_eq] at hneeded'
      simp only [Option.isSome_none, Bool.false_eq_true, if_false] at hneeded'
      rw [length_drop]
      omega
    · rw [hnone] at hsome
      cases hsome
    · rw [herase, Dict.get?_erase_ne _ hid]

/-- `allocate_new_blocks` takes all that is still needed. -/
lemma AllocStep.allocateNewBlocks : ∃ bs p' Q' m', allocateNewBlocks id numTokens (p, m) =
        .ok bs (p', m') ∧ AllocStep p p' Q Q' ms i m m' held id numTokens ∧
      m'.slotsNeeded id numTokens = 0 ∧ m'.partialHitReqs.get? id = none := by
  have hilt : i < ms.length := (List.getElem?_eq_some_iff.1 hm).1
  unfold SingleTypeKVCacheManager.allocateNewBlocks
  rw [bind_get]
  cases hspec : m.spec.participatesInPrefixCaching with
  | false =>
    obtain ⟨bs, p', Q', m', hrun, hstep, hzero⟩ := AllocStep.claimRingBlock h hm hbh hpart hQ hspec
    refine ⟨bs, p', Q', m', ?_, hstep, hzero, ?_⟩
    · rcases kind_of_scratch hspec with hk | hk
      · simp only [hk]
        exact hrun
      · simp only [hk]
        exact hrun
    · refine Option.eq_none_iff_forall_ne_some.2 fun hit hsome => ?_
      have htrue := (hstep.partialOk hit.1 hit.2 hsome).2.2
      rw [hstep.group.spec_eq, hspec] at htrue
      cases htrue
  | true =>
    obtain ⟨bs, p₁, Q₁, m₁, hrun1, hstep1, hnone⟩ :=
      AllocStep.redirectPartialHit h hm hbh hpart hQ hspec
    have hm1 : (ms.set i m₁)[i]? = some m₁ := getElem?_set_self hilt
    have hbh1 : p₁.hasher.CollisionFree := hstep1.pool.hasher_eq ▸ hbh
    have hspec1 : m₁.spec.participatesInPrefixCaching = true := by
      rw [hstep1.group.spec_eq, hspec]
    have hpart1 : m₁.PartialOk p₁.nullBlock id := by
      rw [hstep1.pool.nullBlock_eq]
      exact hstep1.partialOk
    have hneeded1 := slotsNeeded_of_participates id numTokens hspec1
    rw [hnone] at hneeded1
    simp only [Option.isSome_none, Bool.false_eq_true, if_false] at hneeded1
    have htaken := hstep1.taken
    -- What is left to take is the difference of the lengths.
    have hrest : ∃ bs' p₂ Q₂ m₂, (if cdiv numTokens m₁.blockSize ≤ (m₁.blocksOf id).length then do
            modifyManager fun m => m.readBlocks id
            pure bs
          else do
            let newBlocks ← appendNewBlocks id
              (cdiv numTokens m₁.blockSize - (m₁.blocksOf id).length)
            pure (bs ++ newBlocks) : ManagerM H (List ℕ)) (p₁, m₁) = .ok bs' (p₂, m₂) ∧
        AllocStep p₁ p₂ Q₁ Q₂ (ms.set i m₁) i m₁ m₂ held id numTokens ∧
        m₂.slotsNeeded id numTokens = 0 ∧ m₂.partialHitReqs = m₁.partialHitReqs := by
      by_cases hle : cdiv numTokens m₁.blockSize ≤ (m₁.blocksOf id).length
      · rw [if_pos hle]
        have hstep := AllocStep.readBlocks hstep1.inv hm1 hbh1 hpart1 numTokens
        refine ⟨bs, p₁, Q₁, m₁.readBlocks id, rfl, hstep, ?_, rfl⟩
        have := hstep.taken
        omega
      · rw [if_neg hle]
        have hQ1 : m₁.slotsNeeded id numTokens ≤ Q₁.length := by omega
        obtain ⟨p₂, hrun2, hstep2, hlen⟩ :=
          AllocStep.append hstep1.inv hm1 hbh1 hpart1 hQ1 hspec1 le_rfl
        refine ⟨_, p₂, _, _, by rw [bind_ok hrun2]; rfl, hstep2, ?_, rfl⟩
        have hless := slotsNeeded_addBlocks (n := numTokens) hspec1 hlen.le
        omega
    obtain ⟨bs', p₂, Q₂, m₂, hrun2, hstep2, hzero, hsame⟩ := hrest
    refine ⟨bs', p₂, Q₂, m₂, ?_, hstep1.trans hstep2, hzero, by rw [hsame, hnone]⟩
    unfold participatesInPrefixCaching at hspec
    cases hkind : m.spec.kind with
    | circularBuffer | kpoolTail => simp [hkind] at hspec
    | _ =>
      simp only [hkind]
      rw [bind_ok hrun1, bind_get]
      exact hrun2

end Steps

end Manager

end Lvllm
