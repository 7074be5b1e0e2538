import Lvllm.KVCache.CacheKeys
import Lvllm.KVCache.HybridLookup

/-!
# Operations of the managers

Each operation of a manager keeps the tables in agreement with the pool.  `KvInv.retable`,
`KvInv.freeHeld` and `KvInv.appendNewBlocks` are the ways in which references move: between a table
and a caller, from a caller to the free queue, and from the free queue to a table.  `TableStep` is
what code of one manager guarantees.
-/

namespace Lvllm

open List SingleTypeKVCacheManager BlockPool

variable {H : Type}

namespace SingleTypeKVCacheManager

variable {m m' : SingleTypeKVCacheManager} {p p' : BlockPool H}

lemma getNumSkippedTokens_of_isFullAttention (hfull : m.spec.isFullAttention = true) (n : ℕ) :
    m.getNumSkippedTokens n = 0 := by
  unfold KVCacheSpec.isFullAttention at hfull
  unfold getNumSkippedTokens
  cases hkind : m.spec.kind with
  | fullAttention => rfl
  | _ => simp [hkind] at hfull

lemma onPool_ok {α : Type} {x : PoolM H α} {a : α} (h : x p = .ok a p') :
    (onPool x : ManagerM H α) (p, m) = .ok a (p', m) := zoomWith_ok h

lemma onPool_eq_ok {α : Type} {x : PoolM H α} {a : α} {t : BlockPool H × SingleTypeKVCacheManager} :
    (onPool x : ManagerM H α) (p, m) = .ok a t ↔ ∃ p', x p = .ok a p' ∧ t = (p', m) :=
  zoomWith_eq_ok

lemma modifyManager_apply (f : SingleTypeKVCacheManager → SingleTypeKVCacheManager)
    (p : BlockPool H) (m : SingleTypeKVCacheManager) :
    (modifyManager f : ManagerM H Unit) (p, m) = .ok () (p, f m) := rfl

/-- The references depend on the tables and the pending copies only. -/
lemma refs_congr (htable : m'.reqToBlocks = m.reqToBlocks)
    (hcopies : m'.pendingCowCopies = m.pendingCowCopies) (b : ℕ) : m'.refs b = m.refs b := by
  rw [refs, refs, retained, retained, htable, hcopies]

lemma blocksOf_congr (htable : m'.reqToBlocks = m.reqToBlocks) (id : String) :
    m'.blocksOf id = m.blocksOf id := by
  rw [blocksOf, blocksOf, htable]

@[simp] lemma blocksOf_readBlocks (m : SingleTypeKVCacheManager) (id id' : String) :
    (m.readBlocks id).blocksOf id' = m.blocksOf id' := by
  by_cases h : id' = id
  · subst h
    exact blocksOf_setBlocks_self _ _ _
  · exact blocksOf_setBlocks_ne _ h _

lemma refs_readBlocks (m : SingleTypeKVCacheManager) (id : String) (b : ℕ) :
    (m.readBlocks id).refs b = m.refs b := by
  have := refs_setBlocks m id (m.blocksOf id) b
  unfold readBlocks
  omega

lemma refs_forgetRequest (m : SingleTypeKVCacheManager) (id : String) (b : ℕ) :
    (m.forgetRequest id).refs b + (m.blocksOf id).count b = m.refs b := by
  have hsum := m.reqToBlocks.sum_erase id (·.count b)
  have hold : (m.reqToBlocks.get? id).elim 0 (·.count b) = (m.blocksOf id).count b := by
    unfold blocksOf
    cases m.reqToBlocks.get? id <;> simp
  show (m.reqToBlocks.erase id).sum _ + m.retained.count b + _ = _
  unfold refs
  omega

lemma mem_blocksOf_forgetRequest {id id' : String} {j b : ℕ}
    (h : ((m.forgetRequest id).blocksOf id')[j]? = some b) : (m.blocksOf id')[j]? = some b := by
  by_cases hid : id' = id
  · subst hid
    simp [forgetRequest, blocksOf] at h
  · simpa [forgetRequest, blocksOf, hid] using h

end SingleTypeKVCacheManager

open SingleTypeKVCacheManager

variable [DecidableEq H]

/-- Blocks from the free queue have one reference and no key. -/
lemma BlockPool.FreeInv.getNewBlocks {p : BlockPool H} {Q : List ℕ} (h : p.FreeInv Q)
    (hc : p.enableCaching = false → ∀ b, p.keysOf b = []) {n : ℕ} (hn : n ≤ Q.length) :
    ∃ p', getNewBlocks n p = .ok (Q.take n) p' ∧ SamePool p p' ∧ p'.FreeInv (Q.drop n) ∧
      (∀ b, (p'.blocks b).refCnt = if b ∈ Q.take n then 1 else (p.blocks b).refCnt) ∧
      (∀ b, p'.keysOf b ⊆ p.keysOf b) ∧ ∀ b ∈ Q.take n, b ∈ Q ∧ p'.keysOf b = [] := by
  obtain ⟨q, p', hrun, hfree, hclaimed⟩ := getNewBlocks_spec h hn
  have hkeys : ∀ b, p'.keysOf b =
      if b ∈ Q.take n ∧ p.enableCaching = true then [] else p.keysOf b := hclaimed.keysOf_eq
  refine ⟨p', hrun, { hclaimed with }, hfree, hclaimed.refCnt_eq, fun b => ?_,
    fun b hb => ⟨mem_of_mem_take hb, ?_⟩⟩
  · rw [hkeys]
    split
    · exact nil_subset _
    · exact List.Subset.refl _
  · rw [hkeys]
    split
    · rfl
    · rename_i hnot
      refine hc ?_ b
      simpa [hb] using hnot

/-- A table entry gives way to its copy, and both are retained until the copy is made. -/
lemma refs_copied {m m' : SingleTypeKVCacheManager} {id : String} {blockIdx src cow : ℕ}
    (hsrc : (m.blocksOf id)[blockIdx]? = some src) (hne : src ≠ cow)
    (htable : m'.reqToBlocks = (m.setBlocks id ((m.blocksOf id).set blockIdx cow)).reqToBlocks)
    (hretained : m'.retained = m.retained ++ [src, cow]) (b : ℕ) :
    m'.refs b = m.refs b + 2 * [cow].count b := by
  have hset := refs_setBlocks m id ((m.blocksOf id).set blockIdx cow) b
  obtain ⟨hlt, hget⟩ := List.getElem?_eq_some_iff.1 hsrc
  have hcount := count_set (a := cow) (b := b) hlt
  rw [hget] at hcount
  have hpos : src = b → 0 < (m.blocksOf id).count b := fun heq =>
    count_pos_iff.2 (heq ▸ mem_of_getElem? hsrc)
  have hrefs : m'.refs b =
      (m.setBlocks id ((m.blocksOf id).set blockIdx cow)).refs b + [src, cow].count b := by
    rw [refs, refs, hretained, htable, count_append]
    show _ = _ + m.retained.count b + _
    omega
  rw [hrefs]
  simp only [count_cons, count_nil, beq_iff_eq] at hcount ⊢
  by_cases hb : src = b
  · have hcow : cow ≠ b := fun hcow => hne (hb.trans hcow.symm)
    rw [if_pos hb, if_neg hcow] at hcount ⊢
    omega
  · rw [if_neg hb] at hcount ⊢
    omega

namespace KvInv

variable {p p' : BlockPool H} {Q held held' : List ℕ} {ms : List SingleTypeKVCacheManager}
  {i : ℕ} {m m' : SingleTypeKVCacheManager} {freed : List ℕ}

lemma freeHeld (h : KvInv p Q ms held) (hheld : held.Perm (freed ++ held')) :
    ∃ p' Q', freeBlocks freed p = .ok () p' ∧ p.RefFrame p' ∧ KvInv p' Q' ms held' := by
  have hsum : ∀ b, held.count b = freed.count b + held'.count b := fun b => by
    rw [hheld.count_eq b, count_append]
  have hlt : ∀ b ∈ freed, b < p.numGpuBlocks := by
    intro b hb
    have h1 := count_pos_iff.2 hb
    have h2 := hsum b
    exact h.block_lt b (by omega)
  have hcount : ∀ b, (p.blocks b).isNull = false → (freed.count b : ℤ) ≤ (p.blocks b).refCnt := by
    intro b hb
    have h1 := h.refCnt_eq b ((h.free.isNull_eq_false_iff b).1 hb)
    have h2 := hsum b
    omega
  obtain ⟨p', Q', hrun, hframe, hfree, hcnt⟩ := freeBlocks_spec freed h.free hlt hcount
  refine ⟨p', Q', hrun, hframe, h.changePool (.of_refFrame hframe) hfree (fun b => ?_)
    (fun b => ?_) fun b key hkey => .inl (hframe.keysOf_eq b ▸ hkey)⟩
  · rw [hcnt, hsum]
    omega
  · rw [hsum]
    omega

lemma changeKeys (h : KvInv p Q ms held) (hframe : p.IndexFrame p') (hinv : p'.IndexInv)
    (hkeys : ∀ b, ∀ key ∈ p'.keysOf b, key ∈ p.keysOf b ∨ p.enableCaching = true ∧
      ∃ i m id j, ms[i]? = some m ∧ (m.blocksOf id)[j]? = some b ∧ b ≠ p.nullBlock ∧
        KeyAt p.hasher m.blockSize i j key) : KvInv p' Q ms held :=
  h.changePool (.of_indexFrame hframe) (h.free.of_indexFrame hinv hframe)
    (fun b => by rw [hframe.refCnt_eq]) (fun _ => le_rfl) hkeys

variable (h : KvInv p Q ms held) (hm : ms[i]? = some m) (hbh : p.hasher.CollisionFree)

include h hm hbh

/-- References move between a manager and its callers; null blocks may take the place of blocks,
except with full attention. -/
lemma nullTable (hgroup : SameGroup m m')
    (hrefs : ∀ b, b ≠ p.nullBlock → m'.refs b + held'.count b = m.refs b + held.count b)
    (htable : ∀ (id : String) (j b : ℕ), (m'.blocksOf id)[j]? = some b →
      b ≠ p.nullBlock ∨ m.spec.isFullAttention = true → ∃ id', (m.blocksOf id')[j]? = some b) :
    KvInv p Q (ms.set i m') held' := by
  refine h.update hm (.refl p) hgroup h.free (fun b hb => ?_) (fun b hb => ?_) [] id
    (fun b hb => ?_) (fun b => List.Subset.refl _)
    (fun id j b hj hb => .inl (htable id j b hj (.inl hb))) (fun hfull id hmem => ?_) hbh
  · have := hrefs b hb
    omega
  · by_cases hnull : b = p.nullBlock
    · exact .inr (hnull ▸ h.free.nullBlock_lt)
    · have := hrefs b hnull
      exact .inl (by omega)
  · cases hb
  · obtain ⟨j, hj⟩ := getElem?_of_mem hmem
    obtain ⟨id', hj'⟩ := htable id j _ hj (.inr hfull)
    exact ⟨id', mem_of_getElem? hj'⟩

lemma retable (hgroup : SameGroup m m')
    (hrefs : ∀ b, m'.refs b + held'.count b = m.refs b + held.count b)
    (htable : ∀ (id : String) (j b : ℕ), (m'.blocksOf id)[j]? = some b →
      ∃ id', (m.blocksOf id')[j]? = some b) :
    KvInv p Q (ms.set i m') held' :=
  h.nullTable hm hbh hgroup (fun b _ => hrefs b) fun id j b hj _ => htable id j b hj

/-- The table of a request takes in blocks of the free queue, with `t` references to each. -/
lemma takeNew {Q' new blocks : List ℕ} {id : String} (t : ℕ) (idx : ℕ → ℕ) (hpool : SamePool p p')
    (hgroup : SameGroup m m') (hfree : p'.FreeInv Q')
    (hblocks : ∀ id', m'.blocksOf id' = (m.setBlocks id blocks).blocksOf id')
    (hcnt : ∀ b, (p'.blocks b).refCnt = (p.blocks b).refCnt + t * new.count b)
    (hrefs : ∀ b, m'.refs b = m.refs b + t * new.count b)
    (hnew : ∀ b ∈ new, b ∈ Q ∧ p'.keysOf b = []) (hkeys : ∀ b, p'.keysOf b ⊆ p.keysOf b)
    (hentry : ∀ j b, blocks[j]? = some b → (m.blocksOf id)[j]? = some b ∨ b ∈ new ∧ j = idx b) :
    KvInv p' Q' (ms.set i m') held := by
  have hentries : ∀ id' j b, (m'.blocksOf id')[j]? = some b →
      (m.blocksOf id')[j]? = some b ∨ b ∈ new ∧ j = idx b := by
    intro id' j b hj
    rw [hblocks] at hj
    by_cases hid : id' = id
    · subst hid
      rw [blocksOf_setBlocks_self] at hj
      exact hentry j b hj
    · rw [blocksOf_setBlocks_ne _ hid] at hj
      exact .inl hj
  refine h.update hm hpool hgroup hfree (fun b _ => ?_) (fun b hb => ?_) new idx hnew hkeys
    (fun id' j b hj _ => ?_) (fun _ id' hmem => ?_) hbh
  · rw [hcnt, hrefs]
    push_cast
    ring
  · rw [hrefs] at hb
    by_cases hmem : b ∈ new
    · exact .inr ((h.free.mem_iff b).1 (hnew b hmem).1).1
    · rw [count_eq_zero.2 hmem, mul_zero] at hb
      exact .inl hb
  · rcases hentries id' j b hj with hold | hfresh
    · exact .inl ⟨id', hold⟩
    · exact .inr (.inl hfresh)
  · obtain ⟨j, hj⟩ := getElem?_of_mem hmem
    rcases hentries id' j _ hj with hold | ⟨hfresh, -⟩
    · exact ⟨id', mem_of_getElem? hold⟩
    · exact absurd (hnew _ hfresh).1 h.free.nullBlock_not_mem

lemma appendNewBlocks {n : ℕ} (hn : n ≤ Q.length) (id : String) :
    ∃ p', appendNewBlocks id n (p, m) =
        .ok (Q.take n) (p', m.addBlocks id (Q.take n)) ∧ SamePool p p' ∧
      KvInv p' (Q.drop n) (ms.set i (m.addBlocks id (Q.take n))) held := by
  obtain ⟨p', hrun, hpool, hfree, hcnt, hkeys, hnew⟩ := h.free.getNewBlocks h.noCaching hn
  have hnodup : (Q.take n).Nodup := h.free.holds.nodup.sublist (take_sublist n Q)
  have hrefs : ∀ b, (m.addBlocks id (Q.take n)).refs b = m.refs b + (Q.take n).count b := by
    intro b
    have hset := refs_setBlocks m id (m.blocksOf id ++ Q.take n) b
    have hcongr : (m.addBlocks id (Q.take n)).refs b =
        (m.setBlocks id (m.blocksOf id ++ Q.take n)).refs b := refs_congr rfl rfl b
    rw [count_append] at hset
    omega
  refine ⟨p', ?_, hpool, ?_⟩
  · unfold SingleTypeKVCacheManager.appendNewBlocks
    rw [bind_ok (onPool_ok hrun)]
    rfl
  refine h.takeNew hm hbh 1 (fun b => (m.blocksOf id).length + (Q.take n).idxOf b) hpool
    ⟨rfl, rfl, rfl⟩ hfree (fun _ => rfl) (fun b => ?_) (fun b => ?_) hnew hkeys fun j b hj => ?_
  · rw [hcnt]
    split
    · rename_i hmem
      have hzero := ((h.free.mem_iff b).1 (hnew b hmem).1).2.2
      rw [count_eq_one_of_mem hnodup hmem, hzero]
      rfl
    · rename_i hmem
      rw [count_eq_zero.2 hmem]
      omega
  · rw [hrefs, one_mul]
  · rw [getElem?_append] at hj
    split at hj
    · exact .inl hj
    · rename_i hge
      obtain ⟨hlt, rfl⟩ := List.getElem?_eq_some_iff.1 hj
      refine .inr ⟨getElem_mem hlt, ?_⟩
      rw [hnodup.idxOf_getElem]
      omega

/-- The copy of a partial hit takes the place of the shared block in the table. -/
lemma redirectPartialHit {id : String} {blockIdx src : ℕ}
    (hpart : m.partialHitReqs.get? id = some (blockIdx, src))
    (hsrc : (m.blocksOf id)[blockIdx]? = some src) (hne : src ≠ p.nullBlock) (hQ : 1 ≤ Q.length) :
    ∃ p' m', redirectPartialHit id (p, m) = .ok (Q.take 1) (p', m') ∧
      SamePool p p' ∧ SameGroup m m' ∧ KvInv p' (Q.drop 1) (ms.set i m') held ∧
      (m'.blocksOf id).length = (m.blocksOf id).length ∧
      m'.partialHitReqs = m.partialHitReqs.erase id := by
  obtain ⟨p', hrun, hpool, hfree, hcnt, hkeys, hnew⟩ := h.free.getNewBlocks h.noCaching hQ
  obtain ⟨cow, Q', rfl⟩ : ∃ cow Q', Q = cow :: Q' := by
    cases Q with
    | nil => simp at hQ
    | cons cow Q' => exact ⟨cow, Q', rfl⟩
  have htake : (cow :: Q').take 1 = [cow] := rfl
  rw [htake] at hrun hcnt hnew ⊢
  have hcowQ := (hnew cow (mem_singleton.2 rfl)).1
  -- The source is in a table, so it is not the new block and has a reference.
  have hsrcmem : src ∈ m.blocksOf id := mem_of_getElem? hsrc
  have hsrccow : src ≠ cow := fun heq => h.not_mem_of_mem_queue (heq ▸ hcowQ) hm id hsrcmem
  have hsrcnull : (p'.blocks src).isNull = false := by
    rw [hfree.isNull_eq_false_iff, hpool.nullBlock_eq]
    exact hne
  have hsrcref : 0 < (p'.blocks src).refCnt := by
    rw [hcnt, if_neg (fun hmem => hsrccow (mem_singleton.1 hmem)), h.refCnt_eq src hne]
    have h1 := refs_pos_of_mem hsrcmem
    have h2 := refs_le_totalRefs hm src
    omega
  let m1 : SingleTypeKVCacheManager := { m with partialHitReqs := m.partialHitReqs.erase id }
  let m2 : SingleTypeKVCacheManager := { m1.setBlocks id ((m.blocksOf id).set blockIdx cow) with
      pendingCowCopies := m.pendingCowCopies ++ [(src, cow)]
      newBlockIds := m.newBlockIds ++ [cow] }
  have hrefs : ∀ b, m2.refs b = m.refs b + 2 * [cow].count b :=
    refs_copied hsrc hsrccow rfl (by simp [m2, retained, flatMap_append])
  refine ⟨p'.takeRef cow, m2, ?_, ?_, ⟨rfl, rfl, rfl⟩, ?_, ?_, rfl⟩
  · unfold redirectPartialHit
    rw [bind_get]
    simp only [hpart]
    rw [bind_ok (modifyManager_apply _ p m), bind_ok (onPool_ok hrun)]
    dsimp only
    have hcow : applyCow id blockIdx src cow (p', m1) =
        .ok () (p'.takeRef cow, { m1.setBlocks id ((m.blocksOf id).set blockIdx cow) with
          pendingCowCopies := m.pendingCowCopies ++ [(src, cow)] }) := by
      unfold applyCow
      rw [bind_get]
      dsimp only
      rw [if_pos ⟨hsrc, hsrcnull, hsrcref⟩]
      rfl
    rw [bind_ok hcow]
    rfl
  · exact hpool.trans (.of_refFrame (p'.refFrame_takeRef cow))
  · have hframe := p'.refFrame_takeRef cow
    have hcnt' : ∀ b, ((p'.takeRef cow).blocks b).refCnt =
        (p.blocks b).refCnt + 2 * [cow].count b := by
      intro b
      rw [refCnt_takeRef, hcnt]
      by_cases hb : b = cow
      · subst hb
        simp [((h.free.mem_iff b).1 hcowQ).2.2]
      · simp [hb, Ne.symm hb]
    have hfree' : (p'.takeRef cow).FreeInv ((cow :: Q').drop 1) := hfree.takeRef (by simp [hcnt])
    refine h.takeNew hm hbh 2 (fun _ => blockIdx) (hpool.trans (.of_refFrame hframe)) ⟨rfl, rfl, rfl⟩
      hfree' (fun _ => rfl) hcnt' hrefs (fun b hb => ?_) (fun b => ?_) fun j b hj => ?_
    · rw [hframe.keysOf_eq]
      exact hnew b hb
    · rw [hframe.keysOf_eq]
      exact hkeys b
    · by_cases hji : j = blockIdx
      · subst hji
        rw [getElem?_set_self (List.getElem?_eq_some_iff.1 hsrc).1] at hj
        exact .inr ⟨mem_singleton.2 (Option.some.inj hj).symm, rfl⟩
      · rw [getElem?_set_ne (Ne.symm hji)] at hj
        exact .inl hj
  · change ((m.setBlocks id _).blocksOf id).length = _
    rw [blocksOf_setBlocks_self, length_set]

end KvInv

/-! ## Freeing -/

/-- The table `blocks'` is `blocks` with null blocks in place of the blocks freed. -/
structure Nulled (nullBlock : ℕ) (blocks freed blocks' : List ℕ) : Prop where
  length_eq : blocks'.length = blocks.length
  keep : ∀ (j b : ℕ), blocks'[j]? = some b → b ≠ nullBlock → blocks[j]? = some b
  count_eq : ∀ b, b ≠ nullBlock → blocks'.count b + freed.count b = blocks.count b
  freed_mem : ∀ b ∈ freed, b ∈ blocks ∧ b ≠ nullBlock
  eq_of_nil : freed = [] → blocks' = blocks

lemma Nulled.refl (nullBlock : ℕ) (blocks : List ℕ) : Nulled nullBlock blocks [] blocks :=
  ⟨rfl, fun _ _ hj _ => hj, fun _ _ => rfl, by simp, fun _ => rfl⟩

omit [DecidableEq H] in
/-- What the loop of `_remove_blocks_in_range` frees is what it takes from the table. -/
lemma nullBlocksDownFrom_spec (nullBlock i : ℕ) (blocks : List ℕ) :
    Nulled nullBlock blocks (nullBlocksDownFrom nullBlock i blocks).1
      (nullBlocksDownFrom nullBlock i blocks).2 := by
  induction i generalizing blocks with
  | zero => exact .refl nullBlock blocks
  | succ i ih =>
    cases hget : blocks[i]? with
    | none =>
      simp only [nullBlocksDownFrom, hget]
      exact .refl nullBlock blocks
    | some b =>
      by_cases hb : b = nullBlock
      · simp only [nullBlocksDownFrom, hget, hb, if_true]
        exact .refl nullBlock blocks
      · obtain ⟨hlt, hgetElem⟩ := List.getElem?_eq_some_iff.1 hget
        obtain ⟨hlen, hkeep, hcount, hmem, -⟩ := ih (blocks.set i nullBlock)
        simp only [nullBlocksDownFrom, hget, hb, if_false]
        refine ⟨by rw [hlen, length_set], fun j c hj hc => ?_, fun c hc => ?_,
          fun c hc => ?_, fun hnil => absurd hnil (cons_ne_nil _ _)⟩
        · have hset := hkeep j c hj hc
          by_cases hji : j = i
          · subst hji
            rw [getElem?_set_self hlt] at hset
            exact absurd (Option.some.inj hset).symm hc
          · rwa [getElem?_set_ne (Ne.symm hji)] at hset
        · have hset := hcount c hc
          rw [count_set hlt, hgetElem] at hset
          rw [count_cons]
          have hpos : b = c → 0 < blocks.count c := fun heq =>
            count_pos_iff.2 (heq ▸ mem_of_getElem? hget)
          simp only [beq_iff_eq, Ne.symm hc, if_false] at hset ⊢
          by_cases hbc : b = c
          · rw [if_pos hbc] at hset ⊢
            omega
          · rw [if_neg hbc] at hset ⊢
            omega
        · rcases mem_cons.1 hc with rfl | hc
          · exact ⟨mem_of_getElem? hget, hb⟩
          · obtain ⟨hin, hne⟩ := hmem c hc
            rcases mem_or_eq_of_mem_set hin with hin | heq
            · exact ⟨hin, hne⟩
            · exact absurd heq hne

/-- What code of one manager did to the tables and the pool. -/
structure TableStep (p p' : BlockPool H) (ms : List SingleTypeKVCacheManager) (i : ℕ)
    (m m' : SingleTypeKVCacheManager) (held' : List ℕ) : Prop where
  inv : ∃ Q', KvInv p' Q' (ms.set i m') held'
  pool : SamePool p p'
  group : SameGroup m m'
  noPartial : ∀ id, m.partialHitReqs.get? id = none → m'.partialHitReqs.get? id = none

section Manager

variable {p p' : BlockPool H} {Q held : List ℕ} {ms : List SingleTypeKVCacheManager} {i : ℕ}
  {m m' : SingleTypeKVCacheManager}

variable (h : KvInv p Q ms held) (hm : ms[i]? = some m) (hbh : p.hasher.CollisionFree)

include h hm hbh

/-- `remove_skipped_blocks` frees blocks of one table and leaves its length. -/
lemma KvInv.removeSkippedBlocks (id : String) (n : ℕ) :
    ∃ p' m', removeSkippedBlocks id n (p, m) = .ok () (p', m') ∧
      p.RefFrame p' ∧ TableStep p p' ms i m m' held ∧
      (∀ id', (m'.blocksOf id').length = (m.blocksOf id').length) ∧
      m'.numCachedBlock = m.numCachedBlock ∧ m'.partialHitReqs = m.partialHitReqs := by
  unfold SingleTypeKVCacheManager.removeSkippedBlocks
  rw [bind_get]
  dsimp only
  by_cases hskip : m.getNumSkippedTokens n = 0
  · rw [if_pos hskip]
    refine ⟨p, m, rfl, .refl p, ⟨⟨Q, ?_⟩, .refl p, .refl m, fun _ hid => hid⟩, fun _ => rfl, rfl,
      rfl⟩
    exact h.retable hm hbh (.refl m) (fun _ => rfl) fun id' j b hj => ⟨id', hj⟩
  · rw [if_neg hskip]
    obtain ⟨hlen, hkeep, hcount, -, -⟩ := nullBlocksDownFrom_spec p.nullBlock
      (min (m.getNumSkippedTokens n / m.blockSize) (m.blocksOf id).length) (m.blocksOf id)
    generalize nullBlocksDownFrom p.nullBlock
      (min (m.getNumSkippedTokens n / m.blockSize) (m.blocksOf id).length) (m.blocksOf id) = result
      at hlen hkeep hcount
    obtain ⟨freed, blocks⟩ := result
    dsimp only at hlen hkeep hcount ⊢
    have hgroup : SameGroup m (m.setBlocks id blocks) := ⟨rfl, rfl, rfl⟩
    have hlens : ∀ id', ((m.setBlocks id blocks).blocksOf id').length =
        (m.blocksOf id').length := by
      intro id'
      by_cases hid : id' = id
      · subst hid
        rw [blocksOf_setBlocks_self, hlen]
      · rw [blocksOf_setBlocks_ne _ hid]
    have htable : ∀ (id' : String) (j b : ℕ), ((m.setBlocks id blocks).blocksOf id')[j]? = some b →
        b ≠ p.nullBlock ∨ m.spec.isFullAttention = true →
        ∃ id1, (m.blocksOf id1)[j]? = some b := by
      intro id' j b hj hcases
      -- Full attention skips nothing.
      have hb : b ≠ p.nullBlock := hcases.resolve_right fun hfull =>
        hskip (getNumSkippedTokens_of_isFullAttention hfull n)
      by_cases hid : id' = id
      · subst hid
        rw [blocksOf_setBlocks_self] at hj
        exact ⟨id', hkeep j b hj hb⟩
      · rw [blocksOf_setBlocks_ne _ hid] at hj
        exact ⟨id', hj⟩
    have hinv : KvInv p Q (ms.set i (m.setBlocks id blocks)) (freed ++ held) := by
      refine h.nullTable hm hbh hgroup (fun b hb => ?_) htable
      have h1 := refs_setBlocks m id blocks b
      have h2 := hcount b hb
      rw [count_append]
      omega
    by_cases hfreed : freed = []
    · subst hfreed
      exact ⟨p, m.setBlocks id blocks, rfl, .refl p, ⟨⟨Q, hinv⟩, .refl p, hgroup, fun _ hid => hid⟩,
        hlens, rfl, rfl⟩
    · have hempty : freed.isEmpty = false := by simpa using hfreed
      obtain ⟨p', Q', hrun, hframe, hinv⟩ := hinv.freeHeld (.refl _)
      refine ⟨p', m.setBlocks id blocks, ?_, hframe,
        ⟨⟨Q', hinv⟩, .of_refFrame hframe, hgroup, fun _ hid => hid⟩, hlens, rfl, rfl⟩
      simp only [hempty, Bool.false_eq_true, if_false]
      exact onPool_ok hrun

/-- `pop_blocks_for_free` hands the references of a table to the caller. -/
lemma KvInv.popBlocksForFree (id : String) :
    KvInv p Q (ms.set i (m.forgetRequest id)) (held ++ m.blocksOf id) := by
  refine h.retable hm hbh ⟨rfl, rfl, rfl⟩ (fun b => ?_) fun id' j b hj => ⟨id', ?_⟩
  · have := refs_forgetRequest m id b
    rw [count_append]
    omega
  · exact mem_blocksOf_forgetRequest hj

/-- `free` returns the references of a table to the pool. -/
lemma KvInv.freeRequest (id : String) :
    ∃ p', SingleTypeKVCacheManager.free id (p, m) = .ok () (p', m.forgetRequest id) ∧
      p.RefFrame p' ∧ ∃ Q', KvInv p' Q' (ms.set i (m.forgetRequest id)) held := by
  have hheld : (held ++ m.blocksOf id).Perm ((m.blocksOf id).reverse ++ held) :=
    perm_append_comm.trans ((reverse_perm _).symm.append_right held)
  obtain ⟨p', Q', hrun, hframe, hinv⟩ := (h.popBlocksForFree hm hbh id).freeHeld hheld
  exact ⟨p', onPool_ok hrun, hframe, Q', hinv⟩

end Manager

end Lvllm
