import Lvllm.KVCache.PoolRuns
import Mathlib.Data.List.Count
import Mathlib.Data.List.Perm.Subperm

/-!
# References and the free queue

`FreeInv p Q` says that the free queue of `p` holds the blocks `Q`, in this order, and that these
are exactly the blocks without references, the null block apart.  `touch`, `free_blocks` and
`get_new_blocks` each have one specification that carries it, and the operations on hashes leave it
alone.

Over it stands a ledger of the references that callers hold.  Each caller gives back only
references it holds, so the reference count of a block is the number of its entries in the ledger.
-/

namespace Lvllm

open List FreeKVCacheBlockQueue BlockPool

namespace BlockPool

variable {H : Type} {p p' p'' : BlockPool H} {Q : List ℕ}

/-! ## What operations on references leave alone -/

/-- The pools differ only in reference counts and in the free queue. -/
structure RefFrame (p p' : BlockPool H) : Prop where
  numGpuBlocks_eq : p'.numGpuBlocks = p.numGpuBlocks
  enableCaching_eq : p'.enableCaching = p.enableCaching
  hasher_eq : p'.hasher = p.hasher
  nullBlock_eq : p'.nullBlock = p.nullBlock
  enableKvCacheEvents_eq : p'.enableKvCacheEvents = p.enableKvCacheEvents
  kvEventQueue_eq : p'.kvEventQueue = p.kvEventQueue
  map_eq : p'.cachedBlockHashToBlock = p.cachedBlockHashToBlock
  secondary_eq : p'.cachedBlockHashesByBlock = p.cachedBlockHashesByBlock
  blockHash_eq : ∀ b, (p'.blocks b).blockHash = (p.blocks b).blockHash
  numTokens_eq : ∀ b, (p'.blocks b).blockHashNumTokens = (p.blocks b).blockHashNumTokens
  isNull_eq : ∀ b, (p'.blocks b).isNull = (p.blocks b).isNull

lemma RefFrame.refl (p : BlockPool H) : RefFrame p p :=
  ⟨rfl, rfl, rfl, rfl, rfl, rfl, rfl, rfl, fun _ => rfl, fun _ => rfl, fun _ => rfl⟩

lemma RefFrame.trans (h : RefFrame p p') (h' : RefFrame p' p'') : RefFrame p p'' :=
  ⟨h'.1.trans h.1, h'.2.trans h.2, h'.3.trans h.3, h'.4.trans h.4, h'.5.trans h.5, h'.6.trans h.6,
    h'.7.trans h.7, h'.8.trans h.8, fun b => (h'.9 b).trans (h.9 b),
    fun b => (h'.10 b).trans (h.10 b), fun b => (h'.11 b).trans (h.11 b)⟩

lemma RefFrame.setRefCnt (p : BlockPool H) (b : ℕ) (n : ℤ) :
    RefFrame p (p.setBlock b { p.blocks b with refCnt := n }) := by
  refine ⟨rfl, rfl, rfl, rfl, rfl, rfl, rfl, rfl, fun c => ?_, fun c => ?_, fun c => ?_⟩
  all_goals by_cases hc : c = b <;> simp [setBlock, hc]

lemma RefFrame.setQueue (p : BlockPool H) (q : FreeKVCacheBlockQueue) :
    RefFrame p { p with freeBlockQueue := q } :=
  ⟨rfl, rfl, rfl, rfl, rfl, rfl, rfl, rfl, fun _ => rfl, fun _ => rfl, fun _ => rfl⟩

lemma RefFrame.indexInv (h : RefFrame p p') (hp : p.IndexInv) : p'.IndexInv :=
  hp.congr h.blockHash_eq h.numTokens_eq h.map_eq h.secondary_eq

lemma RefFrame.keysOf_eq (h : RefFrame p p') (b : ℕ) : p'.keysOf b = p.keysOf b := by
  simp [keysOf, h.blockHash_eq, h.secondary_eq]

/-- The reference count of a block after it is set. -/
lemma refCnt_setBlock (p : BlockPool H) (b c : ℕ) (n : ℤ) :
    ((p.setBlock b { p.blocks b with refCnt := n }).blocks c).refCnt =
      if c = b then n else (p.blocks c).refCnt := by
  by_cases hc : c = b <;> simp [setBlock, hc]

/-! ## The free queue -/

/-- The free queue holds `Q`, and `Q` lists the blocks without references, the null block apart. -/
structure FreeInv (p : BlockPool H) (Q : List ℕ) : Prop where
  holds : p.freeBlockQueue.Holds Q
  mem_iff : ∀ b, b ∈ Q ↔
    b < p.numGpuBlocks ∧ (p.blocks b).isNull = false ∧ (p.blocks b).refCnt = 0
  /-- There is one null block. -/
  isNull_iff : ∀ b, (p.blocks b).isNull = true ↔ b = p.nullBlock
  nullBlock_lt : p.nullBlock < p.numGpuBlocks
  index : p.IndexInv

lemma FreeInv.nullBlock_not_mem (h : p.FreeInv Q) : p.nullBlock ∉ Q := by
  intro hmem
  have hnull := ((h.mem_iff _).1 hmem).2.1
  rw [(h.isNull_iff _).2 rfl] at hnull
  cases hnull

/-- A block is not the null block iff it is not marked as such. -/
lemma FreeInv.isNull_eq_false_iff (h : p.FreeInv Q) (b : ℕ) :
    (p.blocks b).isNull = false ↔ b ≠ p.nullBlock := by
  rw [Ne, ← h.isNull_iff, Bool.not_eq_true]

/-- The queue has as many blocks as there are blocks without references. -/
lemma FreeInv.length_eq (h : p.FreeInv Q) : Q.length = ((List.range p.numGpuBlocks).filter fun b =>
      b ≠ p.nullBlock ∧ (p.blocks b).refCnt = 0).length := by
  refine List.Perm.length_eq ((perm_ext_iff_of_nodup h.holds.nodup
    (nodup_range.filter _)).2 fun b => ?_)
  rw [h.mem_iff, h.isNull_eq_false_iff]
  simp

/-- Operations on hashes leave the free queue as it was. -/
lemma FreeInv.of_indexFrame (h : p.FreeInv Q) (hinv : p'.IndexInv) (hframe : p.IndexFrame p') :
    p'.FreeInv Q := by
  refine ⟨?_, fun b => ?_, fun b => ?_, ?_, hinv⟩
  · rw [hframe.freeBlockQueue_eq]
    exact h.holds
  · rw [hframe.numGpuBlocks_eq, hframe.isNull_eq, hframe.refCnt_eq]
    exact h.mem_iff b
  · rw [hframe.isNull_eq, hframe.nullBlock_eq]
    exact h.isNull_iff b
  · rw [hframe.nullBlock_eq, hframe.numGpuBlocks_eq]
    exact h.nullBlock_lt

/-- Operations on references keep the invariant when the new queue lists the blocks without
references. -/
lemma FreeInv.of_refFrame {Q' : List ℕ} (h : p.FreeInv Q) (hframe : p.RefFrame p')
    (hholds : p'.freeBlockQueue.Holds Q')
    (hmem : ∀ b, b ∈ Q' ↔
      b < p.numGpuBlocks ∧ (p.blocks b).isNull = false ∧ (p'.blocks b).refCnt = 0) :
    p'.FreeInv Q' := by
  refine ⟨hholds, fun b => ?_, fun b => ?_, ?_, hframe.indexInv h.index⟩
  · rw [hframe.numGpuBlocks_eq, hframe.isNull_eq]
    exact hmem b
  · rw [hframe.isNull_eq, hframe.nullBlock_eq]
    exact h.isNull_iff b
  · rw [hframe.nullBlock_eq, hframe.numGpuBlocks_eq]
    exact h.nullBlock_lt

variable {b n : ℕ} {bs : List ℕ} {L : List BlockRef} {hasher : BlockHasher H}

/-- A new pool has every block but the null block in the queue. -/
lemma freeInv_init {caching events : Bool} (h : init n caching hasher events = .ok p) :
    p.FreeInv (List.range' 1 (n - 1)) ∧ p.numGpuBlocks = n ∧ ∀ b, (p.blocks b).refCnt = 0 := by
  have hindex := indexInv_init h
  obtain ⟨hn, b, q, hpop, rfl⟩ := init_eq_ok h
  have hrange : List.range n = 0 :: List.range' 1 (n - 1) := by
    obtain ⟨m, rfl⟩ := Nat.exists_eq_succ_of_ne_zero hn
    rw [range_eq_range', range'_succ]
    rfl
  obtain ⟨q', hpop', hholds⟩ := popleft_spec (hrange ▸ init_holds n)
  rw [hpop'] at hpop
  cases hpop
  have href : ∀ b, ((Function.update (fun _ => {}) 0 { isNull := true } :
      ℕ → KVCacheBlock H) b).refCnt = 0 := fun b => by
    by_cases hb : b = 0 <;> simp [hb]
  refine ⟨⟨hholds, fun b => ?_, fun b => ?_, Nat.pos_of_ne_zero hn, hindex⟩, rfl, href⟩
  · simp only [href, mem_range'_1]
    by_cases hb : b = 0
    · subst hb
      simp
    · simp only [ne_eq, hb, not_false_eq_true, Function.update_of_ne, and_true]
      omega
  · by_cases hb : b = 0 <;> simp [hb]

/-! ## Specifications -/

/-- The pool with one more reference of block `b`. -/
def takeRef (p : BlockPool H) (b : ℕ) : BlockPool H :=
  p.setBlock b { p.blocks b with refCnt := (p.blocks b).refCnt + 1 }

lemma refFrame_takeRef (p : BlockPool H) (b : ℕ) : p.RefFrame (p.takeRef b) := .setRefCnt p b _

lemma refCnt_takeRef (p : BlockPool H) (b c : ℕ) :
    ((p.takeRef b).blocks c).refCnt = (p.blocks c).refCnt + if c = b then 1 else 0 := by
  rw [takeRef, refCnt_setBlock]
  by_cases hc : c = b <;> simp [hc]

/-- A reference to a block that is in use leaves the free queue. -/
lemma FreeInv.takeRef (h : p.FreeInv Q) (hb : 0 < (p.blocks b).refCnt) :
    (p.takeRef b).FreeInv Q := by
  refine h.of_refFrame (refFrame_takeRef p b) h.holds fun c => ?_
  rw [h.mem_iff, refCnt_takeRef]
  by_cases hc : c = b
  · subst hc
    omega
  · simp [hc]

lemma touch_cons (h : p.FreeInv Q) (hb : b < p.numGpuBlocks)
    (href : (p.blocks b).isNull = false → 0 ≤ (p.blocks b).refCnt) (bs : List ℕ) :
    ∃ p', touch (b :: bs) p = touch bs p' ∧ p.RefFrame p' ∧ p'.FreeInv (Q.filter (· ≠ b)) ∧
      ∀ c, (p'.blocks c).refCnt = (p.blocks c).refCnt + if c = b then 1 else 0 := by
  by_cases hfree : (p.blocks b).refCnt = 0 ∧ (p.blocks b).isNull = false
  · -- The block was free: it leaves the queue.
    have hmem : b ∈ Q := (h.mem_iff b).2 ⟨hb, hfree.2, hfree.1⟩
    obtain ⟨q, hremove, hholds⟩ := remove_spec h.holds hmem
    let p1 : BlockPool H := { p with freeBlockQueue := q }
    have hrun : onQueue (remove b) p = .ok () p1 := zoomWith_ok hremove
    have hframe : p.RefFrame (p1.takeRef b) := (RefFrame.setQueue p q).trans (refFrame_takeRef p1 b)
    refine ⟨p1.takeRef b, ?_, hframe, ?_, refCnt_takeRef p1 b⟩
    · simp only [touch]
      rw [bind_get, if_pos hfree, bind_ok hrun, bind_modify]
      rfl
    · refine h.of_refFrame hframe (?_ : q.Holds _) fun c => ?_
      · have herase : Q.erase b = Q.filter (· ≠ b) := by
          rw [h.holds.nodup.erase_eq_filter]
          exact filter_congr fun c _ => by grind
        exact herase ▸ hholds
      · rw [refCnt_takeRef, mem_filter, h.mem_iff]
        by_cases hc : c = b
        · subst hc
          simp [p1, hfree.1]
        · simp [p1, hc]
  · have hmem : b ∉ Q := fun hmem => hfree ⟨((h.mem_iff b).1 hmem).2.2, ((h.mem_iff b).1 hmem).2.1⟩
    have hfilter : Q.filter (· ≠ b) = Q := by
      refine filter_eq_self.2 fun c hc => ?_
      simpa using fun hcb : c = b => hmem (hcb ▸ hc)
    refine ⟨p.takeRef b, ?_, refFrame_takeRef p b, ?_, refCnt_takeRef p b⟩
    · simp only [touch]
      rw [bind_get, if_neg hfree]
      rfl
    · rw [hfilter]
      refine h.of_refFrame (refFrame_takeRef p b) h.holds fun c => ?_
      rw [refCnt_takeRef, h.mem_iff]
      by_cases hc : c = b
      · subst hc
        by_cases hnull : (p.blocks c).isNull = false
        · have h0 := href hnull
          have h1 : (p.blocks c).refCnt ≠ 0 := fun h0 => hfree ⟨h0, hnull⟩
          omega
        · simp [hnull]
      · simp [hc]

/-- `touch` adds a reference for each occurrence of a block, and takes the blocks from the
queue. -/
lemma touch_spec (h : p.FreeInv Q) (hlt : ∀ b ∈ bs, b < p.numGpuBlocks)
    (href : ∀ b, (p.blocks b).isNull = false → 0 ≤ (p.blocks b).refCnt) :
    ∃ p', touch bs p = .ok () p' ∧ p.RefFrame p' ∧ p'.FreeInv (Q.filter (· ∉ bs)) ∧
      ∀ c, (p'.blocks c).refCnt = (p.blocks c).refCnt + bs.count c := by
  induction bs generalizing p Q with
  | nil => exact ⟨p, rfl, .refl p, by simpa using h, by simp⟩
  | cons b bs ih =>
    obtain ⟨p1, heq, hframe, hinv, hcnt⟩ := touch_cons h (hlt b mem_cons_self) (href b) bs
    have hlt1 : ∀ c ∈ bs, c < p1.numGpuBlocks := fun c hc => by
      rw [hframe.numGpuBlocks_eq]
      exact hlt c (mem_cons_of_mem b hc)
    have href1 : ∀ c, (p1.blocks c).isNull = false → 0 ≤ (p1.blocks c).refCnt := fun c hc => by
      rw [hframe.isNull_eq] at hc
      have := href c hc
      rw [hcnt]
      split <;> omega
    obtain ⟨p2, hrun, hframe2, hinv2, hcnt2⟩ := ih hinv hlt1 href1
    refine ⟨p2, heq.trans hrun, hframe.trans hframe2, ?_, fun c => ?_⟩
    · have hfilter : Q.filter (· ∉ b :: bs) = (Q.filter (· ≠ b)).filter (· ∉ bs) := by
        rw [filter_filter]
        refine filter_congr fun c _ => ?_
        simp [Bool.and_comm]
      rw [hfilter]
      exact hinv2
    · rw [hcnt2, hcnt, count_cons]
      by_cases hc : c = b
      · simp
        omega
      · simp [hc, Ne.symm hc]

/-- The loop of `free_blocks` drops a reference for each occurrence of a block, and sorts out the
blocks that lose their last one. -/
lemma releaseBlocks_spec
    (hcount : ∀ b, (p.blocks b).isNull = false → (bs.count b : ℤ) ≤ (p.blocks b).refCnt) :
    ∃ last first p', releaseBlocks bs p = .ok (last, first) p' ∧ p.RefFrame p' ∧
      p'.freeBlockQueue = p.freeBlockQueue ∧
      (∀ c, (p'.blocks c).refCnt = (p.blocks c).refCnt - bs.count c) ∧
      (first ++ last).Nodup ∧
      ∀ c, c ∈ first ++ last ↔ c ∈ bs ∧ (p.blocks c).isNull = false ∧ (p'.blocks c).refCnt = 0 := by
  induction bs generalizing p with
  | nil => exact ⟨[], [], p, rfl, .refl p, rfl, by simp, by simp, by simp⟩
  | cons b bs ih =>
    let p1 := p.setBlock b { p.blocks b with refCnt := (p.blocks b).refCnt - 1 }
    have hframe1 : p.RefFrame p1 := .setRefCnt p b _
    have hcnt1 : ∀ c, (p1.blocks c).refCnt = (p.blocks c).refCnt - if c = b then 1 else 0 := by
      intro c
      rw [refCnt_setBlock]
      by_cases hc : c = b <;> simp [hc]
    have hcons : ∀ c, ((b :: bs).count c : ℤ) = bs.count c + if c = b then 1 else 0 := by
      intro c
      by_cases hc : c = b
      · subst hc
        simp
      · simp [hc, Ne.symm hc]
    have hcount1 : ∀ c, (p1.blocks c).isNull = false → (bs.count c : ℤ) ≤ (p1.blocks c).refCnt := by
      intro c hc
      rw [hframe1.isNull_eq] at hc
      have := hcount c hc
      rw [hcons] at this
      rw [hcnt1]
      omega
    obtain ⟨last, first, p2, hrun, hframe2, hqueue, hcnt2, hnodup, hmem⟩ := ih hcount1
    have hcnt : ∀ c, (p2.blocks c).refCnt = (p.blocks c).refCnt - (b :: bs).count c := by
      intro c
      rw [hcnt2, hcnt1, hcons]
      omega
    have heq : releaseBlocks (b :: bs) p =
        if (p1.blocks b).refCnt = 0 ∧ (p1.blocks b).isNull = false then
          if (p1.blocks b).blockHash = none ∨ p1.enableCaching = false then
            .ok (last, b :: first) p2
          else .ok (b :: last, first) p2
        else .ok (last, first) p2 := by
      simp only [releaseBlocks]
      rw [bind_modify, bind_get, bind_ok hrun]
      split
      · split <;> rfl
      · rfl
    by_cases hfree : (p1.blocks b).refCnt = 0 ∧ (p1.blocks b).isNull = false
    · -- The block loses its last reference here, so it does not occur later.
      have hb : b ∉ bs := by
        have := hcount1 b hfree.2
        exact count_eq_zero.1 (by omega)
      have hmem' : ∀ c, c = b ∨ c ∈ first ++ last ↔
          c ∈ b :: bs ∧ (p.blocks c).isNull = false ∧ (p2.blocks c).refCnt = 0 := by
        intro c
        rw [hmem, hframe1.isNull_eq, mem_cons]
        by_cases hc : c = b
        · subst hc
          have hzero : (p2.blocks c).refCnt = 0 := by
            rw [hcnt2, hfree.1, count_eq_zero.2 hb]
            rfl
          simpa [hzero] using hframe1.isNull_eq c ▸ hfree.2
        · simp [hc]
      have hb' : b ∉ first ++ last := fun h => hb ((hmem b).1 h).1
      rw [heq, if_pos hfree]
      split
      · refine ⟨last, b :: first, p2, rfl, hframe1.trans hframe2, hqueue, hcnt, ?_, fun c => ?_⟩
        · exact nodup_cons.2 ⟨hb', hnodup⟩
        · rw [← hmem', cons_append, mem_cons]
      · refine ⟨b :: last, first, p2, rfl, hframe1.trans hframe2, hqueue, hcnt, ?_, fun c => ?_⟩
        · exact nodup_middle.2 (nodup_cons.2 ⟨hb', hnodup⟩)
        · rw [← hmem', perm_middle.mem_iff, mem_cons]
    · rw [heq, if_neg hfree]
      refine ⟨last, first, p2, rfl, hframe1.trans hframe2, hqueue, hcnt, hnodup, fun c => ?_⟩
      rw [hmem, hframe1.isNull_eq, mem_cons]
      constructor
      · exact fun ⟨hc, hrest⟩ => ⟨.inr hc, hrest⟩
      · rintro ⟨hc, hnull, hzero⟩
        refine ⟨?_, hnull, hzero⟩
        rcases hc with rfl | hc
        · by_contra hc
          refine hfree ⟨?_, (hframe1.isNull_eq c).trans hnull⟩
          rw [hcnt2, count_eq_zero.2 hc] at hzero
          simpa using hzero
        · exact hc

/-- `free_blocks` drops a reference for each occurrence of a block; the blocks that lose their last
reference enter the queue. -/
lemma freeBlocks_spec (bs : List ℕ) (h : p.FreeInv Q) (hlt : ∀ b ∈ bs, b < p.numGpuBlocks)
    (hcount : ∀ b, (p.blocks b).isNull = false → (bs.count b : ℤ) ≤ (p.blocks b).refCnt) :
    ∃ p' Q', freeBlocks bs p = .ok () p' ∧ p.RefFrame p' ∧ p'.FreeInv Q' ∧
      ∀ c, (p'.blocks c).refCnt = (p.blocks c).refCnt - bs.count c := by
  obtain ⟨last, first, p1, hrun, hframe, hqueue, hcnt, hnodup, hmem⟩ := releaseBlocks_spec hcount
  -- A block that loses a reference now was not in the queue.
  have hdisj : ∀ c ∈ first ++ last, c ∉ Q := by
    intro c hc hQ
    obtain ⟨hbs, hnull, -⟩ := (hmem c).1 hc
    have hpos := count_pos_iff.2 hbs
    have := hcount c hnull
    rw [((h.mem_iff c).1 hQ).2.2] at this
    omega
  have hnodup' : (first ++ Q ++ last).Nodup := by
    rw [append_assoc, (perm_append_comm.append_left first).nodup_iff, ← append_assoc]
    exact nodup_append.2 ⟨hnodup, h.holds.nodup, fun c hc c' hc' heq => hdisj c hc (heq ▸ hc')⟩
  obtain ⟨q1, hprepend, hholds1⟩ := prependN_spec (h.holds) (nodup_append.1 hnodup').1
  obtain ⟨q2, happend, hholds2⟩ := appendN_spec hholds1 hnodup'
  have hframe' : p.RefFrame { p1 with freeBlockQueue := q2 } := hframe.trans (.setQueue p1 q2)
  refine ⟨{ p1 with freeBlockQueue := q2 }, first ++ Q ++ last, ?_, hframe',
    h.of_refFrame hframe' hholds2 fun c => ?_, hcnt⟩
  · have hrun1 : onQueue (prependN first) p1 =
        .ok () { p1 with freeBlockQueue := q1 } := zoomWith_ok (hqueue ▸ hprepend)
    have hrun2 : onQueue (appendN last) { p1 with freeBlockQueue := q1 } =
        .ok () { p1 with freeBlockQueue := q2 } := zoomWith_ok happend
    unfold freeBlocks
    rw [bind_ok hrun]
    dsimp only
    rw [bind_ok hrun1, hrun2]
  · have hperm : c ∈ first ++ Q ++ last ↔ c ∈ first ++ last ∨ c ∈ Q := by
      simp only [mem_append]
      tauto
    rw [hperm, hmem, h.mem_iff]
    constructor
    · rintro (⟨hc, hnull, hzero⟩ | ⟨hc, hnull, hzero⟩)
      · exact ⟨hlt c hc, hnull, hzero⟩
      · refine ⟨hc, hnull, ?_⟩
        have := hcount c hnull
        rw [hcnt]
        omega
    · rintro ⟨hc, hnull, hzero⟩
      by_cases hbs : c ∈ bs
      · exact .inl ⟨hbs, hnull, hzero⟩
      · rw [hcnt, count_eq_zero.2 hbs] at hzero
        exact .inr ⟨hc, hnull, by simpa using hzero⟩

section GetNewBlocks

variable [DecidableEq H]

/-- `get_new_blocks` takes the first blocks of the queue. -/
lemma getNewBlocks_spec (h : p.FreeInv Q) (hn : n ≤ Q.length) :
    ∃ q p', getNewBlocks n p = .ok (Q.take n) p' ∧ p'.FreeInv (Q.drop n) ∧
      Claimed (Q.take n) { p with freeBlockQueue := q } p' := by
  obtain ⟨q, hpop, hholds⟩ := popleftN_spec h.holds hn
  let p1 : BlockPool H := { p with freeBlockQueue := q }
  have hrun : onQueue (popleftN n) p = .ok ((Q.take n).map .block) p1 := zoomWith_ok hpop
  have hret : ((Q.take n).map FreeNode.block).filterMap FreeNode.blockId? = Q.take n := by
    rw [filterMap_map]
    exact filterMap_some
  have hzero : ∀ b ∈ Q.take n, (p1.blocks b).refCnt = 0 := fun b hb =>
    ((h.mem_iff b).1 (mem_of_mem_take hb)).2.2
  have hnodup : (Q.take n).Nodup := h.holds.nodup.sublist (take_sublist n Q)
  have hinv1 : p1.IndexInv := (RefFrame.setQueue p q).indexInv h.index
  obtain ⟨p', hclaim⟩ := claimBlocks_returns hinv1 hnodup hzero
  have hclaimed := claimBlocks_ok hinv1 hclaim
  refine ⟨q, p', ?_, ⟨?_, fun b => ?_, fun b => ?_, ?_, hclaimed.inv⟩, hclaimed⟩
  · unfold getNewBlocks
    rw [bind_get, if_neg, bind_ok hrun, hret, bind_ok hclaim]
    · rfl
    · rw [getNumFreeBlocks, h.holds.numFreeBlocks_eq]
      omega
  · rw [hclaimed.freeBlockQueue_eq]
    exact hholds
  · -- The blocks that remain in the queue are those not taken.
    rw [hclaimed.numGpuBlocks_eq, hclaimed.isNull_eq, hclaimed.refCnt_eq]
    have hsplit : b ∈ Q ↔ b ∈ Q.take n ∨ b ∈ Q.drop n := by
      rw [← mem_append, take_append_drop]
    have hdisj : b ∈ Q.take n → b ∉ Q.drop n := fun ht hd =>
      (nodup_append.1 ((take_append_drop n Q).symm ▸ h.holds.nodup)).2.2 b ht b hd rfl
    have hiff := h.mem_iff b
    by_cases ht : b ∈ Q.take n
    · simp [ht, hdisj ht]
    · rw [hsplit] at hiff
      simpa [ht] using hiff
  · rw [hclaimed.isNull_eq, hclaimed.nullBlock_eq]
    exact h.isNull_iff b
  · rw [hclaimed.nullBlock_eq, hclaimed.numGpuBlocks_eq]
    exact h.nullBlock_lt

/-- `get_new_blocks` fails at once when the queue is too short. -/
lemma getNewBlocks_of_lt (h : p.FreeInv Q) (hn : Q.length < n) : getNewBlocks n p =
      .error (.valueError s!"Cannot get {n} free blocks from the pool") p := by
  unfold getNewBlocks
  rw [bind_get, if_pos]
  · rfl
  · rw [getNumFreeBlocks, h.holds.numFreeBlocks_eq]
    exact hn

lemma getNewBlocks_eq_ok (h : p.FreeInv Q) (hrun : getNewBlocks n p = .ok bs p') :
    n ≤ Q.length ∧ bs = Q.take n ∧ p'.FreeInv (Q.drop n) ∧
      ∃ q, Claimed (Q.take n) { p with freeBlockQueue := q } p' := by
  by_cases hn : n ≤ Q.length
  · obtain ⟨q, p1, hrun1, hinv, hclaimed⟩ := getNewBlocks_spec h hn
    rw [hrun1] at hrun
    cases hrun
    exact ⟨hn, rfl, hinv, q, hclaimed⟩
  · rw [getNewBlocks_of_lt h (not_le.1 hn)] at hrun
    cases hrun

end GetNewBlocks

/-! ## The ledger of references -/

/-- How a caller got a reference. -/
inductive RefOrigin where
  /-- From `get_new_blocks`. -/
  | allocation
  /-- From `touch`. -/
  | hit
  deriving DecidableEq

/-- A reference that a caller holds. -/
structure BlockRef where
  origin : RefOrigin
  block : ℕ
  deriving DecidableEq

/-- Whether an operation works on hashes or events only. -/
def PoolOp.OnHashes : PoolOp H → Prop
  | .getNewBlocks _ | .touch _ | .freeBlocks _ => False
  | _ => True

variable [DecidableEq H]

/-- The pools that operations lead to from a new pool, with the references that callers hold.
A caller frees only references it holds; the null block is free to be named in any call. -/
inductive RefReachable : BlockPool H → List BlockRef → Prop
  | init {n : ℕ} {caching events : Bool} {hasher : BlockHasher H} {p : BlockPool H} :
      BlockPool.init n caching hasher events = .ok p → RefReachable p []
  | getNewBlocks {p p' : BlockPool H} {L : List BlockRef} {n : ℕ} {bs : List ℕ} :
      RefReachable p L → BlockPool.getNewBlocks n p = .ok bs p' →
      RefReachable p' (bs.map (BlockRef.mk .allocation) ++ L)
  | getNewBlocks_raise {p p' : BlockPool H} {L : List BlockRef} {n : ℕ} {e : PyErr} :
      RefReachable p L → BlockPool.getNewBlocks n p = .error e p' → RefReachable p' L
  | touch {p : BlockPool H} {L : List BlockRef} (bs : List ℕ) :
      RefReachable p L → (∀ b ∈ bs, b < p.numGpuBlocks) →
      RefReachable (finalState (BlockPool.touch bs) p) (bs.map (BlockRef.mk .hit) ++ L)
  | freeBlocks {p : BlockPool H} {L : List BlockRef} (refs L' : List BlockRef) :
      RefReachable p L → (∀ r ∈ refs, r.block < p.numGpuBlocks) →
      List.Perm L (refs.filter (·.block ≠ p.nullBlock) ++ L') →
      RefReachable (finalState (BlockPool.freeBlocks (refs.map BlockRef.block)) p) L'
  | onHashes {p : BlockPool H} {L : List BlockRef} (op : PoolOp H) :
      RefReachable p L → op.OnHashes → RefReachable (finalState op.run p) L

/-- The reference counts agree with the ledger. -/
structure LedgerInv (p : BlockPool H) (L : List BlockRef) : Prop where
  free : ∃ Q, p.FreeInv Q
  refCnt_eq : ∀ b, b ≠ p.nullBlock → (p.blocks b).refCnt = (L.map BlockRef.block).count b
  block_lt : ∀ r ∈ L, r.block < p.numGpuBlocks
  alloc_ne_null : ∀ r ∈ L, r.origin = .allocation → r.block ≠ p.nullBlock
  alloc_nodup : ((L.filter (·.origin = .allocation)).map BlockRef.block).Nodup

omit [DecidableEq H] in
lemma LedgerInv.refCnt_nonneg (h : LedgerInv p L) (hb : b ≠ p.nullBlock) :
    0 ≤ (p.blocks b).refCnt := by
  rw [h.refCnt_eq b hb]
  exact Int.natCast_nonneg _

omit [DecidableEq H] in
lemma ledgerInv_init {caching events : Bool}
    (h : init n caching hasher events = .ok p) : LedgerInv p [] := by
  obtain ⟨hinv, -, hzero⟩ := freeInv_init h
  exact ⟨⟨_, hinv⟩, fun b _ => by simp [hzero b], by simp, by simp, by simp⟩

omit [DecidableEq H] in
/-- Callers get references to blocks; those that are allocated had none before. -/
lemma LedgerInv.add (h : LedgerInv p L) (origin : RefOrigin) (hfree : ∃ Q, p'.FreeInv Q)
    (hnum : p'.numGpuBlocks = p.numGpuBlocks) (hnull : p'.nullBlock = p.nullBlock)
    (hcnt : ∀ b, (p'.blocks b).refCnt = (p.blocks b).refCnt + bs.count b)
    (hlt : ∀ b ∈ bs, b < p.numGpuBlocks) (halloc : origin = .allocation → bs.Nodup ∧
      ∀ b ∈ bs, b ≠ p.nullBlock ∧ (p.blocks b).refCnt = 0) :
    LedgerInv p' (bs.map (BlockRef.mk origin) ++ L) := by
  have hmap : (bs.map (BlockRef.mk origin)).map BlockRef.block = bs := by simp [Function.comp_def]
  refine ⟨hfree, fun b hb => ?_, fun r hr => ?_, fun r hr horigin => ?_, ?_⟩
  · rw [hcnt, h.refCnt_eq b (hnull ▸ hb), map_append, hmap, count_append, Nat.cast_add, add_comm]
  · rw [hnum]
    rcases mem_append.1 hr with hr | hr
    · obtain ⟨b, hb, rfl⟩ := mem_map.1 hr
      exact hlt b hb
    · exact h.block_lt r hr
  · rw [hnull]
    rcases mem_append.1 hr with hr | hr
    · obtain ⟨b, hb, rfl⟩ := mem_map.1 hr
      exact ((halloc horigin).2 b hb).1
    · exact h.alloc_ne_null r hr horigin
  · rw [filter_append, map_append]
    cases origin with
    | hit =>
      rw [filter_eq_nil_iff.2 (by simp)]
      exact h.alloc_nodup
    | allocation =>
      obtain ⟨hnodup, hzero⟩ := halloc rfl
      rw [filter_eq_self.2 (by simp), hmap]
      refine nodup_append.2 ⟨hnodup, h.alloc_nodup, ?_⟩
      -- A block taken now has no entry yet.
      rintro b hb c hc rfl
      obtain ⟨r, hr, rfl⟩ := mem_map.1 hc
      have hcount := h.refCnt_eq r.block (hzero _ hb).1
      have hpos : 0 < (L.map BlockRef.block).count r.block :=
        count_pos_iff.2 (mem_map_of_mem (mem_of_mem_filter hr))
      rw [(hzero _ hb).2] at hcount
      omega

lemma LedgerInv.getNewBlocks (h : LedgerInv p L) (hrun : getNewBlocks n p = .ok bs p') :
    LedgerInv p' (bs.map (BlockRef.mk .allocation) ++ L) := by
  obtain ⟨Q, hQ⟩ := h.free
  obtain ⟨hn, rfl, hinv, q, hclaimed⟩ := getNewBlocks_eq_ok hQ hrun
  have hfree := fun b hb => (hQ.mem_iff b).1 (mem_of_mem_take (i := n) hb)
  have hnodup : (Q.take n).Nodup := hQ.holds.nodup.sublist (take_sublist n Q)
  refine h.add .allocation ⟨_, hinv⟩ hclaimed.numGpuBlocks_eq hclaimed.nullBlock_eq (fun b => ?_)
    (fun b hb => (hfree b hb).1)
    fun _ => ⟨hnodup, fun b hb => ⟨(hQ.isNull_eq_false_iff b).1 (hfree b hb).2.1, (hfree b hb).2.2⟩⟩
  rw [hclaimed.refCnt_eq]
  by_cases ht : b ∈ Q.take n
  · rw [if_pos ht, count_eq_one_of_mem hnodup ht, (hfree b ht).2.2]
    rfl
  · rw [if_neg ht, count_eq_zero.2 ht]
    simp

lemma getNewBlocks_error (h : LedgerInv p L) {e : PyErr}
    (hrun : getNewBlocks n p = .error e p') : p' = p := by
  obtain ⟨Q, hQ⟩ := h.free
  by_cases hn : n ≤ Q.length
  · obtain ⟨q, p1, hrun1, -⟩ := getNewBlocks_spec hQ hn
    rw [hrun1] at hrun
    cases hrun
  · rw [getNewBlocks_of_lt hQ (not_le.1 hn)] at hrun
    cases hrun
    rfl

section

omit [DecidableEq H]

lemma LedgerInv.touch (h : LedgerInv p L) (hlt : ∀ b ∈ bs, b < p.numGpuBlocks) :
    LedgerInv (finalState (BlockPool.touch bs) p) (bs.map (BlockRef.mk .hit) ++ L) := by
  obtain ⟨Q, hQ⟩ := h.free
  obtain ⟨p', hrun, hframe, hinv, hcnt⟩ := touch_spec hQ hlt fun b hb =>
    h.refCnt_nonneg ((hQ.isNull_eq_false_iff b).1 hb)
  have hfinal : finalState (BlockPool.touch bs) p = p' := by rw [finalState, hrun]
  rw [hfinal]
  refine h.add .hit ⟨_, hinv⟩ hframe.numGpuBlocks_eq hframe.nullBlock_eq hcnt hlt fun horigin => ?_
  cases horigin

lemma LedgerInv.freeBlocks {L' refs : List BlockRef} (h : LedgerInv p L)
    (hperm : List.Perm L (refs.filter (·.block ≠ p.nullBlock) ++ L'))
    (hlt : ∀ r ∈ refs, r.block < p.numGpuBlocks) :
    LedgerInv (finalState (BlockPool.freeBlocks (refs.map BlockRef.block)) p) L' := by
  obtain ⟨Q, hQ⟩ := h.free
  have hmem : ∀ r ∈ L', r ∈ L := fun r hr => hperm.mem_iff.2 (mem_append_right _ hr)
  -- Apart from the null block, the references given back are those of the ledger.
  have hcount : ∀ b, b ≠ p.nullBlock → (L.map BlockRef.block).count b =
        (refs.map BlockRef.block).count b + (L'.map BlockRef.block).count b := by
    intro b hb
    have hrefs : ((refs.filter (·.block ≠ p.nullBlock)).map BlockRef.block).count b =
        (refs.map BlockRef.block).count b := by
      simp only [List.count, countP_map, countP_filter]
      refine countP_congr fun r _ => ?_
      simp only [Function.comp_apply, Bool.and_eq_true, beq_iff_eq, decide_eq_true_eq]
      exact ⟨fun hr => hr.1, fun hr => ⟨hr, hr ▸ hb⟩⟩
    rw [(hperm.map BlockRef.block).count_eq, map_append, count_append, hrefs]
  obtain ⟨p', Q', hrun, hframe, hinv, hcnt⟩ := freeBlocks_spec (refs.map BlockRef.block) hQ
    (fun b hb => by
      obtain ⟨r, hr, rfl⟩ := mem_map.1 hb
      exact hlt r hr)
    (fun b hb => by
      rw [hQ.isNull_eq_false_iff] at hb
      rw [h.refCnt_eq b hb, hcount b hb]
      omega)
  have hfinal : finalState (BlockPool.freeBlocks (refs.map BlockRef.block)) p = p' := by
    rw [finalState, hrun]
  rw [hfinal]
  refine ⟨⟨_, hinv⟩, fun b hb => ?_, fun r hr => ?_, fun r hr horigin => ?_, ?_⟩
  · rw [hframe.nullBlock_eq] at hb
    rw [hcnt, h.refCnt_eq b hb, hcount b hb]
    omega
  · rw [hframe.numGpuBlocks_eq]
    exact h.block_lt r (hmem r hr)
  · rw [hframe.nullBlock_eq]
    exact h.alloc_ne_null r (hmem r hr) horigin
  · have hnodup := (((hperm.filter (·.origin = .allocation)).map BlockRef.block).nodup_iff).1
      h.alloc_nodup
    rw [filter_append, map_append] at hnodup
    exact (nodup_append.1 hnodup).2.1

lemma LedgerInv.of_indexFrame (h : LedgerInv p L) (hinv : p'.IndexInv) (hframe : p.IndexFrame p') :
    LedgerInv p' L := by
  obtain ⟨Q, hQ⟩ := h.free
  have hcnt : ∀ b, (p'.blocks b).refCnt = (p.blocks b).refCnt + ([] : List ℕ).count b := fun b => by
    simp [hframe.refCnt_eq]
  exact h.add .hit ⟨Q, hQ.of_indexFrame hinv hframe⟩ hframe.numGpuBlocks_eq hframe.nullBlock_eq hcnt
    (by simp) (by simp)

end

/-- Operations on hashes leave queue and reference counts alone, whether they return or raise. -/
lemma indexFrame_onHashes {op : PoolOp H} (hop : op.OnHashes) (hp : p.IndexInv) :
    p.IndexFrame (finalState op.run p) := by
  cases op with
  | getNewBlocks _ | touch _ | freeBlocks _ => exact hop.elim
  | cacheFullBlocks r blocks nc nf bs g mask =>
    exact indexFrame_finalState (fun _ => .map (keeps_cacheFullBlocks r blocks nc nf bs g mask)) hp
  | cachePartialBlock r b n g bs =>
    exact indexFrame_finalState (fun _ => .map (keeps_cachePartialBlock r b n g bs)) hp
  | moveBlockHashes src dst =>
    exact indexFrame_finalState (fun _ => .map (keeps_moveBlockHashes src dst)) hp
  | evictBlocks bs => exact indexFrame_finalState (fun _ => .map (keeps_evictBlocks bs)) hp
  | resetPrefixCache => exact indexFrame_finalState (fun _ => .map keeps_resetPrefixCache) hp
  | takeEvents => exact indexFrame_finalState (fun _ => .map keeps_takeEvents) hp

/-- The reference counts agree with the ledger in every reachable pool. -/
lemma RefReachable.ledgerInv (h : RefReachable p L) : LedgerInv p L := by
  induction h with
  | init h => exact ledgerInv_init h
  | getNewBlocks _ hrun ih => exact ih.getNewBlocks hrun
  | getNewBlocks_raise _ hrun ih => exact getNewBlocks_error ih hrun ▸ ih
  | touch bs _ hlt ih => exact ih.touch hlt
  | freeBlocks refs L' _ hlt hperm ih => exact ih.freeBlocks hperm hlt
  | onHashes op _ hop ih =>
    obtain ⟨Q, hQ⟩ := ih.free
    exact ih.of_indexFrame (keeps_iff.1 (keeps_run op) _ hQ.index) (indexFrame_onHashes hop hQ.index)

/-- In every reachable pool the free queue lists the blocks without references, the null block
apart, each once; its counter is its length; `get_new_blocks` never returns the null block; no
block has two outstanding allocations; and `get_new_blocks` fails, leaving the pool unchanged,
exactly when more blocks are asked for than are free. -/
theorem pool_reference_invariant {L : List BlockRef} (h : RefReachable p L) :
    (∃ Q : List ℕ, FreeKVCacheBlockQueue.getAllFreeBlocks p.freeBlockQueue =
        .ok (Q.map FreeNode.block) p.freeBlockQueue ∧ Q.Nodup ∧
      (∀ b, b ∈ Q ↔ b < p.numGpuBlocks ∧ b ≠ p.nullBlock ∧ (p.blocks b).refCnt = 0) ∧
      p.freeBlockQueue.numFreeBlocks = Q.length) ∧
    (∀ n bs p', BlockPool.getNewBlocks n p = .ok bs p' → p.nullBlock ∉ bs) ∧
    ((L.filter (·.origin = .allocation)).map BlockRef.block).Nodup ∧
    (∀ n, (∃ e p', BlockPool.getNewBlocks n p = .error e p') ↔
      ((List.range p.numGpuBlocks).filter fun b =>
        b ≠ p.nullBlock ∧ (p.blocks b).refCnt = 0).length < n) ∧
    (∀ n e p', BlockPool.getNewBlocks n p = .error e p' → p' = p) := by
  have hL := h.ledgerInv
  obtain ⟨Q, hQ⟩ := hL.free
  refine ⟨⟨Q, getAllFreeBlocks_spec hQ.holds, hQ.holds.nodup, fun b => ?_,
    hQ.holds.numFreeBlocks_eq⟩, fun n bs p' hrun hnull => ?_, hL.alloc_nodup, fun n => ?_,
    fun n e p' hrun => getNewBlocks_error hL hrun⟩
  · rw [hQ.mem_iff, hQ.isNull_eq_false_iff]
  · obtain ⟨-, rfl, -⟩ := getNewBlocks_eq_ok hQ hrun
    exact hQ.nullBlock_not_mem (mem_of_mem_take hnull)
  · rw [← hQ.length_eq]
    constructor
    · rintro ⟨e, p', hrun⟩
      by_contra hn
      obtain ⟨q, p1, hrun1, -⟩ := getNewBlocks_spec hQ (not_lt.1 hn)
      rw [hrun1] at hrun
      cases hrun
    · exact fun hn => ⟨_, _, getNewBlocks_of_lt hQ hn⟩

/-- Two blocks are allocated, one is hit, and both references of it are given back. -/
theorem pool_reference_invariant_after_free :
    ∃ (p : BlockPool FreeHash) (L : List BlockRef), RefReachable p L ∧ L = [⟨.allocation, 2⟩] ∧
      p.freeBlockQueue.numFreeBlocks = 2 ∧
      ∃ Q : List ℕ, FreeKVCacheBlockQueue.getAllFreeBlocks p.freeBlockQueue =
          .ok (Q.map FreeNode.block) p.freeBlockQueue ∧ Q.Nodup ∧
        (∀ b, b ∈ Q ↔ b < p.numGpuBlocks ∧ b ≠ p.nullBlock ∧ (p.blocks b).refCnt = 0) ∧
        p.freeBlockQueue.numFreeBlocks = Q.length := by
  obtain ⟨p, hinit⟩ : ∃ p, init 4 true freeHasher true = .ok p := ⟨_, rfl⟩
  have h₁ := (RefReachable.init hinit).getNewBlocks (n := 2) (by cases hinit; rfl)
  have h2 := h₁.touch [1] (by cases hinit; decide)
  have h3 := h2.freeBlocks [⟨.allocation, 1⟩, ⟨.hit, 1⟩] [⟨.allocation, 2⟩]
    (by cases hinit; decide) (by cases hinit; decide)
  refine ⟨_, _, h3, rfl, ?_, (pool_reference_invariant h3).1⟩
  cases hinit
  decide +kernel

end BlockPool

end Lvllm
