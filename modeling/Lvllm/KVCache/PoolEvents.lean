import Lvllm.Foundation.Run
import Lvllm.KVCache.PoolRefs

/-!
# Replaying the event stream

A consumer of the events of the pool counts the copies of each key: `BlockStored` adds one copy of
each hash it lists, `BlockRemoved` takes one copy of each, `AllBlocksCleared` forgets everything.
`replay` is that consumer.

Each operation leaves the count of a key equal to the number of blocks stored under it.  Inside
`cache_full_blocks` the index runs ahead of the stream, since the event that stores the new blocks
comes last; `Settled` names the blocks and keys that the stream has not heard of yet.
-/

namespace Lvllm

open List

namespace BlockPool

variable {H : Type} [DecidableEq H]

/-! ## The consumer -/

/-- Count the copies of a key after an event. -/
def replayEvent (count : BlockHashWithGroupId H → ℤ) :
    KVCacheEvent H → BlockHashWithGroupId H → ℤ
  | .blockStored e => fun key =>
    count key + if e.groupIdx = key.groupId then (e.blockHashes.count key.blockHash : ℤ) else 0
  | .blockRemoved e => fun key =>
    count key - if e.groupIdx = key.groupId then (e.blockHashes.count key.blockHash : ℤ) else 0
  | .allBlocksCleared => fun _ => 0

/-- Count the copies of each key along a stream of events. -/
def replay (events : List (KVCacheEvent H)) : BlockHashWithGroupId H → ℤ :=
  events.foldl replayEvent fun _ => 0

lemma replay_concat (events : List (KVCacheEvent H)) (e : KVCacheEvent H) :
    replay (events ++ [e]) = replayEvent (replay events) e := by
  rw [replay, foldl_append]
  rfl

/-- The events for the keys taken from a block. -/
def removedEvents (keys : List (BlockHashWithGroupId H)) : List (KVCacheEvent H) :=
  keys.map fun key => .blockRemoved { blockHashes := [key.blockHash], groupIdx := key.groupId }

/-- An event that lists one hash counts one key. -/
lemma countKey_singleton (key key' : BlockHashWithGroupId H) :
    (if key.groupId = key'.groupId then [key.blockHash].count key'.blockHash else 0) =
      if key' = key then 1 else 0 := by
  by_cases hk : key' = key
  · subst hk
    simp
  · by_cases hg : key.groupId = key'.groupId
    · have hh : key.blockHash ≠ key'.blockHash := fun h => hk (by cases key; cases key'; simp_all)
      simp [hk, hh]
    · simp [hk, hg]

lemma replay_removedEvents (events : List (KVCacheEvent H))
    (keys : List (BlockHashWithGroupId H)) (key : BlockHashWithGroupId H) :
    replay (events ++ removedEvents keys) key = replay events key - keys.count key := by
  induction keys generalizing events with
  | nil => simp [removedEvents]
  | cons k keys ih =>
    have hsplit : events ++ removedEvents (k :: keys) =
        events ++ [.blockRemoved { blockHashes := [k.blockHash], groupIdx := k.groupId }] ++
          removedEvents keys := by simp [removedEvents]
    have hone := congrArg (Nat.cast : ℕ → ℤ) (countKey_singleton k key)
    rw [Nat.cast_ite, Nat.cast_zero] at hone
    rw [hsplit, ih, replay_concat, count_cons]
    simp only [replayEvent, hone]
    by_cases hk : key = k
    · subst hk
      simp
      omega
    · simp [hk, Ne.symm hk]

/-- The counts are never negative along the stream. -/
def NeverNegative (events : List (KVCacheEvent H)) : Prop :=
  ∀ n key, 0 ≤ replay (events.take n) key

/-- A stream stays non-negative when every way of continuing it with a part of the new events
is. -/
lemma NeverNegative.append {events new : List (KVCacheEvent H)} (h : NeverNegative events)
    (hnew : ∀ n key, 0 ≤ replay (events ++ new.take n) key) : NeverNegative (events ++ new) := by
  intro n key
  rw [take_append]
  by_cases hn : n ≤ events.length
  · rw [Nat.sub_eq_zero_of_le hn, take_zero, append_nil]
    exact h n key
  · rw [take_of_length_le (by omega)]
    exact hnew _ key

lemma NeverNegative.concat {events : List (KVCacheEvent H)} (h : NeverNegative events)
    {e : KVCacheEvent H} (he : ∀ key, 0 ≤ replay (events ++ [e]) key) :
    NeverNegative (events ++ [e]) := by
  refine h.append fun n key => ?_
  cases n with
  | zero =>
    have := h events.length key
    rw [take_length] at this
    simpa using this
  | succ n => simpa using he key

/-! ## The stream and the index -/

/-- The stream of the events taken so far and of those still queued counts, for each key, the
blocks stored under it, except where the block and the key are in `S`. -/
structure Settled (taken : List (KVCacheEvent H)) (S : List (ℕ × BlockHashWithGroupId H))
    (p : BlockPool H) : Prop where
  index : p.IndexInv
  enabled : p.enableKvCacheEvents = true
  replay_eq : ∀ key, replay (taken ++ p.kvEventQueue) key =
    ((p.stored key).filter (fun c => (c, key) ∉ S)).length
  neverNegative : NeverNegative (taken ++ p.kvEventQueue)

variable {p p' : BlockPool H} {taken : List (KVCacheEvent H)}
  {S : List (ℕ × BlockHashWithGroupId H)}

/-- The stream counts depend on the stored blocks and the queued events only. -/
lemma Settled.congr (h : Settled taken S p) (hindex : p'.IndexInv)
    (henabled : p'.enableKvCacheEvents = p.enableKvCacheEvents)
    (hstored : ∀ key, p'.stored key = p.stored key) (hevents : p'.kvEventQueue = p.kvEventQueue) :
    Settled taken S p' := by
  refine ⟨hindex, henabled.trans h.enabled, fun key => ?_, ?_⟩
  · rw [hevents, hstored]
    exact h.replay_eq key
  · rw [hevents]
    exact h.neverNegative

variable {b g n bs nc : ℕ} {mask : Option (List Bool)} {α : Type} {blocks : List ℕ} {r : Request H}

/-- Removing the keys of a block and announcing it. -/
lemma removeCachedBlockHashes_settled (h : Settled taken S p) (hb : ∀ key, (b, key) ∉ S) :
    ∃ p' p'', removeCachedBlockHashes b p = .ok (p.keysOf b) p' ∧
      emitBlockRemovedEvents (p.keysOf b) p' = .ok () p'' ∧ Settled taken S p'' ∧
      p.IndexFrame p'' ∧ p''.keysOf b = [] ∧ ∀ key, p''.stored key = (p.stored key).erase b := by
  obtain ⟨p1, hrun, hinv, hframe, hevents, -, hkeys, hstored⟩ :=
    removeCachedBlockHashes_spec h.index b
  have henabled : p1.enableKvCacheEvents = true := hframe.enableKvCacheEvents_eq.trans h.enabled
  let p2 : BlockPool H := { p1 with kvEventQueue := p1.kvEventQueue ++ removedEvents (p.keysOf b) }
  obtain ⟨hinv2, hframe2⟩ : IndexAt p p2 := IndexAt.addEvents _ _ ⟨hinv, hframe⟩
  have hstream : taken ++ p2.kvEventQueue =
      taken ++ p.kvEventQueue ++ removedEvents (p.keysOf b) := by
    show taken ++ (p1.kvEventQueue ++ removedEvents (p.keysOf b)) = _
    rw [hevents, append_assoc]
  -- A removed key still has the copy of this block.
  have hle : ∀ (keys : List (BlockHashWithGroupId H)) key, keys.Sublist (p.keysOf b) →
      (keys.count key : ℤ) ≤ ((p.stored key).filter (fun c => (c, key) ∉ S)).length := by
    intro keys key hsub
    by_cases hkey : key ∈ keys
    · have hone : keys.count key = 1 :=
        count_eq_one_of_mem ((h.index.keysOf_nodup b).sublist hsub) hkey
      have hmem : b ∈ (p.stored key).filter (fun c => (c, key) ∉ S) :=
        mem_filter.2 ⟨(h.index.mem_stored_iff key b).2 (hsub.subset hkey), by simpa using hb key⟩
      have := length_pos_of_mem hmem
      omega
    · rw [count_eq_zero.2 hkey]
      exact Int.natCast_nonneg _
  refine ⟨p1, p2, hrun, ?_, ⟨hinv2, henabled, fun key => ?_, ?_⟩, hframe2, ?_, hstored⟩
  · rw [emitBlockRemovedEvents, modify_apply, if_pos henabled]
    rfl
  · rw [hstream, replay_removedEvents, h.replay_eq]
    have hstored' : p2.stored key = (p.stored key).erase b := hstored key
    rw [hstored', (h.index.stored_nodup key).erase_eq_filter]
    by_cases hkey : key ∈ p.keysOf b
    · have hmem : b ∈ p.stored key := (h.index.mem_stored_iff key b).2 hkey
      have hcount : (p.keysOf b).count key = 1 := count_eq_one_of_mem (h.index.keysOf_nodup b) hkey
      have hperm := (perm_cons_erase hmem).filter (fun c => decide ((c, key) ∉ S))
      have hlen := hperm.length_eq
      rw [filter_cons_of_pos (by simpa using hb key), length_cons,
        (h.index.stored_nodup key).erase_eq_filter] at hlen
      omega
    · have hmem : b ∉ p.stored key := fun hmem => hkey ((h.index.mem_stored_iff key b).1 hmem)
      rw [count_eq_zero.2 hkey, ← (h.index.stored_nodup key).erase_eq_filter, erase_of_not_mem hmem]
      simp
  · rw [hstream]
    refine h.neverNegative.append fun n key => ?_
    have htake : (removedEvents (p.keysOf b)).take n = removedEvents ((p.keysOf b).take n) := by
      simp [removedEvents, map_take]
    rw [htake, replay_removedEvents, h.replay_eq]
    have := hle _ key (take_sublist n (p.keysOf b))
    omega
  · have : p2.keysOf b = p1.keysOf b := rfl
    rw [this, hkeys, if_pos rfl]

/-! ## The operations -/

omit [DecidableEq H] in
lemma emitBlockRemovedEvents_nil (p : BlockPool H) : emitBlockRemovedEvents [] p = .ok () p := by
  rw [emitBlockRemovedEvents, modify_apply]
  split <;> simp

lemma keeps_maybeEvictCachedBlock_settled (b : ℕ) :
    Keeps (Settled taken []) (maybeEvictCachedBlock b : PoolM H Bool) := by
  intro p hp
  obtain ⟨p1, p2, hremove, hemit, hsettled, -, -, hstored⟩ :=
    removeCachedBlockHashes_settled (b := b) hp fun _ => not_mem_nil
  unfold maybeEvictCachedBlock
  rw [bind_ok hremove]
  by_cases hempty : (p.keysOf b).isEmpty = true
  · -- Nothing was stored, so nothing is announced.
    rw [List.isEmpty_iff.1 hempty, emitBlockRemovedEvents_nil] at hemit
    cases hemit
    rw [if_pos hempty]
    exact hsettled
  · rw [if_neg hempty, bind_ok hemit]
    exact hsettled

lemma keeps_evictBlocks_settled (bs : List ℕ) :
    Keeps (Settled taken []) (evictBlocks bs : PoolM H Unit) := by
  induction bs with
  | nil => exact .pure _
  | cons b bs ih =>
    refine .bind .get fun p => .ite ?_ (.throw _)
    exact .bind (keeps_maybeEvictCachedBlock_settled b) fun _ => ih

/-- Operations on references change neither the index nor the stream. -/
lemma Settled.of_refFrame (h : Settled taken S p) (hframe : p.RefFrame p') : Settled taken S p' :=
  h.congr (hframe.indexInv h.index) hframe.enableKvCacheEvents_eq
    (fun key => by rw [stored, stored, hframe.map_eq]) hframe.kvEventQueue_eq

/-- Adding keys to a block stores it once more under each of them. -/
lemma insertBlockHashes_spec (h : p.IndexInv) (b : ℕ) (n : Option ℕ)
    {keys : List (BlockHashWithGroupId H)} (hnodup : keys.Nodup)
    (hnew : ∀ key ∈ keys, b ∉ p.stored key) :
    ∃ p', insertBlockHashes b n keys p = .ok () p' ∧ p'.IndexInv ∧ p.IndexFrame p' ∧
      p'.kvEventQueue = p.kvEventQueue ∧
      ∀ key, p'.stored key = p.stored key ++ if key ∈ keys then [b] else [] := by
  induction keys generalizing p with
  | nil => exact ⟨p, rfl, h, .refl p, rfl, by simp⟩
  | cons k keys ih =>
    obtain ⟨hk, hnodup⟩ := nodup_cons.1 hnodup
    obtain ⟨p1, hrun, hins⟩ := insertBlockHash_spec h k b n
    have hstored := hins.stored_new (hnew k mem_cons_self)
    have hnew1 : ∀ key ∈ keys, b ∉ p1.stored key := by
      intro key hkey
      have hne : key ≠ k := fun heq => hk (heq ▸ hkey)
      rw [hstored, if_neg hne, append_nil]
      exact hnew key (mem_cons_of_mem k hkey)
    obtain ⟨p2, hrun2, hinv2, hframe2, hevents2, hstored2⟩ := ih hins.inv hnodup hnew1
    refine ⟨p2, ?_, hinv2, hins.frame.trans hframe2, hevents2.trans hins.events, fun key => ?_⟩
    · rw [insertBlockHashes, bind_ok hrun, hrun2]
    · rw [hstored2, hstored]
      by_cases hkey : key = k
      · subst hkey
        simp [hk]
      · simp [hkey]

/-- `move_block_hashes` replaces one block by another under each key, which no count shows. -/
lemma keeps_moveBlockHashes_settled (src dst : ℕ) :
    Keeps (Settled taken []) (moveBlockHashes src dst : PoolM H Unit) := by
  intro p hp
  unfold moveBlockHashes
  rw [bind_get]
  by_cases hdst : (p.blocks dst).blockHash ≠ none ∨ p.cachedBlockHashesByBlock dst ≠ none
  · rw [if_pos hdst]
    exact hp
  · rw [if_neg hdst]
    obtain ⟨hhash, hsecondary⟩ := not_or.1 hdst
    rw [not_not] at hhash hsecondary
    have hkeys : p.keysOf dst = [] := by simp [keysOf, hhash, hsecondary]
    obtain ⟨p1, hrun, hinv, hframe, hevents, -, -, hstored⟩ :=
      removeCachedBlockHashes_spec hp.index src
    have hnew : ∀ key ∈ p.keysOf src, dst ∉ p1.stored key := by
      intro key _ hmem
      rw [hstored] at hmem
      exact hp.index.not_mem_stored hkeys key (mem_of_mem_erase hmem)
    obtain ⟨p2, hrun2, hinv2, hframe2, hevents2, hstored2⟩ := insertBlockHashes_spec hinv dst
      (p.blocks src).blockHashNumTokens (hp.index.keysOf_nodup src) hnew
    rw [bind_ok hrun, hrun2]
    have hqueue : p2.kvEventQueue = p.kvEventQueue := hevents2.trans hevents
    refine ⟨hinv2, (hframe.trans hframe2).enableKvCacheEvents_eq.trans hp.enabled, fun key => ?_,
      hqueue ▸ hp.neverNegative⟩
    rw [hqueue, hp.replay_eq, hstored2, hstored]
    simp only [not_mem_nil, not_false_eq_true, decide_true, filter_true]
    by_cases hkey : key ∈ p.keysOf src
    · have hmem : src ∈ p.stored key := (hp.index.mem_stored_iff key src).2 hkey
      have := length_erase_of_mem hmem
      have := length_pos_of_mem hmem
      rw [if_pos hkey, length_append, length_singleton]
      omega
    · have hmem : src ∉ p.stored key := fun h => hkey ((hp.index.mem_stored_iff key src).1 h)
      rw [if_neg hkey, erase_of_not_mem hmem, append_nil]

/-- The event that stores the pending blocks settles them. -/
lemma Settled.announce (h : Settled taken S p) (e : BlockStored H)
    (hpending : ∀ key, ((p.stored key).filter (fun c => (c, key) ∈ S)).length =
      if e.groupIdx = key.groupId then e.blockHashes.count key.blockHash else 0) :
    Settled taken [] { p with kvEventQueue := p.kvEventQueue ++ [.blockStored e] } := by
  have hreplay : ∀ key, replay (taken ++ p.kvEventQueue ++ [.blockStored e]) key =
      (p.stored key).length := by
    intro key
    have hsplit := length_eq_length_filter_add (l := p.stored key) (fun c => decide ((c, key) ∈ S))
    have hpend := hpending key
    have hneg : (p.stored key).filter (fun c => !decide ((c, key) ∈ S)) =
        (p.stored key).filter (fun c => (c, key) ∉ S) := by simp
    rw [hneg] at hsplit
    rw [replay_concat]
    simp only [replayEvent, h.replay_eq]
    by_cases hg : e.groupIdx = key.groupId
    · rw [if_pos hg] at hpend ⊢
      omega
    · rw [if_neg hg] at hpend ⊢
      omega
  obtain ⟨hinv, -⟩ := IndexAt.addEvents p [.blockStored e] ⟨h.index, .refl p⟩
  refine ⟨hinv, h.enabled, fun key => ?_, ?_⟩
  · show replay (taken ++ (p.kvEventQueue ++ [.blockStored e])) key = _
    rw [← append_assoc, hreplay]
    simp [stored]
  · show NeverNegative (taken ++ (p.kvEventQueue ++ [.blockStored e]))
    rw [← append_assoc]
    refine h.neverNegative.concat fun key => ?_
    rw [hreplay]
    exact Int.natCast_nonneg _

omit [DecidableEq H] in
/-- A block that is not stored under a key is not pending under it. -/
lemma mem_pending_cons {c : ℕ} {k key : BlockHashWithGroupId H} (hnew : b ∉ p.stored key)
    (hc : c ∈ p.stored k) : (c, k) ∈ (b, key) :: S ↔ (c, k) ∈ S := by
  rw [mem_cons, or_iff_right]
  rintro heq
  cases heq
  exact hnew hc

/-- Storing a block under a new key leaves the stream behind by one. -/
lemma insertBlockHash_settled (h : Settled taken S p) {key : BlockHashWithGroupId H} (n : Option ℕ)
    (hnew : b ∉ p.stored key) :
    ∃ p', insertBlockHash key b n p = .ok () p' ∧ Settled taken ((b, key) :: S) p' ∧
      p.IndexFrame p' ∧
      ∀ k, ((p'.stored k).filter (fun c => (c, k) ∈ (b, key) :: S)).length =
        ((p.stored k).filter (fun c => (c, k) ∈ S)).length + if k = key then 1 else 0 := by
  obtain ⟨p', hrun, hins⟩ := insertBlockHash_spec h.index key b n
  refine ⟨p', hrun, ⟨hins.inv, hins.frame.enableKvCacheEvents_eq.trans h.enabled, fun k => ?_,
    hins.events ▸ h.neverNegative⟩, hins.frame, fun k => ?_⟩
  · have hold : (p.stored k).filter (fun c => (c, k) ∉ (b, key) :: S) =
        (p.stored k).filter (fun c => (c, k) ∉ S) :=
      filter_congr fun c hc => by simp only [mem_pending_cons hnew hc]
    have hadd : (if k = key then [b] else []).filter (fun c => (c, k) ∉ (b, key) :: S) = [] := by
      by_cases hk : k = key <;> simp [hk]
    rw [hins.events, h.replay_eq, hins.stored_new hnew, filter_append, hold, hadd, append_nil]
  · have hold : (p.stored k).filter (fun c => (c, k) ∈ (b, key) :: S) =
        (p.stored k).filter (fun c => (c, k) ∈ S) :=
      filter_congr fun c hc => by simp only [mem_pending_cons hnew hc]
    rw [hins.stored_new hnew, filter_append, hold, length_append]
    by_cases hk : k = key <;> simp [hk]

/-- `cache_partial_block` announces what it stores and what it replaces. -/
lemma keeps_cachePartialBlock_settled (r : Request H) (b n g bs : ℕ) :
    Keeps (Settled taken []) (cachePartialBlock r b n g bs) := by
  intro p hp
  unfold cachePartialBlock
  rw [bind_get]
  by_cases hnull : (p.blocks b).isNull = true
  · rw [if_pos hnull]
    exact hp
  rw [if_neg hnull]
  by_cases hassert : bs ≤ p.hasher.hashBlockSize ∨ bs % p.hasher.hashBlockSize ≠ 0 ∨ n % bs = 0
  · rw [if_pos hassert]
    exact hp
  rw [if_neg hassert]
  cases hhash : p.getPartialBlockHash r n with
  | error e => exact hp
  | ok hash =>
    rw [show (ofExcept (.ok hash) : PoolM H H) = pure hash from rfl, bind_ok (pure_apply hash p)]
    set key : BlockHashWithGroupId H := ⟨hash, g⟩ with hkey
    have halready : (decide ((p.blocks b).blockHash = some key) ||
        p.cachedBlockHashToBlock.contain key b) = decide (key ∈ p.keysOf b) := by
      have hcontain : p.cachedBlockHashToBlock.contain key b = true ↔ key ∈ p.keysOf b :=
        BlockHashToBlockMap.contain_iff.trans (hp.index.mem_stored_iff key b)
      have hprimary : (p.blocks b).blockHash = some key → key ∈ p.keysOf b := fun h => by
        simp [keysOf, h]
      rw [Bool.eq_iff_iff]
      simp only [Bool.or_eq_true, decide_eq_true_eq, hcontain]
      exact ⟨fun h => h.elim hprimary id, .inr⟩
    simp only [halready]
    by_cases hmem : key ∈ p.keysOf b
    · -- The entry exists: nothing changes and nothing is announced.
      obtain ⟨p', hrun, hins⟩ := insertBlockHash_spec hp.index key b
        (some (n / p.hasher.hashBlockSize * p.hasher.hashBlockSize))
      have hstored : ∀ k, p'.stored k = p.stored k := fun k => by
        rw [hins.stored_eq, if_neg]
        exact fun h => h.2 ((hp.index.mem_stored_iff key b).2 hmem)
      simp only [hmem, decide_true, Bool.not_true, Bool.false_and, Bool.and_false,
        Bool.false_eq_true, if_false]
      rw [bind_ok hrun]
      exact hp.congr hins.inv hins.frame.enableKvCacheEvents_eq hstored hins.events
    · have hstore : ∀ q : BlockPool H, Settled taken [] q → b ∉ q.stored key → ∀ k, ∃ q', (do
            insertBlockHash key b k
            modify fun p => { p with
              kvEventQueue := p.kvEventQueue ++ [p.partialStoredEvent r hash n g] }
            pure (some key) : PoolM H _) q = .ok (some key) q' ∧ Settled taken [] q' := by
        intro q hq hnew k
        obtain ⟨q1, hrun, hq1, -, hpending⟩ := insertBlockHash_settled hq k hnew
        refine ⟨_, by rw [bind_ok hrun]; rfl, hq1.announce _ fun key' => ?_⟩
        rw [hpending]
        simpa using (countKey_singleton key key').symm
      by_cases hreplace : (p.blocks b).blockHash.isSome = true ∧
          (p.blocks b).blockHashNumTokens.any (· <
            n / p.hasher.hashBlockSize * p.hasher.hashBlockSize) = true
      · obtain ⟨p1, p2, hremove, hemit, hsettled, -, hkeys, hstored⟩ :=
          removeCachedBlockHashes_settled (b := b) hp fun _ => not_mem_nil
        obtain ⟨q, hrun, hq⟩ := hstore p2 hsettled (hsettled.index.not_mem_stored hkeys key)
          (some (n / p.hasher.hashBlockSize * p.hasher.hashBlockSize))
        simp only [hmem, decide_false, Bool.not_false, hreplace, Bool.and_self, if_true, hp.enabled]
        rw [bind_ok hremove, bind_ok hemit, hrun]
        exact hq
      · have hnew : b ∉ p.stored key := fun h => hmem ((hp.index.mem_stored_iff key b).1 h)
        obtain ⟨q, hrun, hq⟩ := hstore p hp hnew
          (some (n / p.hasher.hashBlockSize * p.hasher.hashBlockSize))
        rw [← Bool.and_eq_true, Bool.not_eq_true] at hreplace
        simp only [hmem, decide_false, Bool.not_false, Bool.true_and, hreplace,
          Bool.false_eq_true, if_false, Bool.and_self, if_true, hp.enabled]
        rw [hrun]
        exact hq

/-! ## Full blocks -/

/-- The blocks that `cache_full_blocks` caches: those neither null nor masked out. -/
def blocksToCache (p : BlockPool H) (blockMask : Option (List Bool)) : ℕ → List ℕ → List ℕ
  | _, [] => []
  | i, b :: bs =>
    if (p.blocks b).isNull || maskedOut blockMask i then p.blocksToCache blockMask (i + 1) bs
    else b :: p.blocksToCache blockMask (i + 1) bs

omit [DecidableEq H] in
lemma blocksToCache_congr (hframe : p.IndexFrame p') (mask : Option (List Bool)) (i : ℕ)
    (bs : List ℕ) : p'.blocksToCache mask i bs = p.blocksToCache mask i bs := by
  induction bs generalizing i with
  | nil => rfl
  | cons b bs ih => simp only [blocksToCache, hframe.isNull_eq, ih]

/-- A promoted block loses the keys of its partial entries, and the stream says so. -/
lemma promoteBlock_settled (h : Settled taken S p) (hb : ∀ key, (b, key) ∉ S)
    (hrun : promoteBlock b n p = .ok () p') :
    Settled taken S p' ∧ p.IndexFrame p' ∧ p'.keysOf b = [] ∧
      ∀ key, p'.stored key = (p.stored key).erase b := by
  unfold promoteBlock at hrun
  rw [bind_get] at hrun
  split at hrun
  · rename_i hhash
    cases hrun
    have hkeys := h.index.keysOf_eq_nil hhash
    exact ⟨h, .refl p, hkeys, fun key =>
      (erase_of_not_mem (h.index.not_mem_stored hkeys key)).symm⟩
  · split at hrun
    · obtain ⟨p1, p2, hremove, hemit, hsettled, hframe, hkeys, hstored⟩ :=
        removeCachedBlockHashes_settled h hb
      rw [bind_ok hremove, hemit] at hrun
      cases hrun
      exact ⟨hsettled, hframe, hkeys, hstored⟩
    · cases hrun

/-- One round of the loop of `cache_full_blocks`: one more block is pending. -/
lemma cacheBlock_settled (h : Settled taken S p) (hb : ∀ key, (b, key) ∉ S)
    (key : BlockHashWithGroupId H) (hrun : promoteBlock b n p = .ok () p') :
    ∃ p'', insertBlockHash key b (some n) p' = .ok () p'' ∧ Settled taken ((b, key) :: S) p'' ∧
      p.IndexFrame p'' ∧
      ∀ k, ((p''.stored k).filter (fun c => (c, k) ∈ (b, key) :: S)).length =
        ((p.stored k).filter (fun c => (c, k) ∈ S)).length + if k = key then 1 else 0 := by
  obtain ⟨hsettled, hframe, hkeys, hstored⟩ := promoteBlock_settled h hb hrun
  obtain ⟨p2, hrun2, hsettled2, hframe2, hpending⟩ :=
    insertBlockHash_settled hsettled (some n) (hsettled.index.not_mem_stored hkeys key)
  refine ⟨p2, hrun2, hsettled2, hframe.trans hframe2, fun k => ?_⟩
  have hb' : decide ((b, k) ∈ S) = false := by simpa using hb k
  rw [hpending, hstored]
  by_cases hmem : b ∈ p.stored k
  · obtain ⟨l1, l2, -, hsplit, herase⟩ := exists_erase_eq hmem
    rw [herase, hsplit]
    simp [filter_append, hb']
  · rw [erase_of_not_mem hmem]

/-- The loop of `cache_full_blocks` leaves exactly the blocks it cached pending. -/
lemma cacheFullBlocksLoop_settled {hashes newHashes : List H} {i : ℕ}
    (h : Settled taken S p) (hnodup : (p.blocksToCache mask i blocks).Nodup)
    (hfresh : ∀ b ∈ p.blocksToCache mask i blocks, ∀ key, (b, key) ∉ S)
    (hrun : cacheFullBlocksLoop hashes nc bs g mask i blocks p = .ok newHashes p') :
    ∃ S', Settled taken S' p' ∧ ∀ key, ((p'.stored key).filter (fun c => (c, key) ∈ S')).length =
      ((p.stored key).filter (fun c => (c, key) ∈ S)).length +
        if g = key.groupId then newHashes.count key.blockHash else 0 := by
  induction blocks generalizing p S i newHashes with
  | nil =>
    cases hrun
    exact ⟨S, h, by simp⟩
  | cons b blocks ih =>
    simp only [cacheFullBlocksLoop] at hrun
    rw [bind_get] at hrun
    simp only [blocksToCache] at hnodup hfresh
    split at hrun
    · rename_i hskip
      rw [if_pos hskip] at hnodup hfresh
      exact ih h hnodup hfresh hrun
    · rename_i hskip
      rw [if_neg hskip] at hnodup hfresh
      obtain ⟨hb, hnodup⟩ := nodup_cons.1 hnodup
      cases hhash : hashes[i]? with
      | none =>
        simp only [hhash] at hrun
        cases hrun
      | some hash =>
        simp only [hhash] at hrun
        obtain ⟨⟨⟩, p1, hpromote, hrun⟩ := bind_eq_ok.1 hrun
        obtain ⟨p2, hinsert, hsettled, hframe, hpending⟩ :=
          cacheBlock_settled h (hfresh b mem_cons_self) ⟨hash, g⟩ hpromote
        rw [bind_ok hinsert] at hrun
        obtain ⟨rest, p3, hrest, hrun⟩ := bind_eq_ok.1 hrun
        cases hrun
        rw [← blocksToCache_congr hframe] at hb hnodup
        have hfresh2 : ∀ c ∈ p2.blocksToCache mask (i + 1) blocks, ∀ key,
            (c, key) ∉ (b, ⟨hash, g⟩) :: S := by
          intro c hc key hmem
          rcases mem_cons.1 hmem with heq | hmem
          · cases heq
            exact hb hc
          · rw [blocksToCache_congr hframe] at hc
            exact hfresh c (mem_cons_of_mem b hc) key hmem
        obtain ⟨S', hS', hpending'⟩ := ih hsettled hnodup hfresh2 hrest
        refine ⟨S', hS', fun key => ?_⟩
        have hone := countKey_singleton ⟨hash, g⟩ key
        rw [hpending', hpending, ← hone]
        by_cases hg : g = key.groupId
        · have hcons : (hash :: rest).count key.blockHash =
              [hash].count key.blockHash + rest.count key.blockHash :=
            @count_append H _ key.blockHash [hash] rest
          simp only [hg, if_true, hcons]
          omega
        · simp [hg]

omit [DecidableEq H] in
lemma ofExcept_eq_ok {x : Except PyErr α} {a : α} :
    (ofExcept x : PoolM H α) p = .ok a p' ↔ x = .ok a ∧ p' = p := by
  cases x with
  | error e => simp [ofExcept]
  | ok b => simp [ofExcept, eq_comm]

omit [DecidableEq H] in
/-- The event that ends `cache_full_blocks` lists the hashes of the blocks cached. -/
lemma emitBlockStored_ok {nf : ℕ} {hashes newHashes : List H}
    (henabled : p.enableKvCacheEvents = true)
    (hrun : emitBlockStored r blocks nc nf bs g mask hashes newHashes p = .ok () p') :
    ∃ e : BlockStored H, e.blockHashes = newHashes ∧ e.groupIdx = g ∧
      p' = { p with kvEventQueue := p.kvEventQueue ++ [.blockStored e] } := by
  unfold emitBlockStored at hrun
  rw [bind_get, if_pos henabled] at hrun
  have hrest : ∀ (parent : Option H),
      (do let extraKeysList ← ofExcept (p.storedExtraKeys r blocks nc bs mask (nf - nc) nc 0)
          modify fun p => { p with kvEventQueue := p.kvEventQueue ++ [buildBlockStoredEvent r
            newHashes parent (nc * bs) (nf * bs) bs g extraKeysList] } : PoolM H Unit) p =
        .ok () p' →
      ∃ e : BlockStored H, e.blockHashes = newHashes ∧ e.groupIdx = g ∧
        p' = { p with kvEventQueue := p.kvEventQueue ++ [.blockStored e] } := by
    intro parent hrun
    obtain ⟨extra, p1, hextra, hmodify⟩ := bind_eq_ok.1 hrun
    obtain ⟨-, rfl⟩ := ofExcept_eq_ok.1 hextra
    cases hmodify
    exact ⟨_, rfl, rfl, rfl⟩
  cases nc with
  | zero => exact hrest none hrun
  | succ k =>
    cases hparent : hashes[k]? with
    | none =>
      simp only [hparent] at hrun
      cases hrun
    | some parent =>
      simp only [hparent] at hrun
      exact hrest (some parent) hrun

/-- `cache_full_blocks` settles the blocks it caches when no block occurs twice among them. -/
lemma cacheFullBlocks_settled {nf : ℕ} (h : Settled taken [] p)
    (hnodup : (p.blocksToCache mask 0 ((blocks.take nf).drop nc)).Nodup)
    (hrun : cacheFullBlocks r blocks nc nf bs g mask p = .ok () p') : Settled taken [] p' := by
  unfold cacheFullBlocks at hrun
  split at hrun
  · cases hrun
    exact h
  · dsimp only at hrun
    split at hrun
    · rw [bind_get] at hrun
      obtain ⟨hashes, p1, hresolve, hcache⟩ := bind_eq_ok.1 hrun
      obtain ⟨-, rfl⟩ := ofExcept_eq_ok.1 hresolve
      obtain ⟨newHashes, p2, hloop, hemit⟩ := bind_eq_ok.1 hcache
      obtain ⟨S, hS, hpending⟩ := cacheFullBlocksLoop_settled h hnodup (by simp) hloop
      obtain ⟨e, hhashes, hgroup, rfl⟩ := emitBlockStored_ok hS.enabled hemit
      refine hS.announce e fun key => ?_
      rw [hpending, hhashes, hgroup]
      simp
    · cases hrun

/-! ## Runs -/

lemma keeps_resetPrefixCache_settled :
    Keeps (Settled taken []) (resetPrefixCache : PoolM H Bool) := by
  intro p hp
  unfold resetPrefixCache
  rw [bind_get]
  by_cases hused : (p.numGpuBlocks : ℤ) - p.getNumFreeBlocks ≠ 1
  · rw [if_pos hused]
    exact hp
  · rw [if_neg hused]
    have hcleared : ∀ key, replay (taken ++ p.kvEventQueue ++ [.allBlocksCleared]) key = 0 := by
      intro key
      rw [replay_concat]
      rfl
    refine ⟨.of_noHashes rfl (fun _ => rfl) (fun _ => rfl) (fun _ => rfl), hp.enabled,
      fun key => ?_, ?_⟩
    · rw [if_pos hp.enabled, ← append_assoc, hcleared]
      simp [stored]
    · rw [if_pos hp.enabled, ← append_assoc]
      exact hp.neverNegative.concat fun key => (hcleared key).ge

/-- The blocks that a call of `cache_full_blocks` caches are distinct. -/
def PoolOp.CachesDistinct (p : BlockPool H) : PoolOp H → Prop
  | .cacheFullBlocks _ blocks nc nf _ _ mask =>
    (p.blocksToCache mask 0 ((blocks.take nf).drop nc)).Nodup
  | _ => True

instance (p : BlockPool H) (op : PoolOp H) : Decidable (op.CachesDistinct p) :=
  match op with
  | .cacheFullBlocks _ blocks nc nf _ _ mask =>
    inferInstanceAs (Decidable (p.blocksToCache mask 0 ((blocks.take nf).drop nc)).Nodup)
  | .getNewBlocks _ | .touch _ | .freeBlocks _ | .cachePartialBlock .. | .moveBlockHashes .. |
    .evictBlocks _ | .resetPrefixCache | .takeEvents => isTrue trivial

/-- The events that an operation hands to the consumer. -/
def PoolResult.takenEvents : PoolResult H → List (KVCacheEvent H)
  | .events es => es
  | _ => []

/-- A new pool with events enabled, and no event taken. -/
def EventInit (s : BlockPool H × List (KVCacheEvent H)) : Prop :=
  ∃ n caching hasher, BlockPool.init n caching hasher true = .ok s.1 ∧ s.2 = []

/-- Run an operation that returns, and collect the events taken. -/
def eventStep (s : BlockPool H × List (KVCacheEvent H)) (op : PoolOp H) :
    Option (BlockPool H × List (KVCacheEvent H)) :=
  match op.run s.1 with
  | .ok result p => some (p, s.2 ++ result.takenEvents)
  | .error _ _ => none

lemma settled_init {caching : Bool} {hasher : BlockHasher H}
    (h : BlockPool.init n caching hasher true = .ok p) : Settled [] [] p := by
  have hindex := indexInv_init h
  obtain ⟨-, b, q, -, rfl⟩ := init_eq_ok h
  exact ⟨hindex, rfl, fun _ => rfl, fun n _ => by simp [replay]⟩

attribute [local simp] PoolResult.takenEvents

/-- Every operation keeps the stream settled. -/
lemma Settled.run {op : PoolOp H} {result : PoolResult H} (h : Settled taken [] p)
    (hop : op.CachesDistinct p) (hrun : op.run p = .ok result p') :
    Settled (taken ++ result.takenEvents) [] p' := by
  have hqueue : ∀ (p : BlockPool H) q, Settled taken [] p → _ := fun p q hp =>
    hp.of_refFrame (.setQueue p q)
  have href : ∀ (p : BlockPool H) b n, Settled taken [] p → _ := fun p b n hp =>
    hp.of_refFrame (.setRefCnt p b n)
  cases op with
  | getNewBlocks n =>
    obtain ⟨a, hret, rfl⟩ := map_eq_ok.1 hrun
    simpa using (keeps_getNewBlocks hqueue href keeps_maybeEvictCachedBlock_settled n).ok h hret
  | touch bs =>
    obtain ⟨a, hret, rfl⟩ := map_eq_ok.1 hrun
    simpa using (keeps_touch hqueue href bs).ok h hret
  | freeBlocks bs =>
    obtain ⟨a, hret, rfl⟩ := map_eq_ok.1 hrun
    simpa using (keeps_freeBlocks hqueue href bs).ok h hret
  | cacheFullBlocks r blocks nc nf bs g mask =>
    obtain ⟨a, hret, rfl⟩ := map_eq_ok.1 hrun
    simpa using cacheFullBlocks_settled h hop hret
  | cachePartialBlock r b n g bs =>
    obtain ⟨a, hret, rfl⟩ := map_eq_ok.1 hrun
    simpa using (keeps_cachePartialBlock_settled r b n g bs).ok h hret
  | moveBlockHashes src dst =>
    obtain ⟨a, hret, rfl⟩ := map_eq_ok.1 hrun
    simpa using (keeps_moveBlockHashes_settled src dst).ok h hret
  | evictBlocks bs =>
    obtain ⟨a, hret, rfl⟩ := map_eq_ok.1 hrun
    simpa using (keeps_evictBlocks_settled bs).ok h hret
  | resetPrefixCache =>
    obtain ⟨a, hret, rfl⟩ := map_eq_ok.1 hrun
    simpa using keeps_resetPrefixCache_settled.ok h hret
  | takeEvents =>
    -- The events move from the queue to the consumer.
    obtain ⟨a, hret, rfl⟩ := map_eq_ok.1 hrun
    unfold BlockPool.takeEvents at hret
    rw [bind_get, if_pos h.enabled] at hret
    cases hret
    refine ⟨h.index.congr (fun _ => rfl) (fun _ => rfl) rfl rfl, h.enabled, fun key => ?_, ?_⟩
    · simpa [stored] using h.replay_eq key
    · simpa using h.neverNegative

/-- Along operations that return, with no call of `cache_full_blocks` caching a block twice, the
stream of events counts for each key the blocks stored under it, and no count is ever negative. -/
theorem event_replay_eq_stored {s : BlockPool H × List (KVCacheEvent H)}
    (h : Reached EventInit eventStep (fun s op => op.CachesDistinct s.1) s) :
    (∀ key, replay (s.2 ++ s.1.kvEventQueue) key = (s.1.cachedBlockHashToBlock.stored key).length) ∧
    ∀ events, events <+: s.2 ++ s.1.kvEventQueue → ∀ key, 0 ≤ replay events key := by
  have hsettled : Settled s.2 [] s.1 := by
    refine h.invariant (I := fun s => Settled s.2 [] s.1) ?_ fun s op s' hs hop hstep => ?_
    · rintro ⟨p, taken⟩ ⟨n, caching, hasher, hinit, rfl⟩
      exact settled_init hinit
    · unfold eventStep at hstep
      split at hstep
      · rename_i result p' hrun
        cases hstep
        exact hs.run hop hrun
      · cases hstep
  refine ⟨fun key => ?_, fun events hprefix key => ?_⟩
  · simpa [stored] using hsettled.replay_eq key
  · rw [prefix_iff_eq_take.1 hprefix]
    exact hsettled.neverNegative _ key

/-- A run of the pool over `FreeHash` from a new pool with four blocks. -/
def eventRun (P : BlockPool FreeHash × List (KVCacheEvent FreeHash) → PoolOp FreeHash → Prop)
    [∀ s op, Decidable (P s op)] (ops : List (PoolOp FreeHash)) :
    Option (BlockPool FreeHash × List (KVCacheEvent FreeHash)) :=
  match BlockPool.init 4 true freeHasher true with
  | .ok p => runAll eventStep P ops (p, [])
  | .error _ => none

lemma reached_eventRun
    {P : BlockPool FreeHash × List (KVCacheEvent FreeHash) → PoolOp FreeHash → Prop}
    [∀ s op, Decidable (P s op)] {ops : List (PoolOp FreeHash)}
    {s : BlockPool FreeHash × List (KVCacheEvent FreeHash)} (h : eventRun P ops = some s) :
    Reached EventInit eventStep P s := by
  unfold eventRun at h
  split at h
  · rename_i p hinit
    exact Reached.runAll (.init ⟨4, true, freeHasher, hinit, rfl⟩) h
  · cases h

/-- A call that names one block for two positions caches it twice: the hash of the first position
is removed before the event that stores it, and its count drops below zero. -/
theorem event_replay_negative_of_repeated_block :
    ∃ (s : BlockPool FreeHash × List (KVCacheEvent FreeHash))
      (events : List (KVCacheEvent FreeHash)),
      Reached EventInit eventStep (fun _ _ => True) s ∧ events <+: s.2 ++ s.1.kvEventQueue ∧
        replay events ⟨.block freeHasher.noneHash [1, 2, 3, 4] none, 0⟩ < 0 := by
  have hrun : (eventRun (fun _ _ => True) [.getNewBlocks 1,
      .cacheFullBlocks (textRequest [1, 2, 3, 4, 5, 6, 7, 8]) [1, 1] 0 2 4 0 none]).any
        (fun s => decide (replay ((s.2 ++ s.1.kvEventQueue).take 1)
          ⟨.block freeHasher.noneHash [1, 2, 3, 4] none, 0⟩ < 0)) = true := by
    decide +kernel
  obtain ⟨s, hs, hneg⟩ := Option.any_eq_true _ _ |>.1 hrun
  exact ⟨s, _, reached_eventRun hs, take_prefix 1 _, of_decide_eq_true hneg⟩

/-- Two blocks are cached, each under its own key, and the second is evicted. -/
theorem event_replay_eq_stored_after_evict :
    ∃ s : BlockPool FreeHash × List (KVCacheEvent FreeHash),
      Reached EventInit eventStep (fun s op => op.CachesDistinct s.1) s ∧
      s.1.kvEventQueue.length = 2 ∧
      ∀ key, replay (s.2 ++ s.1.kvEventQueue) key =
        (s.1.cachedBlockHashToBlock.stored key).length := by
  have hrun : (eventRun (fun s op => op.CachesDistinct s.1) [.getNewBlocks 2,
      .cacheFullBlocks (textRequest [1, 2, 3, 4, 5, 6, 7, 8]) [1, 2] 0 2 4 0 none,
      .evictBlocks [2]]).any (fun s => decide (s.1.kvEventQueue.length = 2)) = true := by
    decide +kernel
  obtain ⟨s, hs, hlen⟩ := Option.any_eq_true _ _ |>.1 hrun
  have hreached := reached_eventRun hs
  exact ⟨s, hreached, of_decide_eq_true hlen, (event_replay_eq_stored hreached).1⟩

end BlockPool

end Lvllm
