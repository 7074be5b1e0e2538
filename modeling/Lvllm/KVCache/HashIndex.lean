import Lvllm.KVCache.BlockPool

/-!
# Consistency of the hash index

The index from hash keys to blocks, the primary hash of each block and the set of its secondary
hashes are three views of one relation: which blocks are stored under which keys.  `IndexInv`
says that they agree.  It is kept by every operation of the pool, including operations that
raise, so it holds in every reachable pool.

Hashes are removed and added through two functions only, and each has one specification here:
`removeCachedBlockHashes_spec` and `insertBlockHash_spec`.
-/

namespace Lvllm

open List CachedBlocks BlockHashToBlockMap KVCacheBlock

variable {H : Type}

namespace BlockHashToBlockMap

/-- The blocks stored under a key, in order. -/
def stored (m : BlockHashToBlockMap H) (key : BlockHashWithGroupId H) : List ℕ :=
  match m.cache key with
  | none => []
  | some c => c.ids

@[simp] lemma stored_empty (key : BlockHashWithGroupId H) :
    ({} : BlockHashToBlockMap H).stored key = [] := rfl

/-- `get_one_block` returns the first block stored under the key. -/
lemma getOneBlock_eq (m : BlockHashToBlockMap H) (key : BlockHashWithGroupId H) :
    m.getOneBlock key = (m.stored key).head? := by
  unfold getOneBlock stored
  cases m.cache key with
  | none => rfl
  | some c => cases c <;> rfl

variable {m : BlockHashToBlockMap H} {key : BlockHashWithGroupId H}

/-- `contain` tests whether a block is stored under the key. -/
lemma contain_iff {b : ℕ} : m.contain key b = true ↔ b ∈ m.stored key := by
  unfold contain stored
  cases m.cache key with
  | none => simp
  | some c =>
    cases c with
    | one b' =>
      simp only [ids, mem_singleton, beq_iff_eq]
      exact eq_comm
    | many bs => simp [ids]

variable [DecidableEq H]

/-- `insert` adds a block at the end, unless it is there already. -/
lemma stored_insert (m : BlockHashToBlockMap H) (key key' : BlockHashWithGroupId H) (b : ℕ) :
    (m.insert key b).stored key' =
      if key' = key then (if b ∈ m.stored key then m.stored key else m.stored key ++ [b])
      else m.stored key' := by
  unfold insert stored
  by_cases hkey : key' = key
  · subst hkey
    cases m.cache key' with
    | none => simp [ids]
    | some c =>
      cases c with
      | one b' =>
        by_cases hb : b' = b
        · simp [ids, hb]
        · simp [ids, hb, Ne.symm hb]
      | many bs => by_cases hb : b ∈ bs <;> simp [ids, hb]
  · simp [hkey]

lemma stored_pop (m : BlockHashToBlockMap H) (key key' : BlockHashWithGroupId H) (b : ℕ) :
    (m.pop key b).2.stored key' = if key' = key then (m.stored key).erase b else m.stored key' := by
  unfold pop stored
  by_cases hkey : key' = key
  · subst hkey
    cases hc : m.cache key' with
    | none => simp [hc]
    | some c =>
      cases c with
      | one b' =>
        by_cases hb : b' = b
        · simp [ids, hb]
        · simp [ids, hb, hc, erase_of_not_mem, Ne.symm hb]
      | many bs =>
        by_cases hrest : bs.erase b = []
        · simp [ids, hrest]
        · simp [ids, hrest]
  · cases hc : m.cache key with
    | none => simp [hkey]
    | some c =>
      cases c with
      | one b' =>
        by_cases hb : b' = b
        · simp [hkey, hb]
        · simp [hkey, hb]
      | many bs => simp [hkey]

/-- `pop` returns the block if it was stored under the key. -/
lemma isSome_pop {b : ℕ} : (m.pop key b).1.isSome = true ↔ b ∈ m.stored key := by
  unfold pop stored
  cases m.cache key with
  | none => simp
  | some c =>
    cases c with
    | one b' =>
      by_cases hb : b' = b
      · simp [ids, hb]
      · simp [ids, hb, Ne.symm hb]
    | many bs => by_cases hb : b ∈ bs <;> simp [ids, hb]

/-- No key maps to an empty dictionary. -/
def NoEmptyDict (m : BlockHashToBlockMap H) : Prop :=
  ∀ key c, m.cache key = some c → c.ids ≠ []

omit [DecidableEq H] in
lemma noEmptyDict_empty : ({} : BlockHashToBlockMap H).NoEmptyDict := by
  intro key c h
  exact absurd h (by simp)

lemma NoEmptyDict.insert (h : m.NoEmptyDict) (key : BlockHashWithGroupId H) (b : ℕ) :
    (m.insert key b).NoEmptyDict := by
  intro key' c hc
  by_cases hkey : key' = key
  · subst hkey
    have hne : (m.insert key' b).stored key' ≠ [] := by
      rw [stored_insert, if_pos rfl]
      split
      · rename_i hb
        exact ne_nil_of_mem hb
      · simp
    rwa [stored, hc] at hne
  · refine h key' c ?_
    simpa [BlockHashToBlockMap.insert, hkey] using hc

lemma NoEmptyDict.pop (h : m.NoEmptyDict) (key : BlockHashWithGroupId H) (b : ℕ) :
    (m.pop key b).2.NoEmptyDict := by
  intro key' c hc
  unfold BlockHashToBlockMap.pop at hc
  cases hcache : m.cache key with
  | none => exact h key' c (by simpa [hcache] using hc)
  | some c' =>
    cases c' with
    | one b' =>
      by_cases hb : b' = b
      · by_cases hkey : key' = key
        · simp [hcache, hb, hkey] at hc
        · exact h key' c (by simpa [hcache, hb, hkey] using hc)
      · exact h key' c (by simpa [hcache, hb] using hc)
    | many bs =>
      by_cases hkey : key' = key
      · by_cases hrest : bs.erase b = []
        · simp [hcache, hkey, hrest] at hc
        · have hc' : some (many (bs.erase b)) = some c := by
            simpa [hcache, hkey, hrest] using hc
          obtain rfl := Option.some.inj hc'
          exact hrest
      · exact h key' c (by simpa [hcache, hkey] using hc)

end BlockHashToBlockMap

namespace BlockPool

variable {p p' : BlockPool H} {b : ℕ} {key : BlockHashWithGroupId H}

/-- The blocks stored under a key. -/
def stored (p : BlockPool H) (key : BlockHashWithGroupId H) : List ℕ :=
  p.cachedBlockHashToBlock.stored key

/-- What the operations on hashes leave unchanged: everything but the hashes of blocks, the
index and the events. -/
structure IndexFrame (p p' : BlockPool H) : Prop where
  numGpuBlocks_eq : p'.numGpuBlocks = p.numGpuBlocks
  enableCaching_eq : p'.enableCaching = p.enableCaching
  hasher_eq : p'.hasher = p.hasher
  freeBlockQueue_eq : p'.freeBlockQueue = p.freeBlockQueue
  nullBlock_eq : p'.nullBlock = p.nullBlock
  enableKvCacheEvents_eq : p'.enableKvCacheEvents = p.enableKvCacheEvents
  refCnt_eq : ∀ b, (p'.blocks b).refCnt = (p.blocks b).refCnt
  isNull_eq : ∀ b, (p'.blocks b).isNull = (p.blocks b).isNull

lemma IndexFrame.refl (p : BlockPool H) : IndexFrame p p :=
  ⟨rfl, rfl, rfl, rfl, rfl, rfl, fun _ => rfl, fun _ => rfl⟩

lemma IndexFrame.trans {p'' : BlockPool H} (h : IndexFrame p p') (h' : IndexFrame p' p'') :
    IndexFrame p p'' :=
  ⟨h'.1.trans h.1, h'.2.trans h.2, h'.3.trans h.3, h'.4.trans h.4, h'.5.trans h.5, h'.6.trans h.6,
    fun b => (h'.7 b).trans (h.7 b), fun b => (h'.8 b).trans (h.8 b)⟩

/-- The three views of the index agree. -/
structure IndexInv (p : BlockPool H) : Prop where
  /-- A block is stored under exactly its own keys. -/
  mem_stored_iff : ∀ key b, b ∈ p.stored key ↔ key ∈ p.keysOf b
  /-- A block without a primary key has no secondary keys. -/
  secondary_none : ∀ b, (p.blocks b).blockHash = none → p.cachedBlockHashesByBlock b = none
  /-- No key maps to an empty dictionary. -/
  noEmptyDict : p.cachedBlockHashToBlock.NoEmptyDict
  /-- No block is stored twice under a key. -/
  stored_nodup : ∀ key, (p.stored key).Nodup
  /-- The keys of a block are distinct. -/
  keysOf_nodup : ∀ b, (p.keysOf b).Nodup
  /-- A block without a primary key has no token count. -/
  numTokens_none : ∀ b, (p.blocks b).blockHash = none → (p.blocks b).blockHashNumTokens = none

/-- A block without a primary key has no keys at all. -/
lemma IndexInv.keysOf_eq_nil (h : p.IndexInv) (hb : (p.blocks b).blockHash = none) :
    p.keysOf b = [] := by
  simp [keysOf, hb, h.secondary_none b hb]

lemma IndexInv.not_mem_stored (h : p.IndexInv) (hb : p.keysOf b = [])
    (key : BlockHashWithGroupId H) : b ∉ p.stored key := by
  rw [h.mem_stored_iff, hb]
  exact not_mem_nil

variable [DecidableEq H]

/-! ## Removing the keys of a block -/

lemma popHashes_spec (b : ℕ) {keys : List (BlockHashWithGroupId H)} (hnd : keys.Nodup)
    (p : BlockPool H) :
    ∃ m, popHashes b keys p =
        .ok (keys.filter fun k => b ∈ p.stored k) { p with cachedBlockHashToBlock := m } ∧
      (∀ k, m.stored k = if k ∈ keys then (p.stored k).erase b else p.stored k) ∧
      (p.cachedBlockHashToBlock.NoEmptyDict → m.NoEmptyDict) := by
  induction keys generalizing p with
  | nil => exact ⟨p.cachedBlockHashToBlock, rfl, fun k => by simp [stored], id⟩
  | cons key keys ih =>
    obtain ⟨hkey, hnd⟩ := nodup_cons.1 hnd
    let p1 : BlockPool H :=
      { p with cachedBlockHashToBlock := (p.cachedBlockHashToBlock.pop key b).2 }
    obtain ⟨m, hrun, hstored, hdict⟩ := ih hnd p1
    have hp1 : ∀ k, p1.stored k = if k = key then (p.stored key).erase b else p.stored k :=
      fun k => stored_pop _ key k b
    have hfilter : (keys.filter fun k => b ∈ p1.stored k) =
        keys.filter fun k => b ∈ p.stored k := by
      refine filter_congr fun k hk => ?_
      rw [hp1, if_neg (by rintro rfl; exact hkey hk)]
    refine ⟨m, ?_, ?_, fun hne => hdict (hne.pop key b)⟩
    · have hpop : popHashes b (key :: keys) p =
          .ok (if (p.cachedBlockHashToBlock.pop key b).1.isSome then
            key :: keys.filter (fun k => b ∈ p1.stored k)
            else keys.filter fun k => b ∈ p1.stored k)
            { p1 with cachedBlockHashToBlock := m } := by
        simp only [popHashes, bind_apply, get_apply, set_apply]
        rw [show popHashes b keys { p with cachedBlockHashToBlock := _ } = _ from hrun]
        rfl
      rw [hpop, hfilter, filter_cons]
      simp only [isSome_pop, decide_eq_true_eq]
      rfl
    · intro k
      rw [hstored, hp1]
      by_cases hk : k = key
      · subst hk
        simp [hkey]
      · simp [hk]

/-- `_remove_cached_block_hashes` removes exactly the keys of the block, and returns them. -/
lemma removeCachedBlockHashes_spec (h : p.IndexInv) (b : ℕ) :
    ∃ p', removeCachedBlockHashes b p = .ok (p.keysOf b) p' ∧ p'.IndexInv ∧ p.IndexFrame p' ∧
      p'.kvEventQueue = p.kvEventQueue ∧
      p'.blocks = Function.update p.blocks b (p.blocks b).resetHash ∧
      (∀ c, p'.keysOf c = if c = b then [] else p.keysOf c) ∧
      ∀ k, p'.stored k = (p.stored k).erase b := by
  let p1 : BlockPool H :=
    { p with cachedBlockHashesByBlock := Function.update p.cachedBlockHashesByBlock b none }
  obtain ⟨m, hrun, hstored, hdict⟩ := popHashes_spec b (h.keysOf_nodup b) p1
  -- Every key of the block is found, and the block is under no other key.
  have hall : (p.keysOf b).filter (fun k => b ∈ p.stored k) = p.keysOf b := by
    refine filter_eq_self.2 fun k hk => ?_
    simpa using (h.mem_stored_iff k b).2 hk
  have herase : ∀ k, m.stored k = (p.stored k).erase b := by
    intro k
    rw [hstored]
    split
    · rfl
    · rename_i hk
      exact (erase_of_not_mem fun hb => hk ((h.mem_stored_iff k b).1 hb)).symm
  set p' : BlockPool H := { p1 with
      cachedBlockHashToBlock := m
      blocks := Function.update p.blocks b (p.blocks b).resetHash } with hp'
  have hrun' : removeCachedBlockHashes b p = .ok (p.keysOf b) p' := by
    by_cases hkeys : p.keysOf b = []
    · -- A block without keys is left as it is.
      have hb : (p.blocks b).blockHash = none := by
        cases hb : (p.blocks b).blockHash with
        | none => rfl
        | some k => simp [keysOf, hb] at hkeys
      have hreset : (p.blocks b).resetHash = p.blocks b := by
        rw [resetHash, ← hb, ← h.numTokens_none b hb]
      have hm : p1.cachedBlockHashToBlock = m := by
        rw [hkeys] at hrun
        have := (EStateM.Result.ok.inj hrun).2
        exact congrArg BlockPool.cachedBlockHashToBlock this
      have hp : p' = p1 := by
        rw [hp', hreset, Function.update_eq_self, ← hm]
      rw [hp, hkeys]
      simp [removeCachedBlockHashes, bind_apply, hkeys, p1]
    · simp only [removeCachedBlockHashes, bind_apply, get_apply, set_apply]
      rw [if_neg (by simpa using hkeys), bind_ok hrun, show
        ((p.keysOf b).filter fun k => b ∈ p1.stored k) = p.keysOf b from hall]
      rfl
  have hkeys' : ∀ c, p'.keysOf c = if c = b then [] else p.keysOf c := by
    intro c
    by_cases hc : c = b
    · simp [keysOf, hp', p1, hc, resetHash]
    · simp [keysOf, hp', p1, hc]
  refine ⟨p', hrun', ⟨?_, ?_, hdict h.noEmptyDict, ?_, ?_, ?_⟩, ⟨rfl, rfl, rfl, rfl, rfl, rfl, ?_, ?_⟩,
    rfl, rfl, hkeys', herase⟩
  · intro key c
    rw [hkeys', show p'.stored key = (p.stored key).erase b from herase key]
    by_cases hc : c = b
    · subst hc
      simp [(h.stored_nodup key).not_mem_erase]
    · rw [if_neg hc, mem_erase_of_ne hc]
      exact h.mem_stored_iff key c
  · intro c hc
    by_cases hcb : c = b
    · simp [hp', p1, hcb]
    · simp only [hp', p1, Function.update_of_ne hcb] at hc ⊢
      exact h.secondary_none c hc
  · intro key
    rw [show p'.stored key = (p.stored key).erase b from herase key]
    exact (h.stored_nodup key).erase b
  · intro c
    rw [hkeys']
    split
    · exact nodup_nil
    · exact h.keysOf_nodup c
  · intro c hc
    by_cases hcb : c = b
    · simp [hp', hcb, resetHash]
    · simp only [hp', Function.update_of_ne hcb] at hc ⊢
      exact h.numTokens_none c hc
  · intro c
    by_cases hcb : c = b
    · simp [hp', hcb, resetHash]
    · simp [hp', hcb]
  · intro c
    by_cases hcb : c = b
    · simp [hp', hcb, resetHash]
    · simp [hp', hcb]

/-! ## Adding a key to a block -/

/-- A pool that differs by one new key of one block satisfies the invariant again. -/
lemma IndexInv.of_newKey (h : p.IndexInv) (hkey : key ∉ p.keysOf b)
    (hkeys : ∀ c, p'.keysOf c = if c = b then p.keysOf b ++ [key] else p.keysOf c)
    (hstored : ∀ k, p'.stored k = if k = key then p.stored key ++ [b] else p.stored k)
    (hdict : p'.cachedBlockHashToBlock.NoEmptyDict) (hprimary : (p'.blocks b).blockHash ≠ none)
    (hother : ∀ c ≠ b, p'.blocks c = p.blocks c ∧
      p'.cachedBlockHashesByBlock c = p.cachedBlockHashesByBlock c) : p'.IndexInv := by
  have hb : b ∉ p.stored key := fun hb => hkey ((h.mem_stored_iff key b).1 hb)
  refine ⟨?_, ?_, hdict, ?_, ?_, ?_⟩
  · intro k c
    rw [hkeys, hstored]
    by_cases hk : k = key <;> by_cases hc : c = b
    · simp [hk, hc]
    · rw [if_pos hk, if_neg hc, hk, mem_append, mem_singleton, h.mem_stored_iff]
      simp [hc]
    · rw [if_neg hk, if_pos hc, hc, mem_append, mem_singleton, h.mem_stored_iff]
      simp [hk]
    · rw [if_neg hk, if_neg hc]
      exact h.mem_stored_iff k c
  · intro c hc
    by_cases hcb : c = b
    · exact absurd (hcb ▸ hc) hprimary
    · rw [(hother c hcb).1] at hc
      rw [(hother c hcb).2]
      exact h.secondary_none c hc
  · intro k
    rw [hstored]
    split
    · exact nodup_append.2 ⟨h.stored_nodup key, by simp, fun x hx y hy => by
        rw [mem_singleton.1 hy]
        rintro rfl
        exact hb hx⟩
    · exact h.stored_nodup k
  · intro c
    rw [hkeys]
    split
    · exact nodup_append.2 ⟨h.keysOf_nodup b, by simp, fun x hx y hy => by
        rw [mem_singleton.1 hy]
        rintro rfl
        exact hkey hx⟩
    · exact h.keysOf_nodup c
  · intro c hc
    by_cases hcb : c = b
    · exact absurd (hcb ▸ hc) hprimary
    · rw [(hother c hcb).1] at hc ⊢
      exact h.numTokens_none c hc

/-- What `insertBlockHash` makes of a pool: the new key of `b`, if it is new, becomes its primary
key or a secondary one, and `b` is stored under it. -/
structure Inserted (key : BlockHashWithGroupId H) (b : ℕ) (p p' : BlockPool H) : Prop where
  inv : p'.IndexInv
  frame : p.IndexFrame p'
  events : p'.kvEventQueue = p.kvEventQueue
  blocks_of_ne : ∀ c ≠ b, p'.blocks c = p.blocks c
  keysOf_eq : ∀ c, p'.keysOf c =
    if c = b ∧ key ∉ p.keysOf b then p.keysOf b ++ [key] else p.keysOf c
  stored_eq : ∀ k, p'.stored k =
    if k = key ∧ b ∉ p.stored key then p.stored key ++ [b] else p.stored k

/-- A new key stores the block once more. -/
lemma Inserted.stored_new {key : BlockHashWithGroupId H} (h : Inserted key b p p')
    (hnew : b ∉ p.stored key) (k : BlockHashWithGroupId H) :
    p'.stored k = p.stored k ++ if k = key then [b] else [] := by
  rw [h.stored_eq]
  by_cases hk : k = key
  · subst hk
    simp [hnew]
  · simp [hk]

/-- `_insert_block_hash` adds the key to the block unless the block has it already. -/
lemma insertBlockHash_spec (h : p.IndexInv) (key : BlockHashWithGroupId H) (b : ℕ)
    (numTokens : Option ℕ) :
    ∃ p', insertBlockHash key b numTokens p = .ok () p' ∧ Inserted key b p p' := by
  by_cases hkey : key ∈ p.keysOf b
  · -- The key is there already.
    have hmem := (h.mem_stored_iff key b).2 hkey
    have hcontain : p.cachedBlockHashToBlock.contain key b = true := contain_iff.2 hmem
    refine ⟨p, ?_, ⟨h, .refl p, rfl, fun _ _ => rfl, fun c => by simp [hkey], fun k => by
      simp [hmem]⟩⟩
    simp [insertBlockHash, bind_apply, hcontain]
  · have hmem : b ∉ p.stored key := fun hb => hkey ((h.mem_stored_iff key b).1 hb)
    have hcontain : p.cachedBlockHashToBlock.contain key b = false := by
      rw [← Bool.not_eq_true, contain_iff]
      exact hmem
    have hne : (p.blocks b).blockHash ≠ some key := fun hb => hkey (by simp [keysOf, hb])
    have hstored : ∀ k, (p.cachedBlockHashToBlock.insert key b).stored k =
        if k = key then p.stored key ++ [b] else p.stored k := by
      intro k
      rw [stored_insert]
      split
      · exact if_neg hmem
      · rfl
    have hdict := h.noEmptyDict.insert key b
    cases hprimary : (p.blocks b).blockHash with
    | none =>
      set p' : BlockPool H := { p.setBlock b { p.blocks b with
            blockHash := some key, blockHashNumTokens := numTokens } with
          cachedBlockHashToBlock := p.cachedBlockHashToBlock.insert key b } with hp'
      have hkeys : ∀ c, p'.keysOf c = if c = b then p.keysOf b ++ [key] else p.keysOf c := by
        intro c
        by_cases hc : c = b
        · simp [keysOf, hp', setBlock, hc, hprimary, h.secondary_none b hprimary]
        · simp [keysOf, hp', setBlock, hc]
      have hother : ∀ c ≠ b, p'.blocks c = p.blocks c ∧
          p'.cachedBlockHashesByBlock c = p.cachedBlockHashesByBlock c := by
        intro c hc
        simp [hp', setBlock, hc]
      refine ⟨p', ?_, ⟨h.of_newKey hkey hkeys hstored hdict (by simp [hp', setBlock]) hother,
        ⟨rfl, rfl, rfl, rfl, rfl, rfl, ?_, ?_⟩, rfl, fun c hc => (hother c hc).1, ?_, ?_⟩⟩
      · simp [insertBlockHash, bind_apply, hprimary, hcontain, setBlockHash,
          h.numTokens_none b hprimary, hp', setBlock]
      · intro c
        by_cases hc : c = b <;> simp [hp', setBlock, hc]
      · intro c
        by_cases hc : c = b <;> simp [hp', setBlock, hc]
      · simp [hkeys, hkey]
      · intro k
        simp only [hmem, not_false_eq_true, and_true]
        exact hstored k
    | some key0 =>
      set p' : BlockPool H := { p.addSecondaryHash b key with
          cachedBlockHashToBlock := p.cachedBlockHashToBlock.insert key b } with hp'
      have hnew : key ∉ (p.cachedBlockHashesByBlock b).getD [] := fun hk =>
        hkey (by simp [keysOf, hk])
      have hkeys : ∀ c, p'.keysOf c = if c = b then p.keysOf b ++ [key] else p.keysOf c := by
        intro c
        by_cases hc : c = b
        · simp [keysOf, hp', addSecondaryHash, hc, hnew]
        · simp [keysOf, hp', addSecondaryHash, hc]
      have hother : ∀ c ≠ b, p'.blocks c = p.blocks c ∧
          p'.cachedBlockHashesByBlock c = p.cachedBlockHashesByBlock c := by
        intro c hc
        simp [hp', addSecondaryHash, hc]
      refine ⟨p', ?_, ⟨h.of_newKey hkey hkeys hstored hdict (by simp [hp', addSecondaryHash, hprimary])
        hother, ⟨rfl, rfl, rfl, rfl, rfl, rfl, fun _ => rfl, fun _ => rfl⟩, rfl,
        fun c hc => (hother c hc).1, ?_, ?_⟩⟩
      · have hne' : ¬ key0 = key := by
          rintro rfl
          exact hne hprimary
        simp [insertBlockHash, bind_apply, hprimary, hcontain, hne', hp', addSecondaryHash]
      · simp [hkeys, hkey]
      · intro k
        simp only [hmem, not_false_eq_true, and_true]
        exact hstored k

end BlockPool

end Lvllm
