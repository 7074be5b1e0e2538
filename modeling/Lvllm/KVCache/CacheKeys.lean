import Lvllm.KVCache.PoolEvents

/-!
# Which keys caching adds

`cache_full_blocks` and `cache_partial_block` take keys from blocks and give them new ones.
`NewKeys p₀ N p` says that every key of a block of `p` was there in `p₀` or is one that `N` allows.
The operations on hashes keep it however they end, so a caller reads off where a key can come
from: block `j` of the table, under the hash of block `j`.
-/

namespace Lvllm

open List

namespace BlockPool

variable {H : Type} {p p' p₀ : BlockPool H} {N : ℕ → BlockHashWithGroupId H → Prop}

/-- The index is consistent, the rest of the pool is that of `p₀`, and new keys satisfy `N`. -/
def NewKeys (p₀ : BlockPool H) (N : ℕ → BlockHashWithGroupId H → Prop) (p : BlockPool H) : Prop :=
  IndexAt p₀ p ∧ ∀ b, ∀ key ∈ p.keysOf b, key ∈ p₀.keysOf b ∨ N b key

lemma NewKeys.refl (h : p.IndexInv) : NewKeys p N p := ⟨⟨h, .refl p⟩, fun _ _ hkey => .inl hkey⟩

lemma NewKeys.addEvents (p : BlockPool H) (es : List (KVCacheEvent H)) (h : NewKeys p₀ N p) :
    NewKeys p₀ N { p with kvEventQueue := p.kvEventQueue ++ es } :=
  ⟨h.1.addEvents p es, h.2⟩

variable [DecidableEq H] {mask : Option (List Bool)} {blocks : List ℕ} {r : Request H}

lemma keeps_newKeys_removeCachedBlockHashes (b : ℕ) :
    Keeps (NewKeys p₀ N) (removeCachedBlockHashes b) := by
  intro p hp
  obtain ⟨p', hrun, hinv, hframe, -, -, hkeys, -⟩ := removeCachedBlockHashes_spec hp.1.1 b
  rw [hrun]
  refine ⟨⟨hinv, hp.1.2.trans hframe⟩, fun c key hkey => ?_⟩
  rw [hkeys] at hkey
  split at hkey
  · cases hkey
  · exact hp.2 c key hkey

lemma keeps_newKeys_insertBlockHash {key : BlockHashWithGroupId H} {b : ℕ} (hN : N b key)
    (n : Option ℕ) : Keeps (NewKeys p₀ N) (insertBlockHash key b n) := by
  intro p hp
  obtain ⟨p', hrun, hins⟩ := insertBlockHash_spec hp.1.1 key b n
  rw [hrun]
  refine ⟨⟨hins.inv, hp.1.2.trans hins.frame⟩, fun c k hk => ?_⟩
  rw [hins.keysOf_eq] at hk
  split at hk
  · rename_i hc
    obtain ⟨rfl, -⟩ := hc
    rcases mem_append.1 hk with hk | hk
    · exact hp.2 c k hk
    · exact .inr (mem_singleton.1 hk ▸ hN)
  · exact hp.2 c k hk

/-- The loop of `cache_full_blocks` gives the block at offset `k` the hash at offset `k`. -/
lemma keeps_newKeys_cacheFullBlocksLoop {hashes : List H} {nc bs g : ℕ} {i : ℕ}
    (hN : ∀ (k b : ℕ) (hash : H), blocks[k]? = some b → (p₀.blocks b).isNull = false →
      hashes[i + k]? = some hash → N b ⟨hash, g⟩) :
    Keeps (NewKeys p₀ N) (cacheFullBlocksLoop hashes nc bs g mask i blocks) := by
  induction blocks generalizing i with
  | nil => exact .pure _
  | cons b blocks ih =>
    have hrest := ih (i := i + 1) fun k c hash hk hnull hhash =>
      hN (k + 1) c hash hk hnull (by rwa [show i + (k + 1) = i + 1 + k by omega])
    refine .get_bind fun p hp => ?_
    by_cases hskip : ((p.blocks b).isNull || maskedOut mask i) = true
    · rw [if_pos hskip]
      exact hrest p hp
    · rw [if_neg hskip]
      have hnull : (p₀.blocks b).isNull = false := by
        rw [← hp.1.2.isNull_eq]
        by_contra h
        exact hskip (by simp [h])
      cases hhash : hashes[i]? with
      | none => exact hp
      | some hash =>
        have hkey : N b ⟨hash, g⟩ := hN 0 b hash rfl hnull hhash
        have hcode : Keeps (NewKeys p₀ N) (do
            promoteBlock b ((nc + i + 1) * bs)
            insertBlockHash ⟨hash, g⟩ b (some ((nc + i + 1) * bs))
            let newHashes ← cacheFullBlocksLoop hashes nc bs g mask (i + 1) blocks
            pure (hash :: newHashes) : PoolM H (List H)) :=
          .bind (keeps_promoteBlock NewKeys.addEvents
              keeps_newKeys_removeCachedBlockHashes b _) fun _ =>
            .bind (keeps_newKeys_insertBlockHash hkey _) fun _ => .bind hrest fun _ => .pure _
        exact hcode p hp

/-- `cache_full_blocks` caches block `j` of the table under the hash of block `j`. -/
lemma newKeys_cacheFullBlocks (hp : p.IndexInv) {nc nf bs g : ℕ}
    (hN : ∀ (j b : ℕ) (hash : H) (resolved : List H), nc ≤ j → j < nf → blocks[j]? = some b →
      (p.blocks b).isNull = false →
      resolveBlockHashes r.blockHashes p.hasher.hashBlockSize bs = .ok resolved →
      resolved[j]? = some hash → N b ⟨hash, g⟩)
    (hrun : cacheFullBlocks r blocks nc nf bs g mask p = .ok () p') : NewKeys p N p' := by
  unfold cacheFullBlocks at hrun
  split at hrun
  · cases hrun
    exact .refl hp
  · dsimp only at hrun
    split at hrun
    · rw [bind_get] at hrun
      obtain ⟨resolved, p1, hresolve, hcache⟩ := bind_eq_ok.1 hrun
      obtain ⟨hresolved, rfl⟩ := ofExcept_eq_ok.1 hresolve
      refine (Keeps.bind (keeps_newKeys_cacheFullBlocksLoop fun k b hash hk hnull hhash => ?_)
        fun newHashes => keeps_emitBlockStored NewKeys.addEvents r blocks nc nf bs g mask
          resolved newHashes).ok (NewKeys.refl hp) hcache
      rw [getElem?_drop, Nat.zero_add] at hhash
      rw [getElem?_drop, getElem?_take, Option.ite_none_right_eq_some] at hk
      exact hN (nc + k) b hash resolved (by omega) hk.1 hk.2 hnull hresolved hhash
    · cases hrun

/-- `cache_partial_block` caches the block under the hash that ends at `n` tokens. -/
lemma newKeys_cachePartialBlock (hp : p.IndexInv) {b n g bs : ℕ}
    {result : Option (BlockHashWithGroupId H)}
    (hN : ∀ hash, (p.blocks b).isNull = false → n % p.hasher.hashBlockSize = 0 →
      n / p.hasher.hashBlockSize ≠ 0 →
      r.blockHashes[n / p.hasher.hashBlockSize - 1]? = some hash → N b ⟨hash, g⟩)
    (hrun : cachePartialBlock r b n g bs p = .ok result p') : NewKeys p N p' := by
  unfold cachePartialBlock at hrun
  rw [bind_get] at hrun
  by_cases hnull : (p.blocks b).isNull = true
  · rw [if_pos hnull] at hrun
    cases hrun
    exact .refl hp
  rw [if_neg hnull] at hrun
  by_cases hassert : bs ≤ p.hasher.hashBlockSize ∨ bs % p.hasher.hashBlockSize ≠ 0 ∨ n % bs = 0
  · rw [if_pos hassert] at hrun
    cases hrun
  rw [if_neg hassert] at hrun
  obtain ⟨hash, p1, hhash, hrun⟩ := bind_eq_ok.1 hrun
  obtain ⟨hhash, rfl⟩ := ofExcept_eq_ok.1 hhash
  have hkey : N b ⟨hash, g⟩ := by
    unfold getPartialBlockHash at hhash
    dsimp only at hhash
    split at hhash
    · cases hhash
    · rename_i hmod
      split at hhash
      · cases hhash
      · rename_i hzero
        split at hhash
        · cases hhash
        · rename_i hget
          cases hhash
          exact hN hash (by simpa using hnull) (by simpa using hmod) hzero hget
  have hrest := fun k => keeps_insertAndEmit (I := NewKeys p1 N) NewKeys.addEvents
    (keeps_newKeys_insertBlockHash hkey k)
  refine Keeps.ok (.ite ?_ (hrest _ _ _)) (NewKeys.refl hp) hrun
  exact .bind (keeps_newKeys_removeCachedBlockHashes b) fun keys =>
    .bind (keeps_emitBlockRemovedEvents NewKeys.addEvents keys) fun _ => hrest _ _ _

lemma keeps_newKeys_evictBlocks (bs : List ℕ) : Keeps (NewKeys p₀ N) (evictBlocks bs) :=
  keeps_evictBlocks_of NewKeys.addEvents keeps_newKeys_removeCachedBlockHashes bs

omit [DecidableEq H] in
/-- Resetting the prefix cache removes every key. -/
lemma keeps_newKeys_resetPrefixCache : Keeps (NewKeys p₀ N) (resetPrefixCache : PoolM H Bool) := by
  refine .get_bind fun p hp => ?_
  by_cases hused : (p.numGpuBlocks : ℤ) - p.getNumFreeBlocks ≠ 1
  · rw [if_pos hused]
    exact hp
  · rw [if_neg hused]
    refine ⟨⟨.of_noHashes rfl (fun _ => rfl) (fun _ => rfl) (fun _ => rfl),
      hp.1.2.trans ⟨rfl, rfl, rfl, rfl, rfl, rfl, fun _ => rfl, fun _ => rfl⟩⟩,
      fun b key hkey => ?_⟩
    simp [keysOf, KVCacheBlock.resetHash] at hkey

end BlockPool

end Lvllm
