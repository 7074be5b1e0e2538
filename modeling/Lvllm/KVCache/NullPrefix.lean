import Lvllm.KVCache.TableOps

/-!
# Null blocks come first

A group that skips blocks puts the null block in their place.  In its tables the null blocks form a
prefix: the walk of `_remove_blocks_in_range` goes down from the end of the skipped range and stops
at the first null block, so it misses no block that is still there.  Prefix hits have the same
shape, whichever lookup they come from.
-/

namespace Lvllm

open List Option SingleTypeKVCacheManager

variable {H : Type}

/-! ## Tables -/

/-- The first `k` entries of the table are null, and no others. -/
structure NullPrefix (nullBlock k : ℕ) (blocks : List ℕ) : Prop where
  le_length : k ≤ blocks.length
  eq_null_iff : ∀ (j b : ℕ), blocks[j]? = some b → (b = nullBlock ↔ j < k)

/-- The null entries of the table come first. -/
def NullsFirst (nullBlock : ℕ) (blocks : List ℕ) : Prop := ∃ k, NullPrefix nullBlock k blocks

/-- The number of entries that are not null. -/
def residentBlocks (nullBlock : ℕ) (blocks : List ℕ) : ℕ :=
  blocks.countP fun b => decide (b ≠ nullBlock)

section NullPrefix

variable {nullBlock k : ℕ} {blocks : List ℕ}

lemma nullPrefix_nil (nullBlock : ℕ) : NullPrefix nullBlock 0 [] := ⟨le_rfl, by simp⟩

lemma nullsFirst_nil (nullBlock : ℕ) : NullsFirst nullBlock [] := ⟨0, nullPrefix_nil nullBlock⟩

/-- The entries after the null ones are resident. -/
lemma NullPrefix.residentBlocks_eq (h : NullPrefix nullBlock k blocks) :
    residentBlocks nullBlock blocks = blocks.length - k := by
  have hnull : (blocks.take k).countP (fun b => decide (b ≠ nullBlock)) = 0 := by
    rw [countP_eq_zero]
    intro b hb
    obtain ⟨j, hj⟩ := getElem?_of_mem hb
    rw [getElem?_take, ite_none_right_eq_some] at hj
    simpa using (h.eq_null_iff j b hj.2).2 hj.1
  have hrest : (blocks.drop k).countP (fun b => decide (b ≠ nullBlock)) =
      (blocks.drop k).length := by
    rw [countP_eq_length]
    intro b hb
    obtain ⟨j, hj⟩ := getElem?_of_mem hb
    rw [getElem?_drop] at hj
    have := h.eq_null_iff (k + j) b hj
    simpa using fun heq => absurd (this.1 heq) (by omega)
  have hsplit := @countP_append _ (fun b => decide (b ≠ nullBlock)) (blocks.take k) (blocks.drop k)
  rw [take_append_drop, hnull, hrest, length_drop, Nat.zero_add] at hsplit
  exact hsplit

lemma NullPrefix.append (h : NullPrefix nullBlock k blocks) {new : List ℕ}
    (hnew : nullBlock ∉ new) : NullPrefix nullBlock k (blocks ++ new) := by
  refine ⟨h.le_length.trans (by simp), fun j b hj => ?_⟩
  rw [getElem?_append] at hj
  split at hj
  · exact h.eq_null_iff j b hj
  · rename_i hge
    have hb : b ≠ nullBlock := fun heq => hnew (heq ▸ mem_of_getElem? hj)
    have hk := h.le_length
    exact ⟨fun heq => absurd heq hb, fun hlt => absurd hlt (by omega)⟩

/-- A table of null blocks, with hits behind them whose first ones are dropped. -/
lemma NullPrefix.replicate_append_drop (h : NullPrefix nullBlock k blocks) (n : ℕ) :
    NullPrefix nullBlock (max n k) (List.replicate n nullBlock ++ blocks.drop n) := by
  have hk := h.le_length
  refine ⟨by rw [length_append, length_replicate, length_drop]; omega, fun j b hj => ?_⟩
  rw [getElem?_append, length_replicate] at hj
  split at hj
  · rename_i hlt
    obtain ⟨_, hb⟩ := List.getElem?_eq_some_iff.1 hj
    rw [getElem_replicate] at hb
    exact ⟨fun _ => lt_max_of_lt_left hlt, fun _ => hb.symm⟩
  · rename_i hge
    rw [getElem?_drop, show n + (j - n) = j by omega] at hj
    rw [h.eq_null_iff j b hj]
    omega

lemma NullsFirst.take (h : NullsFirst nullBlock blocks) (n : ℕ) :
    NullsFirst nullBlock (blocks.take n) := by
  obtain ⟨k, hk, hiff⟩ := h
  refine ⟨min k n, by rw [length_take]; omega, fun j b hj => ?_⟩
  rw [getElem?_take, ite_none_right_eq_some] at hj
  rw [hiff j b hj.2]
  omega

/-- The walk down from position `n` turns every block below it into a null block. -/
lemma NullPrefix.nullBlocksDownFrom (h : NullPrefix nullBlock k blocks) {n : ℕ}
    (hn : n ≤ blocks.length) :
    NullPrefix nullBlock (max k n)
      (SingleTypeKVCacheManager.nullBlocksDownFrom nullBlock n blocks).2 := by
  -- While the walk is at `i`, the null blocks are the first `k` and those from `i` to `n`.
  have hwalk : ∀ (i : ℕ) (bs : List ℕ), i ≤ n → n ≤ bs.length →
      (∀ (j b : ℕ), bs[j]? = some b → (b = nullBlock ↔ j < k ∨ i ≤ j ∧ j < n)) →
      ∀ (j b : ℕ), (SingleTypeKVCacheManager.nullBlocksDownFrom nullBlock i bs).2[j]? = some b →
        (b = nullBlock ↔ j < max k n) := by
    intro i
    induction i with
    | zero =>
      intro bs _ _ hbs j b hj
      rw [hbs j b hj]
      omega
    | succ i ih =>
      intro bs hi hlen hbs j b hj
      have hlt : i < bs.length := by omega
      have hget : bs[i]? = some bs[i] := getElem?_eq_getElem hlt
      simp only [SingleTypeKVCacheManager.nullBlocksDownFrom, hget] at hj
      split at hj
      · -- The walk stops at a null block, which is one of the first `k`.
        rename_i hnull
        have := (hbs i _ hget).1 hnull
        rw [hbs j b hj]
        omega
      · refine ih (bs.set i nullBlock) (by omega) (by rwa [length_set]) (fun j' b' hj' => ?_) j b hj
        by_cases hji : j' = i
        · subst hji
          rw [getElem?_set_self hlt] at hj'
          have hb' := (some.inj hj').symm
          exact ⟨fun _ => .inr ⟨le_rfl, by omega⟩, fun _ => hb'⟩
        · rw [getElem?_set_ne (Ne.symm hji)] at hj'
          rw [hbs j' b' hj']
          omega
  have hlen := (nullBlocksDownFrom_spec nullBlock n blocks).length_eq
  have hk := h.le_length
  refine ⟨by rw [hlen]; omega, hwalk n blocks le_rfl hn fun j b hj => ?_⟩
  rw [h.eq_null_iff j b hj]
  omega

/-- Each block that the walk frees was resident. -/
lemma residentBlocks_nullBlocksDownFrom (nullBlock n : ℕ) (blocks : List ℕ) :
    residentBlocks nullBlock (nullBlocksDownFrom nullBlock n blocks).2 +
      (nullBlocksDownFrom nullBlock n blocks).1.length =
      residentBlocks nullBlock blocks := by
  induction n generalizing blocks with
  | zero => rfl
  | succ i ih =>
    cases hget : blocks[i]? with
    | none => simp [nullBlocksDownFrom, hget]
    | some b =>
      obtain ⟨hlt, rfl⟩ := List.getElem?_eq_some_iff.1 hget
      by_cases hb : blocks[i] = nullBlock
      · simp [nullBlocksDownFrom, hget, hb]
      · simp only [nullBlocksDownFrom, hget, hb, if_false, length_cons]
        have hrest := ih (blocks.set i nullBlock)
        have hset : residentBlocks nullBlock (blocks.set i nullBlock) + 1 =
            residentBlocks nullBlock blocks := by
          have hpos : 0 < residentBlocks nullBlock blocks :=
            countP_pos_iff.2 ⟨blocks[i], getElem_mem hlt, by simpa using hb⟩
          unfold residentBlocks at hpos ⊢
          rw [countP_set hlt, if_pos (by simpa using hb), if_neg (by simp)]
          omega
        omega

end NullPrefix

/-! ## Lookups -/

namespace BlockPool

/-- The rows of a lookup: null rows first, then rows of cached blocks. -/
def NullRowsFirst (p : BlockPool H) (groupIds : List ℕ) (rows : List (List ℕ)) : Prop :=
  ∃ k, ∀ (j : ℕ) (row : List ℕ), rows[j]? = some row →
    (j < k → row = groupIds.map fun _ => p.nullBlock) ∧
      (k ≤ j → ∃ hash, p.getCachedBlock hash groupIds = some row)

variable {p : BlockPool H} {groupIds : List ℕ} {rows : List (List ℕ)}

lemma nullRowsFirst_nil : NullRowsFirst p groupIds [] := ⟨0, by simp⟩

variable {alignment hitLength maxLength : ℕ} {hashes : List H} {drop : Bool}

/-- Null rows in front of cached rows come first. -/
lemma WindowHit.nullRowsFirst {blockSize window maxRows lo : ℕ}
    (h : WindowHit p groupIds hashes blockSize window alignment drop maxRows lo rows) :
    NullRowsFirst p groupIds rows := by
  refine ⟨lo, fun j row hj => ⟨fun hlt => h.null j row hlt hj, fun hle => ?_⟩⟩
  obtain ⟨hash, -, hcached⟩ := h.cached j row hle hj
  exact ⟨hash, hcached⟩

/-- The null rows of a hit outside full attention come first. -/
lemma findLongestCacheHit_nullRowsFirst {spec : KVCacheSpec} (hfull : spec.isFullAttention = false)
    (h : p.findLongestCacheHit hashes maxLength groupIds spec drop alignment =
      .ok (rows, hitLength)) : NullRowsFirst p groupIds rows := by
  unfold findLongestCacheHit at h
  unfold KVCacheSpec.isFullAttention at hfull
  cases hkind : spec.kind with
  | fullAttention => simp [hkind] at hfull
  | slidingWindow window extra =>
    simp only [hkind] at h
    obtain ⟨-, lookup, lo, -, hrows⟩ := slidingWindowHit_windowHit spec.blockSize_pos h
    exact hrows.nullRowsFirst
  | chunkedLocalAttention chunk =>
    simp only [hkind] at h
    obtain ⟨-, lookup, -, hrows, -⟩ := chunkedLocalHit_windowHit spec.blockSize_pos h
    exact hrows.nullRowsFirst
  | circularBuffer | kpoolTail =>
    simp only [hkind] at h
    cases h
    exact nullRowsFirst_nil

/-- In the column of each group the null blocks come first, since no cached block is null. -/
lemma NullRowsFirst.column (h : NullRowsFirst p groupIds rows)
    (hcached : ∀ hash row, p.getCachedBlock hash groupIds = some row → p.nullBlock ∉ row)
    {g : ℕ} {blocks : List ℕ} (hmem : (g, blocks) ∈ groupIds.zip (columnsOf groupIds.length rows)) :
    NullsFirst p.nullBlock blocks := by
  obtain ⟨k, hk⟩ := h
  obtain ⟨c, hc⟩ := getElem?_of_mem hmem
  obtain ⟨hg, hcol⟩ := getElem?_zip_eq_some.1 hc
  have hrowLen : ∀ row ∈ rows, row.length = groupIds.length := by
    intro row hrow
    obtain ⟨j, hj⟩ := getElem?_of_mem hrow
    rcases Nat.lt_or_ge j k with hlt | hge
    · rw [(hk j row hj).1 hlt, length_map]
    · obtain ⟨hash, hhash⟩ := (hk j row hj).2 hge
      exact (getCachedBlock_stored hhash).length_eq.symm
  obtain ⟨col, hcol', hlen, hget⟩ := getElem?_columnsOf hrowLen (List.getElem?_eq_some_iff.1 hg).1
  obtain rfl : col = blocks := some.inj (hcol'.symm.trans hcol)
  refine ⟨min k rows.length, by omega, fun j b hj => ?_⟩
  have hjlt : j < rows.length := hlen ▸ (List.getElem?_eq_some_iff.1 hj).1
  rw [hget] at hj
  obtain ⟨row, hrow, hb⟩ := bind_eq_some_iff.1 hj
  rcases Nat.lt_or_ge j k with hlt | hge
  · rw [(hk j row hrow).1 hlt, getElem?_map, hg] at hb
    exact ⟨fun _ => lt_min hlt hjlt, fun _ => (some.inj hb).symm⟩
  · obtain ⟨hash, hhash⟩ := (hk j row hrow).2 hge
    have hne : b ≠ p.nullBlock := fun heq =>
      hcached hash row hhash (heq ▸ mem_of_getElem? hb)
    exact ⟨fun heq => absurd heq hne, fun hlt => absurd hlt (by omega)⟩

end BlockPool

namespace KVCacheManager

variable {s : KVCacheManager H} {hashes : List H}

/-- The hits of the groups outside full attention have their null blocks first. -/
def HitsNullFirst (s : KVCacheManager H) (hits : List (List ℕ)) : Prop :=
  ∀ (i : ℕ) (m : SingleTypeKVCacheManager), s.managers[i]? = some m →
    m.spec.isFullAttention = false → NullsFirst s.pool.nullBlock (hits.getD i [])

/-- `get_computed_blocks` returns hits with their null blocks first. -/
lemma getComputedBlocks_nullFirst [DecidableEq H] (hconf : s.ConfigOk) (hindex : s.pool.IndexInv)
    (hnull : s.pool.keysOf s.pool.nullBlock = []) {r : Request H}
    (hr : r.HashesChained s.pool.hasher) {hits : List (List ℕ)} {n boundary : ℕ}
    (h : s.getComputedBlocks r = .ok (hits, n, boundary)) : s.HitsNullFirst hits := by
  have hcached : ∀ groupIds hash row, s.pool.getCachedBlock hash groupIds = some row →
      s.pool.nullBlock ∉ row := fun _ _ _ hrow =>
    BlockPool.nullBlock_not_mem_cachedRow hindex hnull hrow
  rcases getComputedBlocks_cases h with
    ⟨-, hempty⟩ | ⟨hc, ⟨m0, rows, hms, rfl, hsingle⟩ | ⟨hlen, _, hhybrid⟩⟩
  · intro i m _ _
    rw [hempty i]
    exact nullsFirst_nil _
  · intro i m hm hfull
    obtain ⟨rfl, rfl⟩ := eq_of_single hms hm
    have hmem : (0, (columnsOf 1 rows).getD 0 []) ∈ [0].zip (columnsOf [0].length rows) := by
      simp [columnsOf]
    exact (BlockPool.findLongestCacheHit_nullRowsFirst hfull hsingle).column (hcached _) hmem
  · have hgive : s.toHybrid.LookupsGive r.blockHashes (r.numTokens - 1) fun i blocks _ =>
        ∀ m, s.managers[i]? = some m → m.spec.isFullAttention = false →
          NullsFirst s.pool.nullBlock blocks := by
      intro group hgroup maxLength drop rows n hle hlookup
      obtain ⟨haligned, hmax, hdrop, -⟩ := lookupsGive_toHybrid hconf hc hindex hr.chained _ group
        hgroup maxLength drop rows n hle hlookup
      refine ⟨haligned, hmax, hdrop, fun i blocks hmem m hm hfull => ?_⟩
      obtain ⟨m', hm', hspec, -⟩ := manager_of_mem_groupIds hgroup (of_mem_zip hmem).1
      obtain rfl : m = m' := some.inj (hm.symm.trans hm')
      unfold HybridCoordinator.lookUp at hlookup
      rw [hspec] at hlookup
      exact (BlockPool.findLongestCacheHit_nullRowsFirst hfull hlookup).column (hcached _) hmem
    obtain ⟨-, hfinal⟩ := hybridCacheHit_spec hconf hc hlen hgive hhybrid
    intro i m hm hfull
    cases hpart : m.spec.participatesInPrefixCaching with
    | false =>
      rw [(hfinal i m hm).1 hpart]
      exact nullsFirst_nil _
    | true =>
      obtain ⟨blocks, k, hQ, -, ⟨hfull', -⟩ | ⟨-, -, hbs⟩⟩ := (hfinal i m hm).2 hpart
      · exact absurd (hfull.symm.trans hfull') Bool.false_ne_true
      · rw [hbs]
        exact hQ m hm hfull

/-- Cutting hits leaves the null blocks first. -/
lemma HitsNullFirst.truncate {hits hits' : List (List ℕ)} {n : ℕ} (hhits : s.HitsNullFirst hits)
    (h : s.truncateComputedBlocks hits n = .ok hits') : s.HitsNullFirst hits' := by
  intro i m hm hfull
  rcases truncateGroups_spec h hm with ⟨hnil, -⟩ | ⟨-, -, htake⟩
  · rw [hnil]
    exact nullsFirst_nil _
  · rw [htake]
    exact (hhits i m hm hfull).take _

end KVCacheManager

end Lvllm
