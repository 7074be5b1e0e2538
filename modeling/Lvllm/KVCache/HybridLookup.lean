import Lvllm.KVCache.LookupSound
import Lvllm.KVCache.HybridSearch

/-!
# The lookup of the coordinator

The hybrid coordinator looks the groups up one after another and shortens its candidate until all
groups accept it.  Its search keeps the hit of every group sound and at least as long as the
candidate, and after one pass the candidate is aligned and every group that takes part in prefix
caching has a hit.

`PrefixHit` is the result: what `get_computed_blocks` returns for a request in a given state.
-/

namespace Lvllm

open List Option Nat HybridCoordinator SingleTypeKVCacheManager

variable {H : Type}

namespace KVCacheManager

/-! ## Settings -/

/-- The settings that the constructors establish: `resolve_kv_cache_block_sizes` and the checks of
the hybrid coordinator. -/
structure ConfigOk (s : KVCacheManager H) : Prop where
  caching_eq : s.enableCaching = s.pool.enableCaching
  hash_dvd : s.enableCaching = true → ∀ m ∈ s.managers,
    m.spec.participatesInPrefixCaching = true → s.pool.hasher.hashBlockSize ∣ m.blockSize
  scheduler_dvd : ∀ m ∈ s.managers, m.spec.participatesInPrefixCaching = true →
    m.blockSize ∣ s.schedulerBlockSize
  scheduler_pos : 0 < s.schedulerBlockSize
  /-- Groups that need block-aligned lookups have blocks of one hash unit. -/
  partialHits : s.enablePartialHashHits = true → ∀ m ∈ s.managers,
    m.spec.participatesInPrefixCaching = true →
    m.spec.isFullAttention = true ∨ m.blockSize = s.pool.hasher.hashBlockSize
  cacheable : s.enableCaching = true → s.managers.length ≠ 1 →
    ∃ m ∈ s.managers, m.spec.participatesInPrefixCaching = true

variable {s : KVCacheManager H} {m : SingleTypeKVCacheManager}
  {g i n maxLen boundary uncached alignment hitLength : ℕ} {hits rows hits' : List (List ℕ)}
  {drop : Bool} {hashes : List H}

/-! ## The search -/

variable [DecidableEq H] {blocks : List ℕ} {ms : List SingleTypeKVCacheManager} {r : Request H}

/-- The hit of a group is sound: its blocks are at their positions, as many as its length takes,
and only groups that may skip blocks have null blocks. -/
structure GroupHit (s : KVCacheManager H) (alignmentTokens g : ℕ) (m : SingleTypeKVCacheManager)
    (blocks : List ℕ) (hitLength : ℕ) : Prop where
  manager : s.managers[g]? = some m
  aligned : hitLength % alignmentTokens = 0
  length_eq : blocks.length = cdiv hitLength m.blockSize
  whole : m.spec.isFullAttention = false → hitLength % m.blockSize = 0
  placed : ∀ (j b : ℕ), blocks[j]? = some b →
    (∃ key ∈ s.pool.keysOf b, KeyAt s.pool.hasher m.blockSize g j key) ∨
      m.spec.isFullAttention = false ∧ b = s.pool.nullBlock

/-- Each group of a sound lookup gets its column of the rows. -/
lemma groupHit_of_lookup {spec : KVCacheSpec} {groupIds : List ℕ}
    (hgroups : ∀ i ∈ groupIds, ∃ m, s.managers[i]? = some m ∧ m.spec = spec) {maxLength : ℕ}
    (h : LookupSound s.pool spec groupIds alignment maxLength drop rows hitLength)
    (hmem : (g, blocks) ∈ groupIds.zip (columnsOf groupIds.length rows)) :
    ∃ m, GroupHit s alignment g m blocks hitLength := by
  obtain ⟨c, hc⟩ := getElem?_of_mem hmem
  obtain ⟨hg, hcol⟩ := getElem?_zip_eq_some.1 hc
  obtain ⟨m, hm, hspec⟩ := hgroups g (mem_of_getElem? hg)
  have hrowLen : ∀ row ∈ rows, row.length = groupIds.length := by
    intro row hrow
    obtain ⟨j, hj⟩ := getElem?_of_mem hrow
    rcases h.row j row hj with hat | ⟨-, rfl⟩
    · exact hat.length_eq.symm
    · exact length_map _
  obtain ⟨col, hcol', hlen, hget⟩ := getElem?_columnsOf hrowLen (List.getElem?_eq_some_iff.1 hg).1
  obtain rfl : col = blocks := some.inj (hcol'.symm.trans hcol)
  refine ⟨m, hm, h.aligned, ?_, ?_, fun j b hj => ?_⟩
  · rw [hlen, h.length_eq, blockSize, hspec]
  · rw [blockSize, hspec]
    exact h.whole
  · rw [hget] at hj
    obtain ⟨row, hrow, hb⟩ := bind_eq_some_iff.1 hj
    rw [blockSize, hspec]
    rcases h.row j row hrow with hat | ⟨hfull, rfl⟩
    · have hc1 := (List.getElem?_eq_some_iff.1 hg)
      have hc2 := (List.getElem?_eq_some_iff.1 hb)
      have := hat.get hc1.1 hc2.1
      simp only [get_eq_getElem, hc1.2, hc2.2] at this
      exact .inl this
    · rw [getElem?_map, hg] at hb
      exact .inr ⟨hfull, (some.inj hb).symm⟩

omit [DecidableEq H] in
lemma manager_of_mem_groupIds {group : HybridSpecGroup}
    (hgroup : group ∈ s.toHybrid.attentionGroups) (hi : i ∈ group.groupIds) :
    ∃ m, s.managers[i]? = some m ∧ group.spec = .attention m.spec ∧
      m.spec.participatesInPrefixCaching = true := by
  obtain ⟨hget, hpart⟩ := (s.toHybrid.attentionGroups_cover.1 group hgroup).2 i hi
  change (s.managers.map _)[i]? = _ at hget
  rw [getElem?_map, map_eq_some_iff] at hget
  obtain ⟨m, hm, heq⟩ := hget
  obtain ⟨hspec, -⟩ : HybridSpec.attention m.spec = group.spec ∧ 0 = group.poolId := by
    simpa using heq
  rw [← hspec] at hpart
  exact ⟨m, hm, hspec.symm, hpart⟩

omit [DecidableEq H] in
/-- Some group takes part in prefix caching. -/
lemma ConfigOk.attentionGroups_ne_nil (h : s.ConfigOk) (hc : s.enableCaching = true)
    (hlen : s.managers.length ≠ 1) :
    s.toHybrid.attentionGroups ≠ [] := by
  obtain ⟨m, hm, hpart⟩ := h.cacheable hc hlen
  obtain ⟨i, hi⟩ := getElem?_of_mem hm
  obtain ⟨group, hgroup, -⟩ := s.toHybrid.attentionGroups_cover.2.2 i ⟨.attention m.spec, 0⟩
    (by change (s.managers.map _)[i]? = _; rw [getElem?_map, hi]; rfl) hpart
  exact ne_nil_of_mem hgroup

lemma lookupsGive_toHybrid (hconf : s.ConfigOk) (hc : s.enableCaching = true)
    (hindex : s.pool.IndexInv) (hchain : Chained s.pool.hasher hashes) (maxLen : ℕ) :
    s.toHybrid.LookupsGive hashes maxLen fun i blocks n =>
      ∃ m, GroupHit s s.toHybrid.cacheHitAlignmentTokens i m blocks n := by
  intro group hgroup maxLength drop rows n _ hlookup
  obtain ⟨hne, -⟩ := s.toHybrid.attentionGroups_cover.1 group hgroup
  obtain ⟨i0, hi0⟩ := exists_mem_of_ne_nil _ hne
  obtain ⟨m0, hm0, hspec0, hpart0⟩ := manager_of_mem_groupIds hgroup hi0
  have hmem0 : m0 ∈ s.managers := mem_of_getElem? hm0
  have hsize := le_of_dvd hconf.scheduler_pos (hconf.scheduler_dvd m0 hmem0 hpart0)
  unfold lookUp at hlookup
  rw [hspec0] at hlookup
  have hsound : LookupSound s.pool m0.spec group.groupIds s.toHybrid.cacheHitAlignmentTokens
      maxLength drop rows n := BlockPool.findLongestCacheHit_sound hindex hchain
    (fun hlt _ => alignment_eq_of_lt hsize hlt) hlookup
  refine ⟨dvd_of_mod_eq_zero hsound.aligned, hsound.le_maxLength, fun hdrop hpos => ?_,
    fun i blocks hmem => groupHit_of_lookup (fun i hi => ?_) hsound hmem⟩
  · rw [Bool.and_eq_true] at hdrop
    have hroom := hsound.le_of_drop hdrop.1 hpos
    have hmargin : s.toHybrid.eagleMargin group ≤
        min s.toHybrid.cacheHitAlignmentTokens group.spec.blockSize := by
      refine eagleMargin_le ?_ (hspec0 ▸ hsize) fun hp => ?_
      · rw [hspec0]
        exact le_of_dvd m0.blockSize_pos (hconf.hash_dvd hc m0 hmem0 hpart0)
      · rw [hspec0]
        refine (hconf.partialHits hp m0 hmem0 hpart0).imp (fun hfull => ?_) id
        simp [HybridSpec.supportsFineGrainedHashLookup, KVCacheSpec.supportsFineGrainedHashLookup, hfull]
    rw [hspec0] at hmargin
    exact (Nat.add_le_add_left hmargin n).trans hroom
  · obtain ⟨m, hm, hspec, -⟩ := manager_of_mem_groupIds hgroup hi
    exact ⟨m, hm, HybridSpec.attention.inj (hspec.symm.trans hspec0)⟩

omit [DecidableEq H] in
/-- What the hybrid lookup returns for each group, if single lookups give `Q`. -/
lemma hybridCacheHit_spec (hconf : s.ConfigOk) (hc : s.enableCaching = true)
    (hlen : s.managers.length ≠ 1) {Q : ℕ → List ℕ → ℕ → Prop}
    (hQ : s.toHybrid.LookupsGive hashes maxLen Q)
    (h : s.toHybrid.findLongestCacheHit hashes maxLen = .ok (hits, n, uncached)) :
    n % s.toHybrid.cacheHitAlignmentTokens = 0 ∧ ∀ (i : ℕ) m, s.managers[i]? = some m →
        HybridCoordinator.FinalHit Q ⟨.attention m.spec, 0⟩ i n (hits.getD i []) := by
  obtain ⟨-, haligned, hhits⟩ :=
    findLongestCacheHit_spec hQ (hconf.attentionGroups_ne_nil hc hlen) h
  refine ⟨mod_eq_zero_of_dvd haligned, fun i m hm => ?_⟩
  obtain ⟨bs, hbs, hfinal⟩ := hhits i ⟨.attention m.spec, 0⟩ (by
    change (s.managers.map _)[i]? = _
    rw [getElem?_map, hm]
    rfl)
  rw [getD_eq_getElem?_getD, hbs]
  exact hfinal

/-! ## The result of a lookup -/

/-- Hits of the groups that a request may start from, `numTokens` tokens long. -/
structure PrefixHit (p : BlockPool H) (ms : List SingleTypeKVCacheManager) (hits : List (List ℕ))
    (numTokens : ℕ) : Prop where
  /-- Each block is null, outside full attention, or has a key that names its position. -/
  placed : ∀ i m, ms[i]? = some m → ∀ (j b : ℕ), (hits.getD i [])[j]? = some b →
    (m.spec.isFullAttention = false ∧ b = p.nullBlock) ∨
      ∃ key ∈ p.keysOf b, KeyAt p.hasher m.blockSize i j key
  /-- Only full attention hits end inside a block, and then the last block is the partial one. -/
  ends : ∀ i m, ms[i]? = some m → hits.getD i [] ≠ [] → numTokens % m.blockSize ≠ 0 →
    m.spec.isFullAttention = true ∧ (hits.getD i []).length = numTokens / m.blockSize + 1 ∧
      ∀ b ∈ hits.getD i [], p.keysOf b ≠ []
  covers : ∀ (i : ℕ) (m : SingleTypeKVCacheManager), ms[i]? = some m →
    m.spec.participatesInPrefixCaching = true → numTokens ≤ (hits.getD i []).length * m.blockSize

lemma prefixHit_of_isEmpty {p : BlockPool H}
    (h : ∀ i, hits.getD i [] = []) : PrefixHit p ms hits 0 := by
  refine ⟨fun i m _ j b hj => ?_, fun i m _ hne => absurd (h i) hne, fun i m _ _ => zero_le _⟩
  rw [h i] at hj
  cases hj

omit [DecidableEq H] in
/-- An aligned length ends inside blocks of full attention groups only. -/
lemma ConfigOk.mod_blockSize (h : s.ConfigOk) (hm : m ∈ s.managers)
    (hpart : m.spec.participatesInPrefixCaching = true)
    (hn : n % s.toHybrid.cacheHitAlignmentTokens = 0) :
    m.spec.isFullAttention = true ∨ n % m.blockSize = 0 := by
  unfold HybridCoordinator.cacheHitAlignmentTokens at hn
  split at hn
  · rename_i hp
    rcases h.partialHits hp m hm hpart with hfull | heq
    · exact .inl hfull
    · exact .inr (heq ▸ hn)
  · refine .inr (mod_eq_zero_of_dvd ?_)
    exact (h.scheduler_dvd m hm hpart).trans (dvd_of_mod_eq_zero hn)

/-- The blocks of one group, cut to the final length. -/
lemma GroupHit.take (h : GroupHit s alignment g m blocks hitLength) (hn : n ≤ hitLength) :
    (blocks.take (cdiv n m.blockSize)).length = cdiv n m.blockSize ∧
      ∀ (j b : ℕ), (blocks.take (cdiv n m.blockSize))[j]? = some b → blocks[j]? = some b := by
  constructor
  · rw [length_take, h.length_eq]
    exact min_eq_left (cdiv_mono _ hn)
  · intro j b hj
    rw [getElem?_take, ite_none_right_eq_some] at hj
    exact hj.2

/-- The blocks of a group at the end: it has none, or they cover the length, and are blocks of a
sound hit. -/
lemma finalHit_cases (hm : s.managers[i]? = some m) {bs : List ℕ}
    (h : HybridCoordinator.FinalHit (fun i blocks n => ∃ m, GroupHit s alignment i m blocks n)
      ⟨.attention m.spec, 0⟩ i n bs) :
    (bs = [] ∧ m.spec.participatesInPrefixCaching = false) ∨
      m.spec.participatesInPrefixCaching = true ∧ bs.length = cdiv n m.blockSize ∧
        (m.spec.isFullAttention = false → n % m.blockSize = 0) ∧
        ∀ (j b : ℕ), bs[j]? = some b →
          (∃ key ∈ s.pool.keysOf b, KeyAt s.pool.hasher m.blockSize i j key) ∨
            m.spec.isFullAttention = false ∧ b = s.pool.nullBlock := by
  cases hpart : m.spec.participatesInPrefixCaching with
  | false => exact .inl ⟨h.1 hpart, rfl⟩
  | true =>
    obtain ⟨blocks, hitLength, ⟨m', hhit⟩, hle, hbs⟩ := h.2 hpart
    obtain rfl : m = m' := some.inj (hm.symm.trans hhit.manager)
    refine .inr ⟨rfl, ?_⟩
    rcases hbs with ⟨hfull, rfl⟩ | ⟨hfull, rfl, rfl⟩
    · refine ⟨(hhit.take hle).1, fun hnot => ?_,
        fun j b hj => hhit.placed j b ((hhit.take hle).2 j b hj)⟩
      exact absurd (hnot.symm.trans hfull) Bool.false_ne_true
    · exact ⟨hhit.length_eq, hhit.whole, hhit.placed⟩

/-- The hits outside full attention cover the hit length and no more.  Full attention is cut to the
final length; the other groups are not, but the search ends only when their last lookup agrees with
it. -/
def HitsExact (s : KVCacheManager H) (hits : List (List ℕ)) (n : ℕ) : Prop :=
  ∀ (i : ℕ) (m : SingleTypeKVCacheManager), s.managers[i]? = some m →
    m.spec.isFullAttention = false → (hits.getD i []).length * m.blockSize ≤ n

omit [DecidableEq H] in
lemma hitsExact_of_isEmpty (h : ∀ i, hits.getD i [] = []) (n : ℕ) : s.HitsExact hits n := by
  intro i m _ _
  rw [h i, length_nil, zero_mul]
  exact zero_le n

/-- The hit of a group outside full attention is whole blocks. -/
lemma GroupHit.length_mul_eq (h : GroupHit s alignment g m blocks hitLength)
    (hfull : m.spec.isFullAttention = false) :
    blocks.length * m.blockSize = hitLength := by
  obtain ⟨k, hk⟩ := dvd_of_mod_eq_zero (h.whole hfull)
  rw [h.length_eq, hk, mul_comm m.blockSize k, cdiv_mul_self m.blockSize_pos]

/-- The hybrid lookup returns hits that a request may start from. -/
lemma hybridCacheHit_sound (hconf : s.ConfigOk) (hc : s.enableCaching = true)
    (hlen : s.managers.length ≠ 1) (hindex : s.pool.IndexInv)
    (hchain : Chained s.pool.hasher hashes)
    (h : s.toHybrid.findLongestCacheHit hashes maxLen = .ok (hits, n, uncached)) :
    PrefixHit s.pool s.managers hits n ∧ s.HitsExact hits n := by
  obtain ⟨haligned, hfinal⟩ := hybridCacheHit_spec hconf hc hlen
    (lookupsGive_toHybrid hconf hc hindex hchain maxLen) h
  refine ⟨⟨fun i m hm j b hj => ?_, fun i m hm hne hmod => ?_, fun i m hm hpart => ?_⟩,
    fun i m hm hfull => ?_⟩
  · rcases finalHit_cases hm (hfinal i m hm) with ⟨hnil, -⟩ | ⟨-, -, -, hplaced⟩
    · rw [hnil] at hj
      cases hj
    · exact (hplaced j b hj).symm
  · rcases finalHit_cases hm (hfinal i m hm) with ⟨hnil, -⟩ | ⟨hpart, hblocks, -, hplaced⟩
    · exact absurd hnil hne
    · rcases hconf.mod_blockSize (mem_of_getElem? hm) hpart haligned with hfull | hmod'
      · refine ⟨hfull, hblocks.trans (cdiv_of_mod_ne_zero m.spec.blockSize_pos hmod),
          fun b hb => ?_⟩
        obtain ⟨j, hj⟩ := getElem?_of_mem hb
        rcases hplaced j b hj with ⟨key, hkey, -⟩ | ⟨hfull', -⟩
        · exact ne_nil_of_mem hkey
        · rw [hfull] at hfull'
          cases hfull'
      · exact absurd hmod' hmod
  · rcases finalHit_cases hm (hfinal i m hm) with ⟨-, hnot⟩ | ⟨-, hblocks, -⟩
    · exact absurd (hnot.symm.trans hpart) Bool.false_ne_true
    · rw [← cdiv_le_iff m.blockSize_pos]
      exact hblocks.ge
  · rcases finalHit_cases hm (hfinal i m hm) with ⟨hnil, -⟩ | ⟨-, hblocks, hwhole, -⟩
    · rw [hnil, length_nil, zero_mul]
      exact zero_le n
    · obtain ⟨k, hk⟩ := dvd_of_mod_eq_zero (hwhole hfull)
      rw [hblocks, hk, mul_comm m.blockSize k, cdiv_mul_self m.blockSize_pos]

/-- The hit of the only group is the first column of the rows. -/
lemma singleCacheHit_groupHit (hindex : s.pool.IndexInv) (hchain : Chained s.pool.hasher hashes)
    (hm : s.managers = [m])
    (h : s.pool.findLongestCacheHit hashes maxLen [0] m.spec drop m.blockSize = .ok (rows, n)) :
    GroupHit s m.blockSize 0 m ((columnsOf 1 rows).getD 0 []) n := by
  have hsound := BlockPool.findLongestCacheHit_sound hindex hchain
    (fun hlt => absurd hlt (lt_irrefl _)) h
  have hmem : (0, (columnsOf 1 rows).getD 0 []) ∈ [0].zip (columnsOf [0].length rows) := by
    simp [columnsOf]
  obtain ⟨m', hhit⟩ := groupHit_of_lookup (s := s)
    (fun i hi => ⟨m, by rw [mem_singleton.1 hi, hm]; rfl, rfl⟩) hsound hmem
  have hmanager := hhit.manager
  rw [hm] at hmanager
  obtain rfl : m = m' := some.inj hmanager
  exact hhit

omit [DecidableEq H] in
lemma eq_of_single {m₁ : SingleTypeKVCacheManager} (hm : s.managers = [m])
    (hi : s.managers[i]? = some m₁) : i = 0 ∧ m₁ = m := by
  rw [hm] at hi
  cases i with
  | zero => exact ⟨rfl, (some.inj hi).symm⟩
  | succ i => simp at hi

lemma singleCacheHit_sound (hindex : s.pool.IndexInv) (hchain : Chained s.pool.hasher hashes)
    (hm : s.managers = [m])
    (h : s.pool.findLongestCacheHit hashes maxLen [0] m.spec drop m.blockSize = .ok (rows, n)) :
    PrefixHit s.pool s.managers (columnsOf 1 rows) n ∧ s.HitsExact (columnsOf 1 rows) n := by
  have hhit := singleCacheHit_groupHit hindex hchain hm h
  refine ⟨⟨fun i m₁ hi j b hj => ?_, fun i m₁ hi _ hne => ?_, fun i m₁ hi _ => ?_⟩,
    fun i m₁ hi hfull => ?_⟩
  · obtain ⟨rfl, rfl⟩ := eq_of_single hm hi
    exact (hhit.placed j b hj).symm
  · obtain ⟨rfl, rfl⟩ := eq_of_single hm hi
    exact absurd hhit.aligned hne
  · obtain ⟨rfl, rfl⟩ := eq_of_single hm hi
    rw [← cdiv_le_iff m₁.blockSize_pos]
    exact hhit.length_eq.ge
  · obtain ⟨rfl, rfl⟩ := eq_of_single hm hi
    exact (hhit.length_mul_eq hfull).le

omit [DecidableEq H] in
/-- `get_computed_blocks` returns no hit, or that of a single group, or that of the hybrid
lookup. -/
lemma getComputedBlocks_cases (h : s.getComputedBlocks r = .ok (hits, n, boundary)) :
    (n = 0 ∧ ∀ i, hits.getD i [] = []) ∨ s.enableCaching = true ∧
        ((∃ m rows, s.managers = [m] ∧ hits = columnsOf 1 rows ∧
            s.pool.findLongestCacheHit r.blockHashes (r.numTokens - 1) [0] m.spec
              (s.eagleGroupIds.contains 0) m.blockSize = .ok (rows, n)) ∨
          s.managers.length ≠ 1 ∧ ∃ uncached, s.toHybrid.findLongestCacheHit r.blockHashes
              (r.numTokens - 1) = .ok (hits, n, uncached)) := by
  unfold getComputedBlocks at h
  split at h
  · rename_i hlookup
    have hc : s.enableCaching = true := by
      rw [prefixCacheLookupEnabled, Bool.and_eq_true] at hlookup
      exact hlookup.1
    obtain ⟨⟨blocks, numNew, numUncached⟩, hfind, h⟩ := except_bind_eq_ok.1 h
    obtain ⟨rfl, rfl, -⟩ := h
    unfold findLongestCacheHit at hfind
    rw [if_pos hc] at hfind
    refine .inr ⟨hc, ?_⟩
    split at hfind
    · rename_i m hm
      obtain ⟨⟨rows, hitLength⟩, hsingle, hfind⟩ := except_bind_eq_ok.1 hfind
      obtain ⟨rfl, rfl, -⟩ := hfind
      exact .inl ⟨m, rows, hm, rfl, hsingle⟩
    · rename_i hne
      refine .inr ⟨fun hlen => ?_, numUncached, hfind⟩
      obtain ⟨m, hm⟩ := length_eq_one_iff.1 hlen
      exact hne m hm
  · obtain ⟨rfl, rfl, -⟩ := h
    refine .inl ⟨rfl, fun i => ?_⟩
    rw [getD_eq_getElem?_getD, getElem?_map]
    cases s.managers[i]? <;> rfl

/-- `get_computed_blocks` returns hits that the request may start from. -/
lemma getComputedBlocks_sound (hconf : s.ConfigOk) (hindex : s.pool.IndexInv)
    (hr : r.HashesChained s.pool.hasher) (h : s.getComputedBlocks r = .ok (hits, n, boundary)) :
    PrefixHit s.pool s.managers hits n ∧ s.HitsExact hits n := by
  rcases getComputedBlocks_cases h with
    ⟨rfl, hempty⟩ | ⟨hc, ⟨m, rows, hm, rfl, hsingle⟩ | ⟨hlen, _, hhybrid⟩⟩
  · exact ⟨prefixHit_of_isEmpty hempty, hitsExact_of_isEmpty hempty 0⟩
  · exact singleCacheHit_sound hindex hr.chained hm hsingle
  · exact hybridCacheHit_sound hconf hc hlen hindex hr.chained hhybrid

omit [DecidableEq H] in
/-- What `truncate_computed_blocks` keeps of each group. -/
lemma truncateGroups_spec {hits hits' : List (List ℕ)}
    (h : truncateGroups n ms hits = .ok hits') {i : ℕ} (hm : ms[i]? = some m) :
    (hits'.getD i [] = [] ∧ m.spec.participatesInPrefixCaching = false) ∨
      n % m.blockSize = 0 ∧ n / m.blockSize ≤ (hits.getD i []).length ∧
        hits'.getD i [] = (hits.getD i []).take (n / m.blockSize) := by
  induction ms generalizing hits hits' i with
  | nil => simp at hm
  | cons m0 ms ih =>
    cases hits with
    | nil => cases h
    | cons blocks rest =>
      simp only [truncateGroups] at h
      cases hrest : truncateGroups n ms rest with
      | error e =>
        rw [hrest] at h
        split at h
        · split at h <;> cases h
        · split at h <;> cases h
      | ok rest' =>
        rw [hrest] at h
        split at h
        · split at h
          · rename_i hcut
            cases h
            cases i with
            | zero =>
              obtain rfl : m0 = m := by simpa using hm
              exact .inr ⟨hcut.1, hcut.2, rfl⟩
            | succ i => exact ih hrest (by simpa using hm)
          · cases h
        · rename_i hpart
          split at h
          · cases h
            cases i with
            | zero =>
              obtain rfl : m0 = m := by simpa using hm
              exact .inl ⟨rfl, by simpa using hpart⟩
            | succ i => exact ih hrest (by simpa using hm)
          · cases h

/-- A truncated lookup result is one the request may start from. -/
lemma PrefixHit.truncate {n' : ℕ} (hhit : PrefixHit s.pool s.managers hits n)
    (h : s.truncateComputedBlocks hits n' = .ok hits') :
    PrefixHit s.pool s.managers hits' n' := by
  refine ⟨fun i m hm j b hj => ?_, fun i m hm hne hmod => ?_, fun i m hm hpart => ?_⟩
  · rcases truncateGroups_spec h hm with ⟨hnil, -⟩ | ⟨-, -, htake⟩
    · rw [hnil] at hj
      cases hj
    · rw [htake, getElem?_take, ite_none_right_eq_some] at hj
      exact hhit.placed i m hm j b hj.2
  · rcases truncateGroups_spec h hm with ⟨hnil, -⟩ | ⟨hmod', -⟩
    · exact absurd hnil hne
    · exact absurd hmod' hmod
  · rcases truncateGroups_spec h hm with ⟨-, hnot⟩ | ⟨hmod, hlen, htake⟩
    · rw [hpart] at hnot
      cases hnot
    · rw [htake, length_take, Nat.min_eq_left hlen,
        Nat.div_mul_cancel (Nat.dvd_of_mod_eq_zero hmod)]

omit [DecidableEq H] in
/-- Hits that are cut to a length are exact at it. -/
lemma truncateComputedBlocks_exact (h : s.truncateComputedBlocks hits n = .ok hits') :
    s.HitsExact hits' n := by
  intro i m hm _
  rcases truncateGroups_spec h hm with ⟨hnil, -⟩ | ⟨-, -, htake⟩
  · rw [hnil, length_nil, zero_mul]
    exact zero_le n
  · rw [htake]
    exact (mul_le_mul_right _ (length_take_le _ _)).trans (div_mul_le_self _ _)

end KVCacheManager

end Lvllm
