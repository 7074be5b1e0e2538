import Lvllm.KVCache.KvRuns

/-!
# A hybrid hit is valid for every group

The lookups of full attention, of sliding windows and of Mamba groups return and serve what they
find, so the search of the coordinator returns, and what it leaves for each group serves the final
length.  `hybrid_hit_valid_for_every_group` says what follows: one length, aligned and not longer than asked
for, for which each group has its blocks and these hold what a computation from there on reads.
-/

namespace Lvllm

open List Nat

variable {H : Type} {groups : List KVCacheGroupSpec} {group : HybridSpecGroup}
  {g : KVCacheGroupSpec}

/-! ## What each kind of group reads -/

namespace HybridSpec

/-- Full attention, sliding windows and Mamba. -/
def Supported : HybridSpec → Prop
  | attention spec => spec.isFullAttention = true ∨
      ∃ window extra, spec.kind = .slidingWindow window extra
  | mamba _ _ => True

/-- A computation that starts at `n` reads token `t`: all tokens, those of the window, or the state
after the last one. -/
def Reads (spec : HybridSpec) (n t : ℕ) : Prop :=
  match spec with
  | attention spec =>
    match spec.kind with
    | .slidingWindow window _ => n ≤ t + ((window : ℕ) - 1)
    | _ => True
  | mamba _ _ => t + 1 = n

/-- The row holds what is read at `t`, cached under a hash of the request. -/
def Holds (spec : HybridSpec) (p : BlockPool H) (groupIds : List ℕ) (hashes : List H) (n t : ℕ)
    (row : List ℕ) : Prop :=
  match spec with
  | attention spec => p.RowServes groupIds hashes spec.blockSize t row
  | mamba _ _ => p.StateServes groupIds hashes n row

/-- The rows hold everything that is read in front of `n`. -/
def Serves (spec : HybridSpec) (p : BlockPool H) (groupIds : List ℕ) (hashes : List H)
    (rows : List (List ℕ)) (n : ℕ) : Prop :=
  ∀ t < n, spec.Reads n t → ∃ row, rows[t / spec.blockSize]? = some row ∧
    spec.Holds p groupIds hashes n t row

variable {p : BlockPool H} {groupIds : List ℕ} {hashes : List H}

/-- What a lookup drops at its end. -/
def droppedTokens (spec : HybridSpec) (drop : Bool) (alignmentTokens : ℕ) : ℕ :=
  if drop && !spec.isMamba then min alignmentTokens spec.blockSize else 0

variable {spec : HybridSpec} {row : List ℕ} {blocks : List ℕ}

/-- Every lookup returns and serves its hit. -/
lemma findLongestCacheHit_serves (hs : spec.Supported)
    (hdvd : p.hasher.hashBlockSize ∣ spec.blockSize) (groupIds : List ℕ)
    {alignmentTokens maxLength : ℕ}
    (hfine : alignmentTokens < spec.blockSize → spec.blockSize % alignmentTokens = 0 →
      alignmentTokens = p.hasher.hashBlockSize)
    (hcoarse : spec.supportsFineGrainedHashLookup = false → alignmentTokens % spec.blockSize = 0)
    (hcover : maxLength / p.hasher.hashBlockSize ≤ hashes.length) (drop : Bool) :
    ∃ rows n, spec.findLongestCacheHit p hashes maxLength groupIds drop alignmentTokens =
        .ok (rows, n) ∧ spec.Serves p groupIds hashes rows n ∧
      BlockPool.HitShape groupIds spec.blockSize alignmentTokens maxLength
        (spec.droppedTokens drop alignmentTokens) rows n := by
  cases spec with
  | mamba spec layout =>
    obtain ⟨rows, n, hhit, hserves, hshape⟩ :=
      BlockPool.mambaHit_serves spec.blockSize_pos hdvd groupIds hfine hcover
    refine ⟨rows, n, hhit, fun t ht hreads => ?_, by
      simpa [droppedTokens, isMamba, blockSize] using hshape⟩
    obtain rfl : t = n - 1 := by
      change t + 1 = n at hreads
      omega
    exact hserves (by omega)
  | attention spec =>
    have hdrop : (attention spec).droppedTokens drop alignmentTokens =
        if drop then min alignmentTokens spec.blockSize else 0 := by
      simp [droppedTokens, isMamba, blockSize]
    rw [hdrop]
    rcases hs with hfull | ⟨window, extra, hkind⟩
    · have hkind : spec.kind = .fullAttention := by
        unfold KVCacheSpec.isFullAttention at hfull
        split at hfull
        · assumption
        · cases hfull
      obtain ⟨rows, n, hhit, hserves, hshape⟩ := BlockPool.fullAttentionHit_serves
        spec.blockSize_pos hdvd hashes groupIds hfine maxLength drop
      refine ⟨rows, n, ?_, fun t ht _ => hserves t ht, hshape⟩
      simp only [findLongestCacheHit, BlockPool.findLongestCacheHit, hkind]
      exact hhit
    · have hmod := hcoarse (by
        simp [supportsFineGrainedHashLookup, KVCacheSpec.supportsFineGrainedHashLookup,
          KVCacheSpec.isFullAttention, hkind])
      obtain ⟨rows, n, hhit, hserves, hshape⟩ := BlockPool.slidingWindowHit_serves
        spec.blockSize_pos hdvd groupIds hmod hcover window drop
      refine ⟨rows, n, ?_, fun t ht hreads => hserves t ht ?_, hshape⟩
      · simp only [findLongestCacheHit, BlockPool.findLongestCacheHit, hkind]
        exact hhit
      · simpa only [Reads, hkind] using hreads

/-! ## One group of a lookup -/

/-- The blocks of group `i` hold everything that is read in front of `n`, and none of them is
null. -/
def GroupServes (spec : HybridSpec) (p : BlockPool H) (hashes : List H) (i : ℕ)
    (blocks : List ℕ) (n : ℕ) : Prop :=
  ∀ t < n, spec.Reads n t → ∃ b, blocks[t / spec.blockSize]? = some b ∧ b ≠ p.nullBlock ∧
    spec.Holds p [i] hashes n t [b]

/-- A group of a lookup finds its own block. -/
lemma getCachedBlock_single {hash : H} {k i b : ℕ}
    (h : p.getCachedBlock hash groupIds = some row) (hi : groupIds[k]? = some i)
    (hb : row[k]? = some b) : p.getCachedBlock hash [i] = some [b] := by
  induction groupIds generalizing row k with
  | nil => cases hi
  | cons g groupIds ih =>
    rw [BlockPool.getCachedBlock] at h
    cases hone : p.cachedBlockHashToBlock.getOneBlock ⟨hash, g⟩ with
    | none => simp [hone] at h
    | some b0 =>
      simp only [hone, Option.map_eq_some_iff] at h
      obtain ⟨rest, hrest, rfl⟩ := h
      cases k with
      | zero =>
        obtain rfl : g = i := by simpa using hi
        obtain rfl : b0 = b := by simpa using hb
        simp [BlockPool.getCachedBlock, hone]
      | succ k => exact ih hrest (by simpa using hi) (by simpa using hb)

lemma cachedUnder_single {idx : ℕ} {k i b : ℕ}
    (h : p.CachedUnder groupIds hashes idx row) (hi : groupIds[k]? = some i)
    (hb : row[k]? = some b) : p.CachedUnder [i] hashes idx [b] := by
  obtain ⟨hash, hhash, hrow⟩ := h
  exact ⟨hash, hhash, getCachedBlock_single hrow hi hb⟩

lemma Holds.single {n t : ℕ} {k i b : ℕ} (h : spec.Holds p groupIds hashes n t row)
    (hi : groupIds[k]? = some i) (hb : row[k]? = some b) : spec.Holds p [i] hashes n t [b] := by
  cases spec with
  | attention _ | mamba _ _ =>
    obtain ⟨idx, hcached, hrest⟩ := h
    exact ⟨idx, cachedUnder_single hcached hi hb, hrest⟩

lemma Holds.cached {n t i b : ℕ} (h : spec.Holds p [i] hashes n t [b]) :
    ∃ hash, p.getCachedBlock hash [i] = some [b] := by
  cases spec with
  | attention _ | mamba _ _ =>
    obtain ⟨idx, ⟨hash, -, hrow⟩, -⟩ := h
    exact ⟨hash, hrow⟩

/-- The null block is not in the prefix cache. -/
def NullUncached (p : BlockPool H) : Prop :=
  ∀ hash i, p.getCachedBlock hash [i] ≠ some [p.nullBlock]

/-- Each group of a lookup has its column. -/
lemma Serves.column {rows : List (List ℕ)} {n i : ℕ}
    (h : spec.Serves p groupIds hashes rows n) (hwidth : ∀ row ∈ rows, row.length = groupIds.length)
    (hnull : NullUncached p) (hmem : (i, blocks) ∈ groupIds.zip (columnsOf groupIds.length rows)) :
    blocks.length = rows.length ∧ spec.GroupServes p hashes i blocks n := by
  obtain ⟨k, hk⟩ := getElem?_of_mem hmem
  obtain ⟨hi, hcol⟩ := getElem?_zip_eq_some.1 hk
  obtain ⟨col, hcol', hlen, hget⟩ := getElem?_columnsOf hwidth (List.getElem?_eq_some_iff.1 hi).1
  obtain rfl : col = blocks := Option.some.inj (hcol'.symm.trans hcol)
  refine ⟨hlen, fun t ht hreads => ?_⟩
  obtain ⟨row, hrow, hholds⟩ := h t ht hreads
  have hk' : k < row.length := by
    rw [hwidth row (mem_of_getElem? hrow)]
    exact (List.getElem?_eq_some_iff.1 hi).1
  have hb := getElem?_eq_getElem hk'
  have hsingle := hholds.single hi hb
  refine ⟨row[k], by rw [hget, hrow]; exact hb, fun heq => ?_, hsingle⟩
  obtain ⟨hash, hcached⟩ := hsingle.cached
  exact hnull hash i (heq ▸ hcached)

/-- Full attention serves every shorter length. -/
lemma GroupServes.take {i n n' : ℕ} (h : spec.GroupServes p hashes i blocks n)
    (hfull : spec.isFullAttention = true) (hle : n' ≤ n) :
    spec.GroupServes p hashes i (blocks.take (cdiv n' spec.blockSize)) n' := by
  intro t ht _
  have hlt : t / spec.blockSize < cdiv n' spec.blockSize := by
    rw [div_lt_iff_lt_mul spec.blockSize_pos]
    exact ht.trans_le ((cdiv_le_iff spec.blockSize_pos).1 le_rfl)
  cases spec with
  | mamba spec layout => cases hfull
  | attention spec =>
    have hreads : (attention spec).Reads n t := by
      change spec.isFullAttention = true at hfull
      unfold Reads
      unfold KVCacheSpec.isFullAttention at hfull
      split at hfull
      · simp_all
      · cases hfull
    obtain ⟨b, hb, hne, hholds⟩ := h t (ht.trans_le hle) hreads
    exact ⟨b, by rw [getElem?_take_of_lt hlt, hb], hne, hholds⟩

end HybridSpec

namespace HybridCoordinator

/-! ## Settings -/

/-- The settings that the constructor establishes, over pools with its hash block size. -/
structure ConfigOk (c : HybridCoordinator H) : Prop where
  pools : ∀ poolId, (c.blockPools poolId).hasher.hashBlockSize = c.hashBlockSize
  hash_dvd : ∀ g ∈ c.kvCacheGroups, g.spec.participatesInPrefixCaching = true →
    c.hashBlockSize ∣ g.spec.blockSize
  scheduler_dvd : ∀ g ∈ c.kvCacheGroups, g.spec.blockSize ∣ c.schedulerBlockSize
  scheduler_pos : 0 < c.schedulerBlockSize
  partialHits : c.enablePartialHashHits = true → ∀ g ∈ c.kvCacheGroups,
    g.spec.participatesInPrefixCaching = true →
    g.spec.supportsFineGrainedHashLookup = true ∨ g.spec.blockSize = c.hashBlockSize
  cacheable : c.attentionGroups ≠ []

lemma lcmBlockSize_pos (groups : List KVCacheGroupSpec) : 0 < lcmBlockSize groups := by
  induction groups with
  | nil => exact one_pos
  | cons g groups ih => exact lcm_pos g.spec.blockSize_pos ih

lemma dvd_lcmBlockSize (h : g ∈ groups) : g.spec.blockSize ∣ lcmBlockSize groups := by
  induction groups with
  | nil => cases h
  | cons g' groups ih =>
    rcases mem_cons.1 h with rfl | hmem
    · exact Nat.dvd_lcm_left _ _
    · exact (ih hmem).trans (Nat.dvd_lcm_right _ _)

lemma init_eq_ok {eagleGroupIds : List ℕ} {hashBlockSize : ℕ}
    {blockPools : ℕ → BlockPool H} {c : HybridCoordinator H}
    (h : init groups eagleGroupIds hashBlockSize blockPools = .ok c)
    (hpools : ∀ poolId, (blockPools poolId).hasher.hashBlockSize = hashBlockSize) :
    c.ConfigOk ∧ c.kvCacheGroups = groups ∧ c.blockPools = blockPools ∧
      c.hashBlockSize = hashBlockSize := by
  unfold init at h
  dsimp only at h
  split at h
  · rename_i hcheck
    rw [Bool.and_eq_true, all_eq_true] at hcheck
    obtain ⟨hmod, hne⟩ := hcheck
    cases h
    refine ⟨⟨hpools, fun g hg hpart => ?_, fun g hg => dvd_lcmBlockSize hg, lcmBlockSize_pos groups,
      fun hpartial g hg hpart => ?_, by simpa using hne⟩, rfl, rfl, rfl⟩
    · have := hmod g hg
      rw [hpart] at this
      exact dvd_of_mod_eq_zero (by simpa using this)
    · unfold partialHashHits at hpartial
      rw [Bool.and_eq_true, all_eq_true] at hpartial
      have := hpartial.2 g hg
      rw [hpart] at this
      simpa using this
  · cases h

section Config

variable {c : HybridCoordinator H} {g : KVCacheGroupSpec}

/-- Groups that need block-aligned lookups have blocks that divide the alignment. -/
lemma ConfigOk.coarse (h : c.ConfigOk) (hg : g ∈ c.kvCacheGroups)
    (hpart : g.spec.participatesInPrefixCaching = true)
    (hcoarse : g.spec.supportsFineGrainedHashLookup = false) :
    c.cacheHitAlignmentTokens % g.spec.blockSize = 0 := by
  unfold cacheHitAlignmentTokens
  split
  · rename_i hpartial
    rcases h.partialHits hpartial g hg hpart with hfine | heq
    · rw [hcoarse] at hfine
      cases hfine
    · rw [heq, mod_self]
  · exact mod_eq_zero_of_dvd (h.scheduler_dvd g hg)

end Config

/-! ## Lookups -/

/-- The hit of a group: its blocks cover the length, which is aligned, and serve it. -/
def GroupHit (c : HybridCoordinator H) (hashes : List H) (i : ℕ) (blocks : List ℕ) (n : ℕ) : Prop :=
  ∃ g, c.kvCacheGroups[i]? = some g ∧ blocks.length = cdiv n g.spec.blockSize ∧
    c.cacheHitAlignmentTokens ∣ n ∧ g.spec.GroupServes (c.blockPools g.poolId) hashes i blocks n

/-- The assumptions of a lookup: settings, groups of the kinds considered, pools in which the null
block is not cached, and hashes that reach as far as the length asked for. -/
structure LookupOk (c : HybridCoordinator H) (hashes : List H) (maxLen : ℕ) : Prop where
  config : c.ConfigOk
  supported : ∀ g ∈ c.kvCacheGroups, g.spec.participatesInPrefixCaching = true → g.spec.Supported
  nullUncached : ∀ poolId, HybridSpec.NullUncached (c.blockPools poolId)
  covers : maxLen / c.hashBlockSize ≤ hashes.length

section Lookups

variable {c : HybridCoordinator H} {hashes : List H} {maxLen : ℕ}

/-- Each lookup of a spec group returns, and gives its groups hits. -/
lemma LookupOk.lookUp (h : c.LookupOk hashes maxLen)
    (hgroup : group ∈ c.attentionGroups) {maxLength : ℕ} (hle : maxLength ≤ maxLen) (drop : Bool) :
    ∃ rows n, c.lookUp hashes group maxLength drop = .ok (rows, n) ∧
      c.LookupGives (c.GroupHit hashes) group maxLength drop rows n := by
  obtain ⟨hmatch, -, -⟩ := c.attentionGroups_cover
  obtain ⟨hne, hids⟩ := hmatch group hgroup
  obtain ⟨i0, hi0⟩ := exists_mem_of_ne_nil _ hne
  obtain ⟨hget0, hpart⟩ := hids i0 hi0
  have hg := mem_of_getElem? hget0
  have hpool := h.config.pools group.poolId
  have hsize := le_of_dvd h.config.scheduler_pos (h.config.scheduler_dvd _ hg)
  obtain ⟨rows, n, hhit, hserves, hshape⟩ := HybridSpec.findLongestCacheHit_serves
    (h.supported _ hg hpart) (hpool ▸ h.config.hash_dvd _ hg hpart) group.groupIds
    (fun hlt _ => hpool ▸ alignment_eq_of_lt hsize hlt) (h.config.coarse hg hpart)
    (hpool ▸ (Nat.div_le_div_right hle).trans h.covers) drop
  refine ⟨rows, n, hhit, hshape.aligned, hshape.le_maxLength, fun hdrop hpos => ?_,
    fun i blocks hmem => ?_⟩
  · have hroom := hshape.le_of_drop hpos
    rw [HybridSpec.droppedTokens, if_pos hdrop] at hroom
    have hmargin := eagleMargin_le (le_of_dvd group.spec.blockSize_pos (h.config.hash_dvd _ hg hpart))
      hsize fun hp => h.config.partialHits hp _ hg hpart
    exact (Nat.add_le_add_left hmargin n).trans hroom
  · obtain ⟨hlen, hgroupServes⟩ := hserves.column hshape.width (h.nullUncached _) hmem
    exact ⟨_, (hids i (of_mem_zip hmem).1).1, hlen.trans hshape.length_eq, hshape.aligned,
      hgroupServes⟩

lemma LookupOk.lookupsReturn (h : c.LookupOk hashes maxLen) : c.LookupsReturn hashes maxLen := by
  intro group hgroup maxLength drop hle
  obtain ⟨rows, n, hhit, -⟩ := h.lookUp hgroup hle drop
  exact ⟨_, hhit⟩

lemma LookupOk.lookupsGive (h : c.LookupOk hashes maxLen) :
    c.LookupsGive hashes maxLen (c.GroupHit hashes) := by
  intro group hgroup maxLength drop rows n hle hhit
  obtain ⟨rows', n', hhit', hgives⟩ := h.lookUp hgroup hle drop
  rw [hhit, Except.ok.injEq, Prod.mk.injEq] at hhit'
  obtain ⟨rfl, rfl⟩ := hhit'
  exact hgives

/-- The blocks of a group at the end cover the length and serve it. -/
lemma FinalHit.serves {i L : ℕ} {bs : List ℕ}
    (h : FinalHit (c.GroupHit hashes) g i L bs) (hi : c.kvCacheGroups[i]? = some g)
    (hpart : g.spec.participatesInPrefixCaching = true) :
    bs.length = cdiv L g.spec.blockSize ∧
      g.spec.GroupServes (c.blockPools g.poolId) hashes i bs L := by
  obtain ⟨blocks, n, ⟨g', hg', hlen, -, hserves⟩, hle, hbs⟩ := h.2 hpart
  obtain rfl : g = g' := Option.some.inj (hi.symm.trans hg')
  rcases hbs with ⟨hfull, rfl⟩ | ⟨-, rfl, rfl⟩
  · refine ⟨?_, hserves.take hfull hle⟩
    rw [length_take, hlen]
    exact min_eq_left (cdiv_mono _ hle)
  · exact ⟨hlen, hserves⟩

end Lookups

/-! ## The result -/

/-- A hybrid lookup over full attention, sliding window and Mamba groups returns one aligned length,
not longer than asked for.  Each group that is cached gets the blocks of that length, and every
token that a computation starting there reads in the group is in a block that is not null and that
is cached under the request's hash at that position. -/
theorem hybrid_hit_valid_for_every_group (groups : List KVCacheGroupSpec) (eagleGroupIds : List ℕ)
    (hashBlockSize : ℕ) (blockPools : ℕ → BlockPool H) (c : HybridCoordinator H)
    (hinit : init groups eagleGroupIds hashBlockSize blockPools = .ok c)
    (hpools : ∀ poolId, (blockPools poolId).hasher.hashBlockSize = hashBlockSize ∧
      HybridSpec.NullUncached (blockPools poolId))
    (hsupported : ∀ g ∈ groups, g.spec.participatesInPrefixCaching = true → g.spec.Supported)
    (blockHashes : List H) (maxCacheHitLength : ℕ)
    (hcovers : maxCacheHitLength / hashBlockSize ≤ blockHashes.length) :
    ∃ blocks L uncached,
      c.findLongestCacheHit blockHashes maxCacheHitLength = .ok (blocks, L, uncached) ∧
      L ≤ maxCacheHitLength ∧ c.cacheHitAlignmentTokens ∣ L ∧
      ∀ (i : ℕ) (g : KVCacheGroupSpec), groups[i]? = some g →
        g.spec.participatesInPrefixCaching = true →
        ∃ bs : List ℕ, blocks[i]? = some bs ∧ bs.length = cdiv L g.spec.blockSize ∧
          g.spec.GroupServes (blockPools g.poolId) blockHashes i bs L := by
  obtain ⟨hconf, rfl, rfl, rfl⟩ := init_eq_ok hinit fun poolId => (hpools poolId).1
  have hok : c.LookupOk blockHashes maxCacheHitLength :=
    ⟨hconf, hsupported, fun poolId => (hpools poolId).2, hcovers⟩
  obtain ⟨blocks, L, uncached, hfind⟩ :=
    findLongestCacheHit_returns hok.lookupsReturn hok.lookupsGive
  obtain ⟨hle, haligned, hblocks⟩ := findLongestCacheHit_spec hok.lookupsGive hconf.cacheable hfind
  refine ⟨blocks, L, uncached, hfind, hle, haligned, fun i g hi hpart => ?_⟩
  obtain ⟨bs, hbs, hfinal⟩ := hblocks i g hi
  exact ⟨bs, hbs, hfinal.serves hi hpart⟩

/-- The null block is not cached in any pool that the KV cache manager works on. -/
lemma nullUncached_of_kvReachable [DecidableEq H] {s : KvState H} (hs : KvReachable s) :
    HybridSpec.NullUncached s.kv.pool := by
  obtain ⟨Q, hinv⟩ := hs.kvOk.inv
  intro hash i hrow
  refine BlockPool.nullBlock_not_mem_cachedRow hinv.free.index ?_ hrow (mem_singleton_self _)
  exact not_not.1 fun hne => (hinv.keyed _ hne).1 rfl

/-- Full attention, a sliding window of six tokens and a Mamba group, all with blocks of four. -/
def smallGroups : List KVCacheGroupSpec :=
  [⟨.attention { kind := .fullAttention, blockSize := 4, blockSize_pos := smallBlockSize_pos }, 0⟩,
    ⟨.attention { kind := .slidingWindow 6 0, blockSize := 4, blockSize_pos := smallBlockSize_pos },
      0⟩,
    ⟨.mamba { blockSize := 4, blockSize_pos := smallBlockSize_pos } 0, 0⟩]

lemma supported_smallGroups :
    ∀ g ∈ smallGroups, g.spec.participatesInPrefixCaching = true → g.spec.Supported := by
  intro g hg _
  simp only [smallGroups, mem_cons, not_mem_nil, or_false] at hg
  rcases hg with rfl | rfl | rfl
  · exact .inl rfl
  · exact .inr ⟨6, 0, rfl⟩
  · exact trivial

/-- Twelve tokens of a request are cached, and full attention drops a block for EAGLE: eight tokens are
a hit in three groups at once. -/
theorem hybrid_hit_of_eight_tokens :
    ∃ (pool : BlockPool FreeHash) (c : HybridCoordinator FreeHash) (hashes : List FreeHash),
      init smallGroups [0] 4 (fun _ => pool) = .ok c ∧ pool.hasher.hashBlockSize = 4 ∧
      HybridSpec.NullUncached pool ∧ 16 / 4 ≤ hashes.length ∧
      ∃ blocks uncached, c.findLongestCacheHit hashes 16 = .ok (blocks, 8, uncached) ∧
        c.cacheHitAlignmentTokens ∣ 8 ∧
        ∀ (i : ℕ) (g : KVCacheGroupSpec), smallGroups[i]? = some g →
          g.spec.participatesInPrefixCaching = true →
          ∃ bs : List ℕ, blocks[i]? = some bs ∧ bs.length = cdiv 8 g.spec.blockSize ∧
            g.spec.GroupServes pool hashes i bs 8 := by
  let tokens : List Token := [1, 2, 3, 4, 5, 6, 7, 8, 9, 10, 11, 12]
  let hashes := (namedRequest "b" (tokens ++ [13, 14, 15, 16, 17])).blockHashes
  let ops : List (KvOp FreeHash) := [.allocateSlots (namedRequest "a" tokens) (textContents tokens)
      { numNewTokens := 12, newComputedBlocks := [[], [], []] }]
  obtain ⟨s, hreach, hsize, c, hinit, hit, hhit, height⟩ := exists_reached_kv 16
    (smallKv [.fullAttention, .slidingWindow 6 0, .fullAttention]) (fun _ => kvInit_smallKv) ops
    (fun s op => op.Allowed s) (fun s => s.kv.pool.hasher.hashBlockSize = 4 ∧
      ∃ c, init smallGroups [0] 4 (fun _ => s.kv.pool) = .ok c ∧
        ∃ hit, c.findLongestCacheHit hashes 16 = .ok hit ∧ hit.2.1 = 8) (by decide +kernel)
  have hnull := nullUncached_of_kvReachable hreach
  obtain ⟨blocks, L, uncached, hfind, -, haligned, hserves⟩ :=
    hybrid_hit_valid_for_every_group smallGroups [0] 4 (fun _ => s.kv.pool) c hinit
      (fun _ => ⟨hsize, hnull⟩) supported_smallGroups hashes 16 (by decide +kernel)
  rw [hfind] at hhit
  cases hhit
  obtain rfl : L = 8 := height
  exact ⟨s.kv.pool, c, hashes, hinit, hsize, hnull, by decide +kernel, blocks, uncached, hfind,
    haligned, hserves⟩

/-- With fewer hashes than the length asked for, the lookup of a window raises. -/
theorem hybrid_hit_raises_without_hashes :
    ∃ (groups : List KVCacheGroupSpec) (pool : BlockPool FreeHash)
      (c : HybridCoordinator FreeHash), init groups [] 4 (fun _ => pool) = .ok c ∧
      pool.hasher.hashBlockSize = 4 ∧ HybridSpec.NullUncached pool ∧
      (∀ g ∈ groups, g.spec.participatesInPrefixCaching = true → g.spec.Supported) ∧
      c.findLongestCacheHit [] 4 = .error .indexError := by
  obtain ⟨pool, hpool⟩ : ∃ p, BlockPool.init 16 true freeHasher false = .ok p := ⟨_, rfl⟩
  have hnull : HybridSpec.NullUncached pool :=
    nullUncached_of_kvReachable (s := smallKv [.fullAttention] pool) (.init (kvInit_smallKv hpool))
  obtain ⟨c, hinit, hraise⟩ : ∃ c, init smallGroups.tail [] 4 (fun _ => pool) = .ok c ∧
      c.findLongestCacheHit [] 4 = .error .indexError := by
    cases hpool
    decide +kernel
  exact ⟨smallGroups.tail, pool, c, hinit, by cases hpool; rfl, hnull,
    fun g hg => supported_smallGroups g (mem_of_mem_tail hg), hraise⟩

/-! ## Lookups of each group by itself -/

/-- `find_longest_cache_hit_per_group` returns for no coordinator, hashes and length: there is a group
to look up, and what it is looked up with cannot be evaluated. -/
theorem per_group_lookup_never_returns (groups : List KVCacheGroupSpec) (eagleGroupIds : List ℕ)
    (hashBlockSize : ℕ) (blockPools : ℕ → BlockPool H) (c : HybridCoordinator H)
    (hinit : init groups eagleGroupIds hashBlockSize blockPools = .ok c) (blockHashes : List H)
    (maxCacheHitLength : ℕ) :
    c.findLongestCacheHitPerGroup blockHashes maxCacheHitLength = .error .nameError := by
  have hne : c.attentionGroups ≠ [] := by
    unfold init at hinit
    dsimp only at hinit
    split at hinit
    · rename_i hassert
      cases hinit
      simpa using (Bool.and_eq_true_iff.1 hassert).2
    · cases hinit
  obtain ⟨group, rest, hgroups⟩ := exists_cons_of_ne_nil hne
  rw [findLongestCacheHitPerGroup, hgroups, foldlM_cons]
  rfl

/-- In a model with three groups no lookup returns. -/
theorem per_group_lookup_of_three_groups :
    ∃ (pool : BlockPool FreeHash) (c : HybridCoordinator FreeHash),
      init smallGroups [] 4 (fun _ => pool) = .ok c ∧
      ∀ hashes n, c.findLongestCacheHitPerGroup hashes n = .error .nameError := by
  obtain ⟨pool, -⟩ : ∃ p, BlockPool.init 16 true freeHasher false = .ok p := ⟨_, rfl⟩
  exact ⟨pool, _, rfl, per_group_lookup_never_returns smallGroups [] 4 (fun _ => pool) _ rfl⟩

/-- With nothing to look up the common lookup returns an empty hit, and the lookup of each group by
itself raises. -/
theorem per_group_lookup_of_no_tokens_raises :
    ∃ (pool : BlockPool FreeHash) (c : HybridCoordinator FreeHash),
      BlockPool.init 16 true freeHasher false = .ok pool ∧
      init smallGroups [] 4 (fun _ => pool) = .ok c ∧
      c.findLongestCacheHit [] 0 = .ok ([[], [], []], 0, 0) ∧
      c.findLongestCacheHitPerGroup [] 0 = .error .nameError :=
  ⟨_, _, rfl, rfl, rfl, rfl⟩

end HybridCoordinator

end Lvllm
