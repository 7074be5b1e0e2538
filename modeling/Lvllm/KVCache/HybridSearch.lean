import Lvllm.KVCache.HybridCoordinator

/-!
# The search of the hybrid coordinator

Each round of the hybrid lookup shortens the candidate to what one spec group can serve.  The loop
ends when a whole pass accepts the candidate.  Then every group outside full attention has just been
looked up with that length, and full attention, which can serve any shorter length, is cut to it.

The search is followed for any property `Q` that single lookups give the blocks of their groups:
`findLongestCacheHit_spec` is what it returns, and `findLongestCacheHit_returns` says that it returns
if the single lookups do.
-/

namespace Lvllm

open List Option Nat

variable {H : Type} {groups : List HybridSpecGroup}

/-! ## The spec groups -/

namespace HybridCoordinator

section Alignment

variable {c : HybridCoordinator H} {group : HybridSpecGroup}

/-- A hit that may end inside a block ends at a hash unit. -/
lemma alignment_eq_of_lt {size : ℕ} (hle : size ≤ c.schedulerBlockSize)
    (hlt : c.cacheHitAlignmentTokens < size) : c.cacheHitAlignmentTokens = c.hashBlockSize := by
  unfold cacheHitAlignmentTokens at hlt ⊢
  split
  · rfl
  · rename_i hpartial
    rw [if_neg hpartial] at hlt
    omega

/-- A lookup that drops its end asks for no more than what it drops. -/
lemma eagleMargin_le (hhash : c.hashBlockSize ≤ group.spec.blockSize)
    (hle : group.spec.blockSize ≤ c.schedulerBlockSize)
    (hunits : c.enablePartialHashHits = true → group.spec.supportsFineGrainedHashLookup = true ∨
      group.spec.blockSize = c.hashBlockSize) :
    c.eagleMargin group ≤ min c.cacheHitAlignmentTokens group.spec.blockSize := by
  unfold eagleMargin cacheHitAlignmentTokens
  by_cases hp : c.enablePartialHashHits = true
  · rw [if_pos hp, min_eq_left hhash]
    split
    · exact le_rfl
    · rename_i hnot
      rcases hunits hp with hfine | heq
      · simpa [hp, hfine] using hnot
      · exact heq.le
  · rw [if_neg hp, min_eq_right hle, if_neg]
    simp [hp]

end Alignment

/-- A spec group has groups, and all of them have its spec and pool. -/
def GroupsMatch (all : List KVCacheGroupSpec) (groups : List HybridSpecGroup) : Prop :=
  ∀ group ∈ groups, group.groupIds ≠ [] ∧ ∀ i ∈ group.groupIds,
    all[i]? = some ⟨group.spec, group.poolId⟩ ∧ group.spec.participatesInPrefixCaching = true

/-- No two spec groups have one spec and one pool. -/
def GroupsDiffer (groups : List HybridSpecGroup) : Prop :=
  groups.Pairwise fun group group' => ¬ (group.spec = group'.spec ∧ group.poolId = group'.poolId)

section Add

variable {all : List KVCacheGroupSpec} {groups : List HybridSpecGroup} {g : KVCacheGroupSpec}
  {i : ℕ} {eagle : Bool}

/-- What is in the spec groups after a group is added. -/
lemma mem_addToAttentionGroups {group : HybridSpecGroup}
    (h : group ∈ addToAttentionGroups g i eagle groups) :
    (∃ old ∈ groups, group.spec = old.spec ∧ group.poolId = old.poolId ∧
        (group.groupIds = old.groupIds ∨ group.groupIds = old.groupIds ++ [i] ∧
          old.spec = g.spec ∧ old.poolId = g.poolId)) ∨
      group.spec = g.spec ∧ group.poolId = g.poolId ∧ group.groupIds = [i] := by
  induction groups with
  | nil =>
    rw [addToAttentionGroups, mem_singleton] at h
    subst h
    exact .inr ⟨rfl, rfl, rfl⟩
  | cons old groups ih =>
    unfold addToAttentionGroups at h
    split at h
    · rename_i heq
      rcases mem_cons.1 h with rfl | hmem
      · exact .inl ⟨old, mem_cons_self, rfl, rfl, .inr ⟨rfl, heq⟩⟩
      · exact .inl ⟨group, mem_cons_of_mem _ hmem, rfl, rfl, .inl rfl⟩
    · rcases mem_cons.1 h with rfl | hmem
      · exact .inl ⟨group, mem_cons_self, rfl, rfl, .inl rfl⟩
      · rcases ih hmem with ⟨old', hold', hrest⟩ | hnew
        · exact .inl ⟨old', mem_cons_of_mem _ hold', hrest⟩
        · exact .inr hnew

lemma GroupsMatch.add (h : GroupsMatch all groups) (hi : all[i]? = some g)
    (hpart : g.spec.participatesInPrefixCaching = true) :
    GroupsMatch all (addToAttentionGroups g i eagle groups) := by
  intro group hgroup
  rcases mem_addToAttentionGroups hgroup with ⟨old, hold, hspec, hpool, hids⟩ | ⟨hspec, hpool, hids⟩
  · rw [hspec, hpool]
    rcases hids with hids | ⟨hids, heq, heq'⟩
    · rw [hids]
      exact h old hold
    · refine ⟨by simp [hids], fun j hj => ?_⟩
      rcases mem_append.1 (hids ▸ hj) with hmem | hmem
      · exact (h old hold).2 j hmem
      · rw [mem_singleton.1 hmem, heq, heq', hi]
        exact ⟨rfl, hpart⟩
  · refine ⟨by simp [hids], fun j hj => ?_⟩
    rw [hids, mem_singleton] at hj
    rw [hj, hspec, hpool, hi]
    exact ⟨rfl, hpart⟩

lemma GroupsDiffer.add (h : GroupsDiffer groups) :
    GroupsDiffer (addToAttentionGroups g i eagle groups) := by
  induction groups with
  | nil => exact pairwise_singleton _ _
  | cons old groups ih =>
    obtain ⟨hold, hrest⟩ := pairwise_cons.1 h
    unfold addToAttentionGroups
    split
    · exact pairwise_cons.2 ⟨hold, hrest⟩
    · rename_i hne
      refine pairwise_cons.2 ⟨fun group hgroup => ?_, ih hrest⟩
      rcases mem_addToAttentionGroups hgroup with ⟨old', hold', hspec, hpool, -⟩ | ⟨hspec, hpool, -⟩
      · rw [hspec, hpool]
        exact hold old' hold'
      · rw [hspec, hpool]
        exact hne

/-- The added group is in a spec group, and the others stay in theirs. -/
lemma exists_mem_addToAttentionGroups {j : ℕ} (h : j = i ∨ ∃ group ∈ groups, j ∈ group.groupIds) :
    ∃ group ∈ addToAttentionGroups g i eagle groups, j ∈ group.groupIds := by
  induction groups with
  | nil =>
    rcases h with rfl | ⟨group, hgroup, -⟩
    · exact ⟨_, mem_singleton_self _, mem_singleton_self _⟩
    · cases hgroup
  | cons old groups ih =>
    unfold addToAttentionGroups
    split
    · rcases h with rfl | ⟨group, hgroup, hj⟩
      · exact ⟨_, mem_cons_self, mem_append_right _ (mem_singleton_self _)⟩
      · rcases mem_cons.1 hgroup with rfl | hmem
        · exact ⟨_, mem_cons_self, mem_append_left _ hj⟩
        · exact ⟨group, mem_cons_of_mem _ hmem, hj⟩
    · by_cases hold : j ∈ old.groupIds
      · exact ⟨old, mem_cons_self, hold⟩
      · have hrest : j = i ∨ ∃ group ∈ groups, j ∈ group.groupIds := by
          refine h.imp_right ?_
          rintro ⟨group, hgroup, hj⟩
          rcases mem_cons.1 hgroup with rfl | hmem
          · exact absurd hj hold
          · exact ⟨group, hmem, hj⟩
        obtain ⟨group, hgroup, hj⟩ := ih hrest
        exact ⟨group, mem_cons_of_mem _ hgroup, hj⟩

end Add

/-- What the loop of `verify_and_split_kv_cache_groups` builds. -/
lemma foldl_splitGroup_spec (all : List KVCacheGroupSpec) (eagleGroupIds : List ℕ)
    (l : List (KVCacheGroupSpec × ℕ)) (groups : List HybridSpecGroup)
    (hl : ∀ x ∈ l, all[x.2]? = some x.1) (hmatch : GroupsMatch all groups) (hdiffer : GroupsDiffer groups) :
    GroupsMatch all (l.foldl (splitGroup eagleGroupIds) groups) ∧
      GroupsDiffer (l.foldl (splitGroup eagleGroupIds) groups) ∧
      ∀ j, ((∃ g, (g, j) ∈ l ∧ g.spec.participatesInPrefixCaching = true) ∨
          ∃ group ∈ groups, j ∈ group.groupIds) →
        ∃ group ∈ l.foldl (splitGroup eagleGroupIds) groups, j ∈ group.groupIds := by
  induction l generalizing groups with
  | nil =>
    refine ⟨hmatch, hdiffer, fun j hj => ?_⟩
    rcases hj with ⟨g, hg, -⟩ | hgroup
    · cases hg
    · exact hgroup
  | cons x l ih =>
    have hl' : ∀ y ∈ l, all[y.2]? = some y.1 := fun y hy => hl y (mem_cons_of_mem _ hy)
    rw [foldl_cons]
    by_cases hpart : x.1.spec.participatesInPrefixCaching = true
    · rw [splitGroup, if_pos hpart]
      obtain ⟨hmatch', hdiffer', hcover⟩ := ih _ hl'
        (hmatch.add (hl x mem_cons_self) hpart) hdiffer.add
      refine ⟨hmatch', hdiffer', fun j hj => hcover j ?_⟩
      rcases hj with ⟨g, hg, hgpart⟩ | hgroup
      · rcases mem_cons.1 hg with rfl | hmem
        · exact .inr (exists_mem_addToAttentionGroups (.inl rfl))
        · exact .inl ⟨g, hmem, hgpart⟩
      · exact .inr (exists_mem_addToAttentionGroups (.inr hgroup))
    · rw [splitGroup, if_neg hpart]
      obtain ⟨hmatch', hdiffer', hcover⟩ := ih _ hl' hmatch hdiffer
      refine ⟨hmatch', hdiffer', fun j hj => hcover j ?_⟩
      rcases hj with ⟨g, hg, hgpart⟩ | hgroup
      · rcases mem_cons.1 hg with rfl | hmem
        · exact absurd hgpart hpart
        · exact .inl ⟨g, hmem, hgpart⟩
      · exact .inr hgroup

/-- The spec groups of a coordinator: they match its groups, no group is in two, and every group that
is cached is in one. -/
lemma attentionGroups_cover (c : HybridCoordinator H) :
    GroupsMatch c.kvCacheGroups c.attentionGroups ∧ GroupsDiffer c.attentionGroups ∧
      ∀ i g, c.kvCacheGroups[i]? = some g → g.spec.participatesInPrefixCaching = true →
        ∃ group ∈ c.attentionGroups, i ∈ group.groupIds := by
  obtain ⟨hmatch, hdiffer, hcover⟩ := foldl_splitGroup_spec c.kvCacheGroups c.eagleGroupIds
    c.kvCacheGroups.zipIdx [] (fun x hx => mem_zipIdx_iff_getElem?.1 hx) nofun List.Pairwise.nil
  have hmem : ∀ group, group ∈ c.attentionGroups ↔
      group ∈ c.kvCacheGroups.zipIdx.foldl (splitGroup c.eagleGroupIds) [] := by
    intro group
    unfold attentionGroups
    rw [mem_append, mem_filter, mem_filter]
    cases group.spec.isFullAttention <;> simp
  refine ⟨fun group hgroup => hmatch group ((hmem group).1 hgroup), ?_, fun i g hi hpart => ?_⟩
  · refine pairwise_append.2 ⟨hdiffer.filter _, hdiffer.filter _, fun a ha b hb heq => ?_⟩
    have hfull := (mem_filter.1 ha).2
    have hother := (mem_filter.1 hb).2
    rw [heq.1] at hfull
    simp [hfull] at hother
  · obtain ⟨group, hgroup, hi'⟩ := hcover i (.inl ⟨g, mem_zipIdx_iff_getElem?.2 hi, hpart⟩)
    exact ⟨group, (hmem group).2 hgroup, hi'⟩

/-! ## Recorded hits -/

variable {i n : ℕ} {l : List (ℕ × List ℕ)} {hits : Dict ℕ (List ℕ × ℕ)}

lemma get?_recordHits_of_not_mem (h : i ∉ l.map Prod.fst) :
    (l.foldl (fun hits (groupId, blocks) => hits.set groupId (blocks, n)) hits).get? i =
      hits.get? i := by
  induction l generalizing hits with
  | nil => rfl
  | cons x l ih =>
    rw [map_cons, mem_cons, not_or] at h
    rw [foldl_cons, ih h.2]
    exact Dict.get?_set_ne hits h.1 _

lemma exists_get?_recordHits (h : i ∈ l.map Prod.fst) : ∃ blocks, (i, blocks) ∈ l ∧
      (l.foldl (fun hits (groupId, blocks) => hits.set groupId (blocks, n)) hits).get? i =
        some (blocks, n) := by
  induction l generalizing hits with
  | nil => cases h
  | cons x l ih =>
    rw [foldl_cons]
    by_cases hmem : i ∈ l.map Prod.fst
    · obtain ⟨blocks, hblocks, hget⟩ := @ih (hits.set x.1 (x.2, n)) hmem
      exact ⟨blocks, mem_cons_of_mem _ hblocks, hget⟩
    · obtain rfl : i = x.1 := by simpa [hmem] using h
      refine ⟨x.2, mem_cons_self, ?_⟩
      rw [get?_recordHits_of_not_mem hmem]
      exact Dict.get?_set_self _ _ _

/-! ## Single lookups -/

/-- The lookup of a spec group up to a length. -/
abbrev lookUp (c : HybridCoordinator H) (hashes : List H) (group : HybridSpecGroup) (maxLength : ℕ)
    (drop : Bool) : Except PyErr (List (List ℕ) × ℕ) :=
  group.spec.findLongestCacheHit (c.blockPools group.poolId) hashes maxLength group.groupIds drop
    c.cacheHitAlignmentTokens

/-- What a lookup up to `maxLength` gives: a length on the alignment, with room for what is dropped,
and for each group its column of blocks. -/
structure LookupGives (c : HybridCoordinator H) (Q : ℕ → List ℕ → ℕ → Prop)
    (group : HybridSpecGroup) (maxLength : ℕ) (drop : Bool) (rows : List (List ℕ)) (n : ℕ) :
    Prop where
  aligned : c.cacheHitAlignmentTokens ∣ n
  le_maxLength : n ≤ maxLength
  le_of_drop : (drop && !group.spec.isMamba) = true → 0 < n → n + c.eagleMargin group ≤ maxLength
  column : ∀ i blocks, (i, blocks) ∈ group.groupIds.zip (columnsOf group.groupIds.length rows) →
    Q i blocks n

/-- What all lookups up to `maxLen` give that return. -/
def LookupsGive (c : HybridCoordinator H) (hashes : List H) (maxLen : ℕ)
    (Q : ℕ → List ℕ → ℕ → Prop) : Prop :=
  ∀ group ∈ c.attentionGroups, ∀ (maxLength : ℕ) (drop : Bool) (rows : List (List ℕ)) (n : ℕ),
    maxLength ≤ maxLen → c.lookUp hashes group maxLength drop = .ok (rows, n) →
    c.LookupGives Q group maxLength drop rows n

/-- All lookups up to `maxLen` return. -/
def LookupsReturn (c : HybridCoordinator H) (hashes : List H) (maxLen : ℕ) : Prop :=
  ∀ group ∈ c.attentionGroups, ∀ (maxLength : ℕ) (drop : Bool), maxLength ≤ maxLen →
    ∃ hit, c.lookUp hashes group maxLength drop = .ok hit

/-! ## The search -/

/-- What holds of the variables of the search between two lookups. -/
structure SearchOk (c : HybridCoordinator H) (Q : ℕ → List ℕ → ℕ → Prop) (maxCacheHitLength : ℕ)
    (search : HitSearch) : Prop where
  le_max : search.currHitLength ≤ maxCacheHitLength
  aligned : c.cacheHitAlignmentTokens ∣ search.currHitLength ∨ ∀ i, search.hits.get? i = none
  hits : ∀ i blocks n, search.hits.get? i = some (blocks, n) →
    (∃ group ∈ c.attentionGroups, i ∈ group.groupIds) ∧ c.cacheHitAlignmentTokens ∣ n ∧
      Q i blocks n
  /-- The groups of one spec are looked up together. -/
  together : ∀ group ∈ c.attentionGroups, ∀ i ∈ group.groupIds, ∀ k ∈ group.groupIds,
    (search.hits.get? i).map Prod.snd = (search.hits.get? k).map Prod.snd

/-- What one lookup does to the search. -/
structure Looked (c : HybridCoordinator H) (Q : ℕ → List ℕ → ℕ → Prop) (maxCacheHitLength : ℕ)
    (group : HybridSpecGroup) (search search' : HitSearch) : Prop where
  ok : c.SearchOk Q maxCacheHitLength search'
  le : search'.currHitLength ≤ search.currHitLength
  aligned : c.cacheHitAlignmentTokens ∣ search'.currHitLength
  recorded : ∀ i ∈ group.groupIds, ∃ blocks n, search'.hits.get? i = some (blocks, n) ∧
    search'.currHitLength ≤ n ∧ (group.spec.isFullAttention = false → n = search'.currHitLength)
  others : ∀ i, i ∉ group.groupIds → search'.hits.get? i = search.hits.get? i

section Search

variable {c : HybridCoordinator H} {Q : ℕ → List ℕ → ℕ → Prop} {hashes : List H} {maxLen : ℕ}
  {search search' : HitSearch} {group : HybridSpecGroup}

lemma eq_of_mem_groupIds {group' : HybridSpecGroup} (hgroup : group ∈ c.attentionGroups)
    (hgroup' : group' ∈ c.attentionGroups) (hi : i ∈ group.groupIds) (hi' : i ∈ group'.groupIds) :
    group = group' := by
  obtain ⟨hmatch, hdiffer, -⟩ := c.attentionGroups_cover
  by_contra hne
  have hsym : Std.Symm fun a b : HybridSpecGroup => ¬ (a.spec = b.spec ∧ a.poolId = b.poolId) :=
    ⟨fun a b hab heq => hab ⟨heq.1.symm, heq.2.symm⟩⟩
  refine hdiffer.forall hgroup hgroup' hne ?_
  have h := ((hmatch group hgroup).2 i hi).1.symm.trans ((hmatch group' hgroup').2 i hi').1
  simpa using h

/-- Full attention that has been looked up cuts the candidate. -/
lemma looked_of_previous (hok : c.SearchOk Q maxLen search) (hgroup : group ∈ c.attentionGroups)
    (hfull : group.spec.isFullAttention = true) {k : ℕ} {blocks : List ℕ} (hk : k ∈ group.groupIds)
    (hprev : search.hits.get? k = some (blocks, n)) :
    c.Looked Q maxLen group search { search with currHitLength := min search.currHitLength n } := by
  have halign : c.cacheHitAlignmentTokens ∣ min search.currHitLength n := by
    have hcurr : c.cacheHitAlignmentTokens ∣ search.currHitLength := hok.aligned.resolve_right
      fun hnone => by rw [hnone k] at hprev; cases hprev
    obtain ⟨-, hn, -⟩ := hok.hits k blocks n hprev
    rcases le_total search.currHitLength n with hle | hle
    · rwa [min_eq_left hle]
    · rwa [min_eq_right hle]
  refine ⟨⟨(min_le_left _ _).trans hok.le_max, .inl halign, hok.hits, hok.together⟩,
    min_le_left _ _, halign, fun i hi => ?_, fun _ _ => rfl⟩
  have htogether := hok.together group hgroup k hk i hi
  rw [hprev, map_some] at htogether
  obtain ⟨⟨blocks', n'⟩, hget, rfl⟩ := map_eq_some_iff.1 htogether.symm
  exact ⟨blocks', n', hget, min_le_right _ _, fun hf => by rw [hfull] at hf; cases hf⟩

/-- A lookup shortens the candidate to what it finds. -/
lemma looked_of_lookup (hok : c.SearchOk Q maxLen search) (hgroup : group ∈ c.attentionGroups)
    {maxLength : ℕ} {drop : Bool} {rows : List (List ℕ)} {hits : Dict ℕ (List ℕ × ℕ)}
    (hmaxLength : maxLength = if drop && !group.spec.isMamba then
      min (search.currHitLength + c.eagleMargin group) maxLen else search.currHitLength)
    (h : c.LookupGives Q group maxLength drop rows n) (longest : ℕ) (verified : List ℕ)
    (hhits : hits = (group.groupIds.zip (columnsOf group.groupIds.length rows)).foldl
      (fun hits (groupId, blocks) => hits.set groupId (blocks, n)) search.hits) :
    c.Looked Q maxLen group search ⟨n, longest, hits, verified⟩ := by
  have hzip : (group.groupIds.zip (columnsOf group.groupIds.length rows)).map Prod.fst =
      group.groupIds := map_fst_zip (by simp [columnsOf])
  have hrecorded : ∀ i ∈ group.groupIds, ∃ blocks,
      hits.get? i = some (blocks, n) ∧ Q i blocks n := by
    intro i hi
    rw [hhits]
    obtain ⟨blocks, hmem, hget⟩ := exists_get?_recordHits (by rwa [hzip])
    exact ⟨blocks, hget, h.column i blocks hmem⟩
  have hothers : ∀ i, i ∉ group.groupIds → hits.get? i = search.hits.get? i := by
    intro i hi
    rw [hhits]
    exact get?_recordHits_of_not_mem (by rwa [hzip])
  have hcurr : n ≤ search.currHitLength := by
    have hmax := h.le_maxLength
    rcases Nat.eq_zero_or_pos n with rfl | hpos
    · exact Nat.zero_le _
    · split at hmaxLength
      · rename_i hdrop
        have hroom := h.le_of_drop hdrop hpos
        omega
      · omega
  refine ⟨⟨hcurr.trans hok.le_max, .inl h.aligned, fun i blocks k hget => ?_,
    fun group' hgroup' i hi k hk => ?_⟩, hcurr, h.aligned, fun i hi => ?_, hothers⟩
  · by_cases hi : i ∈ group.groupIds
    · obtain ⟨blocks', hget', hQ⟩ := hrecorded i hi
      obtain ⟨rfl, rfl⟩ : blocks' = blocks ∧ n = k := by simpa using hget'.symm.trans hget
      exact ⟨⟨group, hgroup, hi⟩, h.aligned, hQ⟩
    · exact hok.hits i blocks k ((hothers i hi).symm.trans hget)
  · by_cases hi' : i ∈ group.groupIds
    · obtain rfl := eq_of_mem_groupIds hgroup hgroup' hi' hi
      obtain ⟨blocks, hget, -⟩ := hrecorded i hi'
      obtain ⟨blocks', hget', -⟩ := hrecorded k hk
      simp only [hget, hget', map_some]
    · have hk' : k ∉ group.groupIds := fun hk' =>
        hi' (eq_of_mem_groupIds hgroup hgroup' hk' hk ▸ hi)
      simp only [hothers i hi', hothers k hk']
      exact hok.together group' hgroup' i hi k hk
  · obtain ⟨blocks, hget, -⟩ := hrecorded i hi
    exact ⟨blocks, n, hget, le_rfl, fun _ => rfl⟩

/-- No lookup asks for more than the search does. -/
lemma lookupLength_le (hle : search.currHitLength ≤ maxLen) (drop : Bool) (margin : ℕ) :
    (if drop then min (search.currHitLength + margin) maxLen else search.currHitLength) ≤
      maxLen := by
  split
  · exact min_le_right _ _
  · exact hle

lemma lookupSpecGroup_looked (h : c.LookupsGive hashes maxLen Q) (hok : c.SearchOk Q maxLen search)
    (hgroup : group ∈ c.attentionGroups) {idx : ℕ}
    (hrun : c.lookupSpecGroup hashes maxLen idx group search = .ok search') :
    c.Looked Q maxLen group search search' := by
  unfold lookupSpecGroup at hrun
  split at hrun
  · rename_i blocks n hfull hprev
    cases hrun
    obtain ⟨k, hk, hget⟩ := bind_eq_some_iff.1 hprev
    exact looked_of_previous hok hgroup hfull (mem_of_mem_head? hk) hget
  · obtain ⟨⟨rows, n⟩, hlookup, hrun⟩ := except_bind_eq_ok.1 hrun
    cases hrun
    exact looked_of_lookup hok hgroup rfl
      (h group hgroup _ _ rows n (lookupLength_le hok.le_max _ _) hlookup) _ _ rfl

lemma lookupSpecGroup_returns (h : c.LookupsReturn hashes maxLen)
    (hle : search.currHitLength ≤ maxLen) (hgroup : group ∈ c.attentionGroups) (idx : ℕ) :
    ∃ search', c.lookupSpecGroup hashes maxLen idx group search = .ok search' := by
  unfold lookupSpecGroup
  split
  · exact ⟨_, rfl⟩
  · obtain ⟨hit, hlookup⟩ := h group hgroup _ (group.useEagle && !search.eagleVerified.contains idx)
      (lookupLength_le hle (group.useEagle && !search.eagleVerified.contains idx &&
        !group.spec.isMamba) (c.eagleMargin group))
    exact ⟨_, except_bind_eq_ok.2 ⟨hit, hlookup, rfl⟩⟩

variable (c Q maxLen) in
/-- What a pass over some spec groups does. -/
structure Passed (groups : List HybridSpecGroup)
    (search search' : HitSearch) : Prop where
  ok : c.SearchOk Q maxLen search'
  le : search'.currHitLength ≤ search.currHitLength
  aligned : groups ≠ [] → c.cacheHitAlignmentTokens ∣ search'.currHitLength
  recorded : ∀ group ∈ groups, ∀ i ∈ group.groupIds, ∃ blocks n,
    search'.hits.get? i = some (blocks, n) ∧ search'.currHitLength ≤ n ∧
      (group.spec.isFullAttention = false → n ≤ search.currHitLength)
  /-- The last lookup has the final candidate. -/
  last : ∀ group, groups.getLast? = some group → group.spec.isFullAttention = false →
    ∀ i ∈ group.groupIds, ∃ blocks, search'.hits.get? i = some (blocks, search'.currHitLength)
  others : ∀ i, (∀ group ∈ groups, i ∉ group.groupIds) →
    search'.hits.get? i = search.hits.get? i

/-- A pass is one lookup after the other. -/
lemma lookupPass_passed (h : c.LookupsGive hashes maxLen Q)
    (hgroups : ∀ group ∈ groups, group ∈ c.attentionGroups) (hdiffer : GroupsDiffer groups)
    (hok : c.SearchOk Q maxLen search) {idx : ℕ}
    (hrun : c.lookupPass hashes maxLen idx groups search = .ok search') :
    c.Passed Q maxLen groups search search' := by
  induction groups generalizing search idx with
  | nil =>
    cases hrun
    exact ⟨hok, le_rfl, fun hne => absurd rfl hne, fun _ hg => (by cases hg),
      fun _ hlast => (by cases hlast), fun _ _ => rfl⟩
  | cons group groups ih =>
    obtain ⟨hfirst, hrest⟩ := pairwise_cons.1 hdiffer
    have hgroup := hgroups group mem_cons_self
    have hgroups' : ∀ g ∈ groups, g ∈ c.attentionGroups := fun g hg =>
      hgroups g (mem_cons_of_mem _ hg)
    obtain ⟨search1, hrun1, hrun2⟩ := except_bind_eq_ok.1 hrun
    have hlooked := lookupSpecGroup_looked h hok hgroup hrun1
    have hpassed := ih hgroups' hrest hlooked.ok hrun2
    -- The later lookups leave the groups of this one alone.
    have hapart : ∀ i ∈ group.groupIds, ∀ g ∈ groups, i ∉ g.groupIds := by
      intro i hi g hg hi'
      obtain rfl := eq_of_mem_groupIds hgroup (hgroups' g hg) hi hi'
      exact hfirst group hg ⟨rfl, rfl⟩
    have hown : ∀ i ∈ group.groupIds, ∃ blocks n, search'.hits.get? i = some (blocks, n) ∧
        search'.currHitLength ≤ n ∧
        (group.spec.isFullAttention = false → n = search1.currHitLength) := by
      intro i hi
      obtain ⟨blocks, n, hget, hle, hexact⟩ := hlooked.recorded i hi
      exact ⟨blocks, n, (hpassed.others i (hapart i hi)).trans hget, hpassed.le.trans hle, hexact⟩
    refine ⟨hpassed.ok, hpassed.le.trans hlooked.le, fun _ => ?_, fun g hg i hi => ?_,
      fun g hlast hfull i hi => ?_, fun i hi => ?_⟩
    · cases groups with
      | nil =>
        cases hrun2
        exact hlooked.aligned
      | cons g gs => exact hpassed.aligned (cons_ne_nil _ _)
    · rcases mem_cons.1 hg with rfl | hmem
      · obtain ⟨blocks, n, hget, hle, hexact⟩ := hown i hi
        exact ⟨blocks, n, hget, hle, fun hf => (hexact hf).le.trans hlooked.le⟩
      · obtain ⟨blocks, n, hget, hle, hexact⟩ := hpassed.recorded g hmem i hi
        exact ⟨blocks, n, hget, hle, fun hf => (hexact hf).trans hlooked.le⟩
    · cases groups with
      | nil =>
        obtain rfl : group = g := by simpa using hlast
        cases hrun2
        obtain ⟨blocks, n, hget, -, hexact⟩ := hlooked.recorded i hi
        exact ⟨blocks, by rw [hget, hexact hfull]⟩
      | cons g' gs => exact hpassed.last g (by simpa using hlast) hfull i hi
    · rw [hpassed.others i fun g hg => hi g (mem_cons_of_mem _ hg)]
      exact hlooked.others i (hi group mem_cons_self)

lemma lookupPass_returns (hreturn : c.LookupsReturn hashes maxLen)
    (h : c.LookupsGive hashes maxLen Q)
    (hgroups : ∀ group ∈ groups, group ∈ c.attentionGroups) (hok : c.SearchOk Q maxLen search)
    (idx : ℕ) : ∃ search', c.lookupPass hashes maxLen idx groups search = .ok search' := by
  induction groups generalizing search idx with
  | nil => exact ⟨search, rfl⟩
  | cons group groups ih =>
    have hgroup := hgroups group mem_cons_self
    obtain ⟨search1, hrun1⟩ := lookupSpecGroup_returns hreturn hok.le_max hgroup idx
    obtain ⟨search2, hrun2⟩ := ih (fun g hg => hgroups g (mem_cons_of_mem _ hg))
      (lookupSpecGroup_looked h hok hgroup hrun1).ok (idx + 1)
    exact ⟨search2, except_bind_eq_ok.2 ⟨search1, hrun1, hrun2⟩⟩

variable (c Q maxLen) in
/-- What holds at the end of the loop: every group has a hit of the final length, or, in full
attention, one that is at least as long. -/
structure Settled (search : HitSearch) : Prop where
  ok : c.SearchOk Q maxLen search
  aligned : c.cacheHitAlignmentTokens ∣ search.currHitLength
  recorded : ∀ group ∈ c.attentionGroups, ∀ i ∈ group.groupIds, ∃ blocks n,
    search.hits.get? i = some (blocks, n) ∧ search.currHitLength ≤ n ∧
      (group.spec.isFullAttention = false → n = search.currHitLength)

/-- A pass that does not shorten the candidate ends the loop. -/
lemma Passed.settled (h : c.Passed Q maxLen c.attentionGroups search search')
    (hne : c.attentionGroups ≠ []) (hge : search.currHitLength ≤ search'.currHitLength) :
    c.Settled Q maxLen search' := by
  refine ⟨h.ok, h.aligned hne, fun group hgroup i hi => ?_⟩
  obtain ⟨blocks, n, hget, hle, hfull⟩ := h.recorded group hgroup i hi
  exact ⟨blocks, n, hget, hle, fun hf => le_antisymm ((hfull hf).trans hge) hle⟩

/-- Behind full attention, one other spec group needs only one pass. -/
lemma Passed.settled_of_isSimpleHybrid (h : c.Passed Q maxLen c.attentionGroups search search')
    (hsimple : c.isSimpleHybrid = true) : c.Settled Q maxLen search' := by
  unfold isSimpleHybrid at hsimple
  split at hsimple
  · rename_i g1 g2 hgroups
    rw [hgroups] at h
    refine ⟨h.ok, h.aligned (cons_ne_nil _ _), fun group hgroup i hi => ?_⟩
    rw [hgroups] at hgroup
    obtain ⟨blocks, n, hget, hle, -⟩ := h.recorded group hgroup i hi
    refine ⟨blocks, n, hget, hle, fun hf => ?_⟩
    obtain rfl : group = g2 := by
      rcases mem_cons.1 hgroup with rfl | hmem
      · rw [hsimple] at hf
        cases hf
      · exact mem_singleton.1 hmem
    obtain ⟨blocks', hget'⟩ := h.last group rfl hf i hi
    exact (Prod.mk.inj (some.inj (hget.symm.trans hget'))).2
  · cases hsimple

/-- Each pass that does not end the loop makes the candidate shorter. -/
lemma lookupLoop_settled (h : c.LookupsGive hashes maxLen Q) (hne : c.attentionGroups ≠ [])
    {fuel : ℕ} (hok : c.SearchOk Q maxLen search) (hfuel : search.currHitLength < fuel)
    (hrun : c.lookupLoop hashes maxLen c.isSimpleHybrid fuel search = .ok search') :
    c.Settled Q maxLen search' := by
  induction fuel generalizing search with
  | zero => cases hfuel
  | succ fuel ih =>
    obtain ⟨-, hdiffer, -⟩ := c.attentionGroups_cover
    obtain ⟨search1, hrun1, hrun⟩ := except_bind_eq_ok.1 hrun
    have hpassed := lookupPass_passed h (fun _ hg => hg) hdiffer hok hrun1
    split at hrun
    · rename_i hge
      cases hrun
      rw [← le_antisymm hpassed.le hge]
      exact hpassed.settled hne hge
    · rename_i hlt
      split at hrun
      · rename_i hsimple
        cases hrun
        exact hpassed.settled_of_isSimpleHybrid hsimple
      · exact ih hpassed.ok (by omega) hrun

lemma lookupLoop_returns (hreturn : c.LookupsReturn hashes maxLen)
    (h : c.LookupsGive hashes maxLen Q) (simple : Bool) (fuel : ℕ)
    (hok : c.SearchOk Q maxLen search) :
    ∃ search', c.lookupLoop hashes maxLen simple fuel search = .ok search' := by
  induction fuel generalizing search with
  | zero => exact ⟨search, rfl⟩
  | succ fuel ih =>
    obtain ⟨-, hdiffer, -⟩ := c.attentionGroups_cover
    obtain ⟨search1, hrun⟩ := lookupPass_returns hreturn h (fun _ hg => hg) hok 0
    have hpassed := lookupPass_passed h (fun _ hg => hg) hdiffer hok hrun
    rw [lookupLoop]
    simp only [bind, Except.bind, hrun]
    split
    · exact ⟨_, rfl⟩
    · split
      · exact ⟨_, rfl⟩
      · exact ih hpassed.ok

variable (c Q maxLen) in
lemma searchOk_start : c.SearchOk Q maxLen { currHitLength := maxLen } :=
  ⟨le_rfl, .inr fun _ => rfl, fun _ _ _ h => (by cases h), fun _ _ _ _ _ _ => rfl⟩

/-! ## The result -/

/-- The blocks `bs` that the lookup returns for a group at the length `L`: none outside prefix caching;
in full attention the front of a hit; otherwise the blocks of a hit of that length. -/
def FinalHit (Q : ℕ → List ℕ → ℕ → Prop) (g : KVCacheGroupSpec) (i L : ℕ) (bs : List ℕ) : Prop :=
  (g.spec.participatesInPrefixCaching = false → bs = []) ∧
    (g.spec.participatesInPrefixCaching = true → ∃ blocks n, Q i blocks n ∧ L ≤ n ∧
      (g.spec.isFullAttention = true ∧ bs = blocks.take (cdiv L g.spec.blockSize) ∨
        g.spec.isFullAttention = false ∧ n = L ∧ bs = blocks))

/-- What the search leaves for each group. -/
lemma Settled.finalHit (h : c.Settled Q maxLen search) {g : KVCacheGroupSpec}
    (hi : c.kvCacheGroups[i]? = some g) :
    FinalHit Q g i search.currHitLength
      (HybridCoordinator.finalHit search.hits search.currHitLength g i) := by
  obtain ⟨hmatch, -, hcover⟩ := c.attentionGroups_cover
  unfold HybridCoordinator.finalHit
  refine ⟨fun hpart => ?_, fun hpart => ?_⟩
  · cases hget : search.hits.get? i with
    | none => rfl
    | some hit =>
      obtain ⟨⟨group, hgroup, hmem⟩, -⟩ := h.ok.hits i hit.1 hit.2 hget
      obtain ⟨hget', hpart'⟩ := (hmatch group hgroup).2 i hmem
      obtain rfl : g = ⟨group.spec, group.poolId⟩ := some.inj (hi.symm.trans hget')
      exact absurd (hpart.symm.trans hpart') Bool.false_ne_true
  · obtain ⟨group, hgroup, hmem⟩ := hcover i g hi hpart
    obtain ⟨hget, -⟩ := (hmatch group hgroup).2 i hmem
    obtain rfl : g = ⟨group.spec, group.poolId⟩ := some.inj (hi.symm.trans hget)
    obtain ⟨blocks, n, hhits, hle, hexact⟩ := h.recorded group hgroup i hmem
    obtain ⟨-, -, hQ⟩ := h.ok.hits i blocks n hhits
    rw [hhits]
    refine ⟨blocks, n, hQ, hle, ?_⟩
    cases hfull : group.spec.isFullAttention with
    | true => exact .inl ⟨rfl, if_pos rfl⟩
    | false => exact .inr ⟨rfl, hexact hfull, if_neg Bool.false_ne_true⟩

/-- What the lookup returns: an aligned length, not longer than asked for, and for each group the
blocks of that length. -/
lemma findLongestCacheHit_spec (h : c.LookupsGive hashes maxLen Q) (hne : c.attentionGroups ≠ [])
    {hits : List (List ℕ)} {L uncached : ℕ}
    (hrun : c.findLongestCacheHit hashes maxLen = .ok (hits, L, uncached)) :
    L ≤ maxLen ∧ c.cacheHitAlignmentTokens ∣ L ∧ ∀ (i : ℕ) g, c.kvCacheGroups[i]? = some g →
        ∃ bs, hits[i]? = some bs ∧ FinalHit Q g i L bs := by
  obtain ⟨search, hloop, hrun⟩ := except_bind_eq_ok.1 hrun
  cases hrun
  have hsettled := lookupLoop_settled h hne (c.searchOk_start Q maxLen)
    (show maxLen < maxLen + 2 by omega) hloop
  refine ⟨hsettled.ok.le_max, hsettled.aligned, fun i g hi => ⟨_, ?_, hsettled.finalHit hi⟩⟩
  rw [getElem?_map, getElem?_zipIdx, hi, zero_add]
  rfl

/-- The lookup returns if the single lookups do. -/
lemma findLongestCacheHit_returns (hreturn : c.LookupsReturn hashes maxLen)
    (h : c.LookupsGive hashes maxLen Q) :
    ∃ hits L uncached, c.findLongestCacheHit hashes maxLen = .ok (hits, L, uncached) := by
  obtain ⟨search, hloop⟩ := lookupLoop_returns hreturn h c.isSimpleHybrid (maxLen + 2)
    (c.searchOk_start Q maxLen)
  exact ⟨_, _, _, except_bind_eq_ok.2 ⟨search, hloop, rfl⟩⟩

end Search

end HybridCoordinator

end Lvllm
