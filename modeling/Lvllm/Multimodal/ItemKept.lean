import Lvllm.Multimodal.ProcessorCache

/-!
# Items of a request that P0 takes to be cached

`_get_cache_missing_items` marks the items of a request that are cached, and `_merge_mm_kwargs` relies
on the marks while it inserts the other items.  It touches all items first, but an insertion drops as
many entries as it needs, those of the request included: in `cached_item_dropped` the assertion of
`get_and_update_item` fails.  It fails exactly where a marked item does not fit together with the items
that are used between its last use and its turn (`cached_items_kept`).

`MultiModalProcessorOnlyCache` keeps the items where `MultiModalProcessorSenderCache` keeps their
sizes.  The proof is about any cache that looks up, touches and inserts as both do (`OnLru`).
-/

namespace Lvllm

open List

variable {H V U : Type} [DecidableEq H] (getItemSize : V → ℕ)

/-- `MultiModalProcessorOnlyCache`: the items and their prompt updates. -/
def processorOnlyCache :
    ProcessorCache H (V × List U) (V × List U) (Lru H (V × List U)) where
  isCachedItem c hash := c.contains hash
  getAndUpdateItem item hash := fun c =>
    match c.get hash with
    | (some cached, c) => .ok cached c
    | (none, c) =>
      match item with
      | none => .error (.expectedCached hash) c
      | some item => .ok item (c.putIfFits hash item (getItemSize item.1)).2
  touchSenderCacheItem hash c := c.touch hash

/-- Every marked item, when its turn comes, fits together with the items used since its last use: the
hashes are given in the order of their last uses, and an item that fits into the cache at all is used
at its turn. -/
def MarkedItemsFit (size : H → ℕ) (maxsize : ℕ) : List H → List (MmItem H × Bool) → Prop
  | _, [] => True
  | order, (item, cached) :: items =>
    (cached = true → ((order.dropWhile (· ≠ item.hash)).map size).sum ≤ maxsize) ∧
      MarkedItemsFit size maxsize
        (if size item.hash ≤ maxsize then Lru.use item.hash order else order) items

instance (size : H → ℕ) (maxsize : ℕ) : ∀ (order : List H) (items : List (MmItem H × Bool)),
    Decidable (MarkedItemsFit size maxsize order items)
  | _, [] => .isTrue trivial
  | order, (item, _) :: items =>
    have := instDecidableMarkedItemsFit size maxsize
      (if size item.hash ≤ maxsize then Lru.use item.hash order else order) items
    inferInstanceAs (Decidable (_ ∧ _))

namespace ProcessorCache

variable {A W : Type}

/-- An LRU cache keyed by hash in which an item is looked up first, and inserted with its size if it
is not found. -/
structure OnLru (ops : ProcessorCache H (V × List U) (A × List U) (Lru H W)) : Prop where
  isCachedItem : ∀ c hash, ops.isCachedItem c hash = c.contains hash
  touchSenderCacheItem : ∀ hash c, ops.touchSenderCacheItem hash c = c.touch hash
  hit : ∀ {hash c}, hash ∈ c.keys → ∀ item, ∃ out, ops.getAndUpdateItem item hash c =
    .ok out (c.touch hash)
  miss : ∀ {hash c}, hash ∉ c.keys → ∀ out c', ops.getAndUpdateItem none hash c ≠ .ok out c'
  insert : ∀ {hash c}, hash ∉ c.keys → ∀ item, ∃ out v, ops.getAndUpdateItem (some item) hash c =
    .ok out (c.putIfFits hash v (getItemSize item.1)).2

variable {getItemSize}

/-- The updates come to their end exactly if the marked items fit. -/
lemma OnLru.updateItems_iff {ops : ProcessorCache H (V × List U) (A × List U) (Lru H W)}
    (hops : ops.OnLru getItemSize) {content : H → V × List U} {items : List (MmItem H × Bool)}
    {order : List H} {c : Lru H W} (h : c.Follows (fun hash => getItemSize (content hash).1) order)
    (hmarked : ∀ i ∈ items, i.2 = true → i.1.hash ∈ order) :
    (∃ outs c', ops.updateItems content items c = .ok outs c') ↔
      MarkedItemsFit (fun hash => getItemSize (content hash).1) c.maxsize order items := by
  induction items generalizing order c with
  | nil => exact ⟨fun _ => trivial, fun _ => ⟨[], c, rfl⟩⟩
  | cons i items ih =>
    obtain ⟨item, cached⟩ := i
    set order' := if getItemSize (content item.hash).1 ≤ c.maxsize then Lru.use item.hash order
      else order with horder'
    have hmarked' : ∀ i ∈ items, i.2 = true → i.1.hash ∈ order' := by
      intro i hi hi'
      have hmem := hmarked i (mem_cons_of_mem _ hi) hi'
      rw [horder']
      split
      · exact Lru.mem_use.2 (.inr hmem)
      · exact hmem
    -- Once the item is updated, what follows decides.
    have hstep : ∀ {out c'}, ops.getAndUpdateItem
        (if cached then none else some (content item.hash)) item.hash c = .ok out c' →
        c'.Follows (fun hash => getItemSize (content hash).1) order' → c'.maxsize = c.maxsize →
        ((∃ outs c', ops.updateItems content ((item, cached) :: items) c = .ok outs c') ↔
          MarkedItemsFit (fun hash => getItemSize (content hash).1) c.maxsize order' items) := by
      intro out c' hget h' hmax
      rw [← hmax, ← ih h' hmarked']
      constructor
      · rintro ⟨outs, c₁, hrun⟩
        obtain ⟨out', c₂, hget', hrun⟩ := bind_eq_ok.1 hrun
        cases hget.symm.trans hget'
        obtain ⟨rest, c3, hrest, -⟩ := bind_eq_ok.1 hrun
        exact ⟨rest, c3, hrest⟩
      · rintro ⟨rest, c₁, hrest⟩
        exact ⟨_, c₁, (bind_ok hget).trans (bind_ok hrest)⟩
    rw [MarkedItemsFit]
    by_cases hk : item.hash ∈ c.keys
    · obtain ⟨out, hget⟩ := hops.hit hk (if cached then none else some (content item.hash))
      have hfit := (h.mem_keys_iff (h.keys_subset hk)).1 hk
      have huse : order' = Lru.use item.hash order := if_pos (h.size_le hk)
      rw [hstep hget (huse ▸ h.touch hk) rfl]
      exact ⟨fun hrest => ⟨fun _ => hfit, hrest⟩, And.right⟩
    · cases cached with
      | true =>
        refine ⟨fun ⟨outs, c', hrun⟩ => ?_, fun hfit => absurd ?_ hk⟩
        · obtain ⟨out, c₂, hget, -⟩ := bind_eq_ok.1 hrun
          exact absurd hget (hops.miss hk out c₂)
        · exact (h.mem_keys_iff (hmarked _ mem_cons_self rfl)).2 (hfit.1 rfl)
      | false =>
        obtain ⟨out, v, hget⟩ := hops.insert hk (content item.hash)
        rw [hstep hget (h.putIfFits hk v) (Lru.maxsize_putIfFits ..)]
        exact ⟨fun hrest => ⟨nofun, hrest⟩, And.right⟩

/-- `_merge_mm_kwargs` comes to its end exactly if the marked items fit. -/
lemma OnLru.mergeMmKwargs_iff {ops : ProcessorCache H (V × List U) (A × List U) (Lru H W)}
    (hops : ops.OnLru getItemSize) (recompute : U → ℕ → U) {content : H → V × List U}
    {inputs : MmInputs H} {flagged : List (String × List (MmItem H × Bool))} {c : Lru H W}
    (hsized : c.Sized fun hash => getItemSize (content hash).1)
    (hfits : (c.keys.map fun hash => getItemSize (content hash).1).sum ≤ c.maxsize)
    (hflagged : ops.getCacheMissingItems c inputs = .ok flagged) :
    (∃ merged c', ops.mergeMmKwargs recompute content flagged c = .ok merged c') ↔
      MarkedItemsFit (fun hash => getItemSize (content hash).1) c.maxsize
        ((flagged.flatMap Prod.snd).foldl (fun c i => c.touch i.1.hash) c).keys
        (flagged.flatMap Prod.snd) := by
  set items := flagged.flatMap Prod.snd with hitems
  have htouch : (items.foldl (fun c i => ops.touchSenderCacheItem i.1.hash c) c) =
      items.foldl (fun c i => c.touch i.1.hash) c := by
    simp only [hops.touchSenderCacheItem]
  obtain ⟨hperm, hmax⟩ := Lru.foldl_touch (fun i : MmItem H × Bool => i.1.hash) items c
  set c₁ := items.foldl (fun c i => c.touch i.1.hash) c with hc₁
  have hmerged : ops.mergeMmKwargs recompute content flagged c =
      ops.mergeModalities recompute content flagged c₁ :=
    congrArg (ops.mergeModalities recompute content flagged) htouch
  have hfollows := Lru.Sized.follows (fun e he => hsized e (hperm.mem_iff.1 he))
    (((hperm.map Prod.fst).map _).sum_eq.trans_le (hfits.trans_eq hmax.symm))
  rw [← hmax, ← hops.updateItems_iff hfollows fun i hi hcached => ?_]
  · constructor
    · rintro ⟨merged, c', hmerge⟩
      obtain ⟨outs, houts⟩ := updateItems_of_mergeModalities (hmerged.symm.trans hmerge)
      exact ⟨outs, c', houts⟩
    · rintro ⟨outs, c', houts⟩
      obtain ⟨merged, hmerge, -⟩ := mergeModalities_ok recompute houts
      exact ⟨merged, c', hmerged.trans hmerge⟩
  · -- What is marked is cached, and stays so when it is touched.
    rw [hitems, ops.flagged_eq hflagged, inputs.flatMap_marked] at hi
    obtain ⟨item, -, rfl⟩ := mem_map.1 hi
    refine (hperm.map Prod.fst).mem_iff.2 (Dict.mem_keys_iff.2 ?_)
    rw [← hcached, hops.isCachedItem]
    rfl

end ProcessorCache

lemma senderCache_onLru :
    (senderCache getItemSize : ProcessorCache H (V × List U) _ _).OnLru getItemSize where
  isCachedItem _ _ := rfl
  touchSenderCacheItem _ _ := rfl
  hit hk item := by
    obtain ⟨v, hv⟩ := Option.ne_none_iff_exists'.1 fun hnone => Dict.get?_eq_none.1 hnone hk
    simp [senderCache, Lru.get, hv]
  miss hk out c' hrun := by
    simp [senderCache, Lru.get, Dict.get?_eq_none.2 hk] at hrun
  insert hk item := by
    refine ⟨(some item.1, item.2), (getItemSize item.1, item.2), ?_⟩
    simp [senderCache, Lru.get, Dict.get?_eq_none.2 hk, Lru.touch_of_not_mem hk]

lemma processorOnlyCache_onLru :
    (processorOnlyCache getItemSize : ProcessorCache H (V × List U) _ _).OnLru getItemSize where
  isCachedItem _ _ := rfl
  touchSenderCacheItem _ _ := rfl
  hit hk item := by
    obtain ⟨v, hv⟩ := Option.ne_none_iff_exists'.1 fun hnone => Dict.get?_eq_none.1 hnone hk
    simp [processorOnlyCache, Lru.get, hv]
  miss hk out c' hrun := by
    simp [processorOnlyCache, Lru.get, Dict.get?_eq_none.2 hk] at hrun
  insert hk item := by
    refine ⟨item, item, ?_⟩
    simp [processorOnlyCache, Lru.get, Dict.get?_eq_none.2 hk, Lru.touch_of_not_mem hk]

/-- **No item of the current request is lost.**  In every cache of sizes or of items whose entries
have the sizes of the items with their hashes and fit together, `_merge_mm_kwargs` runs to its end on
the items as `_get_cache_missing_items` marks them exactly if every marked item, when its turn comes,
fits together with the items used since its last use. -/
theorem cached_items_kept (recompute : U → ℕ → U) (content : H → V × List U) (inputs : MmInputs H) :
    let size := fun hash => getItemSize (content hash).1
    (∀ (c : Lru H (ℕ × List U)) flagged, c.Sized size → (c.keys.map size).sum ≤ c.maxsize →
      (senderCache getItemSize).getCacheMissingItems c inputs = .ok flagged →
      ((∃ merged c', (senderCache getItemSize).mergeMmKwargs recompute content flagged c =
          .ok merged c') ↔
        MarkedItemsFit size c.maxsize
          ((flagged.flatMap Prod.snd).foldl (fun c i => c.touch i.1.hash) c).keys
          (flagged.flatMap Prod.snd))) ∧
    ∀ (c : Lru H (V × List U)) flagged, c.Sized size → (c.keys.map size).sum ≤ c.maxsize →
      (processorOnlyCache getItemSize).getCacheMissingItems c inputs = .ok flagged →
      ((∃ merged c', (processorOnlyCache getItemSize).mergeMmKwargs recompute content flagged c =
          .ok merged c') ↔
        MarkedItemsFit size c.maxsize
          ((flagged.flatMap Prod.snd).foldl (fun c i => c.touch i.1.hash) c).keys
          (flagged.flatMap Prod.snd)) :=
  ⟨fun _ _ hsized hfits => (senderCache_onLru getItemSize).mergeMmKwargs_iff recompute hsized hfits,
    fun _ _ hsized hfits =>
      (processorOnlyCache_onLru getItemSize).mergeMmKwargs_iff recompute hsized hfits⟩

/-- A missing item of size 2 and a cached one of size 1 fit together into a cache of size 3. -/
theorem cached_item_kept_beside_missing_item : ∃ flagged merged c',
    (processorOnlyCache (U := Unit) fun n : ℕ => n).getCacheMissingItems ((Lru.new 3).putIfFits 1 (1, []) 1).2
        [("image", [⟨2, 0, true⟩, ⟨1, 5, false⟩])] = .ok flagged ∧
      (processorOnlyCache fun n : ℕ => n).mergeMmKwargs (fun u _ => u)
        (fun h => (h, ([] : List Unit))) flagged ((Lru.new 3).putIfFits 1 (1, []) 1).2 =
          .ok merged c' := by
  obtain ⟨merged, c', hmerge⟩ := ((cached_items_kept (fun n : ℕ => n) (fun u _ => u)
    (fun h => (h, ([] : List Unit))) [("image", [⟨2, 0, true⟩, ⟨1, 5, false⟩])]).2
      ((Lru.new 3).putIfFits 1 (1, []) 1).2 _ (by unfold Lru.Sized; decide) (by decide) rfl).2
      (by decide)
  exact ⟨_, merged, c', rfl, hmerge⟩

/-- In a cache of size 2 the missing item drops the cached one, and the assertion fails. -/
theorem cached_item_dropped : let inputs : MmInputs ℕ := [("image", [⟨2, 0, true⟩, ⟨1, 5, false⟩])]
    let only := processorOnlyCache (H := ℕ) (U := Unit) fun n : ℕ => n
    let sender := senderCache (H := ℕ) (U := Unit) fun n : ℕ => n
    (∃ flagged c, only.getCacheMissingItems ((Lru.new 2).putIfFits 1 (1, []) 1).2 inputs =
        .ok flagged ∧ only.mergeMmKwargs (fun u _ => u) (fun h => (h, [])) flagged
          ((Lru.new 2).putIfFits 1 (1, []) 1).2 = .error (.expectedCached 1) c) ∧
    ∃ flagged c, sender.getCacheMissingItems ((Lru.new 2).putIfFits 1 (1, []) 1).2 inputs =
        .ok flagged ∧ sender.mergeMmKwargs (fun u _ => u) (fun h => (h, [])) flagged
          ((Lru.new 2).putIfFits 1 (1, []) 1).2 = .error (.expectedCached 1) c :=
  ⟨⟨_, _, rfl, rfl⟩, _, _, rfl, rfl⟩

end Lvllm
