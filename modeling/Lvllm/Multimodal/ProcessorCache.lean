import Lvllm.Foundation.StateExcept
import Mathlib.Data.List.Sort
import Lvllm.Foundation.Lru

/-!
# The multi-modal caches of the frontend and of the engine

The frontend process (P0) processes the multi-modal items of a request and keeps a shadow of the
cache in which the engine process (P1) holds the processed items.  An item of which the shadow says
that P1 has it is sent without its data.

P0 visits the items modality by modality (`mergeMmKwargs`); P1 visits them in the order of their
positions in the prompt (`mmFeatures`, `getAndUpdateFeatures`).
-/

namespace Lvllm

/-- A multi-modal item of a request: its hash, the offset of its placeholder in the prompt, and
whether its data came with the request (or only its hash). -/
structure MmItem (H : Type) where
  hash : H
  offset : ℕ
  provided : Bool
deriving DecidableEq

/-- The items of a request by modality, in the order of the dictionaries `mm_hashes` and
`mm_placeholders`. -/
abbrev MmInputs (H : Type) := List (String × List (MmItem H))

/-- All items in the order in which P0 visits them. -/
def MmInputs.items {H : Type} (inputs : MmInputs H) : List (MmItem H) := inputs.flatMap Prod.snd

lemma MmInputs.flatMap_marked {H B : Type} (inputs : MmInputs H) (mark : MmItem H → B) :
    (inputs.map fun m => (m.1, m.2.map fun item => (item, mark item))).flatMap Prod.snd =
      inputs.items.map fun item => (item, mark item) := by
  unfold MmInputs.items
  rw [List.flatMap_map, List.map_flatMap]

/-- What goes wrong on P0. -/
inductive MmError (H : Type) where
  /-- `ValueError`: "Cache miss for {modality} at index {idx} but data is not provided." -/
  | notProvided (modality : String) (index : ℕ)
  /-- `AssertionError`: "Expected a cached item for {mm_hash}" -/
  | expectedCached (hash : H)
  /-- `IndexError` of `missing_kwargs[missing_next_idx]`. -/
  | noMissingItem
deriving DecidableEq

/-! ## P0 -/

/-- What `_merge_mm_kwargs` calls of a `BaseMultiModalProcessorCache`: `I` is an item with its prompt
updates, `O` what is sent instead of it. -/
structure ProcessorCache (H I O C : Type) where
  isCachedItem : C → H → Bool
  getAndUpdateItem : Option I → H → EStateM (MmError H) C O
  touchSenderCacheItem : H → C → C

namespace ProcessorCache

variable {H V U A C : Type} (ops : ProcessorCache H (V × List U) (A × List U) C)
  {items : List (MmItem H × Bool)}

/-- The check of `_get_cache_missing_items` on the items of one modality, from index `idx` on. -/
def checkProvided (modality : String) : ℕ → List (MmItem H × Bool) → Except (MmError H) Unit
  | _, [] => .ok ()
  | idx, (item, cached) :: items =>
    if cached = false ∧ item.provided = false then .error (.notProvided modality idx)
    else checkProvided modality (idx + 1) items

/-- `_get_cache_missing_items`: which items are cached; those that are not must be provided. -/
def getCacheMissingItems (c : C) (inputs : MmInputs H) :
    Except (MmError H) (List (String × List (MmItem H × Bool))) := do
  let flagged := inputs.map fun m => (m.1, m.2.map fun item => (item, ops.isCachedItem c item.hash))
  flagged.forM fun m => checkProvided m.1 0 m.2
  pure flagged

/-- The inner loop of `_merge_mm_kwargs` over the items of one modality, with the index of the item
and the processed items that were missing. -/
def mergeItems (recompute : U → ℕ → U) : ℕ → List (MmItem H × Bool) → List (V × List U) →
    EStateM (MmError H) C (List (A × List U))
  | _, [], _ => pure []
  | idx, (item, true) :: items, missing => do
    let (kwargs, updates) ← ops.getAndUpdateItem none item.hash
    let merged ← mergeItems recompute (idx + 1) items missing
    pure ((kwargs, updates.map fun u => recompute u idx) :: merged)
  | idx, (item, false) :: items, m :: missing => do
    let (kwargs, updates) ← ops.getAndUpdateItem (some m) item.hash
    let merged ← mergeItems recompute (idx + 1) items missing
    pure ((kwargs, updates.map fun u => recompute u idx) :: merged)
  | _, (_, false) :: _, [] => throw .noMissingItem

/-- The outer loop of `_merge_mm_kwargs` over the modalities; `content` is what the processor makes
of an item. -/
def mergeModalities (recompute : U → ℕ → U) (content : H → V × List U) :
    List (String × List (MmItem H × Bool)) →
      EStateM (MmError H) C (List (List (MmItem H × A × List U)))
  | [] => pure []
  | (_, items) :: modalities => do
    let merged ← ops.mergeItems recompute 0 items
      ((items.filter fun i => !i.2).map fun i => content i.1.hash)
    let rest ← mergeModalities recompute content modalities
    pure ((items.map Prod.fst).zip merged :: rest)

/-- `_merge_mm_kwargs`: all items are touched before the first one is updated. -/
def mergeMmKwargs (recompute : U → ℕ → U) (content : H → V × List U)
    (flagged : List (String × List (MmItem H × Bool))) :
    EStateM (MmError H) C (List (List (MmItem H × A × List U))) := do
  modify fun c => (flagged.flatMap Prod.snd).foldl
    (fun c i => ops.touchSenderCacheItem i.1.hash c) c
  ops.mergeModalities recompute content flagged

/-! ### Which items are cached -/

omit ops in
lemma checkProvided_error {modality : String} {idx : ℕ}
    {e : MmError H} (h : checkProvided modality idx items = .error e) :
    ∃ index, e = .notProvided modality index := by
  induction items generalizing idx with
  | nil => cases h
  | cons i items ih =>
    rw [checkProvided] at h
    split at h
    · cases h
      exact ⟨idx, rfl⟩
    · exact ih h

omit ops in
lemma forM_checkProvided (flagged : List (String × List (MmItem H × Bool))) :
    (flagged.forM fun m => checkProvided m.1 0 m.2) = .ok () ∨
    ∃ modality index, (flagged.forM fun m => checkProvided m.1 0 m.2) =
      .error (MmError.notProvided modality index) := by
  induction flagged with
  | nil => exact .inl rfl
  | cons m flagged ih =>
    show (checkProvided m.1 0 m.2 >>= fun _ => flagged.forM _) = _ ∨
      ∃ modality index, (checkProvided m.1 0 m.2 >>= fun _ => flagged.forM _) = _
    cases hm : checkProvided m.1 0 m.2 with
    | error e =>
      obtain ⟨index, rfl⟩ := checkProvided_error hm
      exact .inr ⟨m.1, index, rfl⟩
    | ok u => exact ih

/-- P0 goes on with all items, each marked with whether it is cached, or rejects the request because
an item is not provided. -/
lemma getCacheMissingItems_cases (c : C) (inputs : MmInputs H) : ops.getCacheMissingItems c inputs =
      .ok (inputs.map fun m => (m.1, m.2.map fun item => (item, ops.isCachedItem c item.hash))) ∨
    ∃ modality index, ops.getCacheMissingItems c inputs = .error (.notProvided modality index) := by
  unfold getCacheMissingItems
  dsimp only
  rcases forM_checkProvided (inputs.map fun m =>
    (m.1, m.2.map fun item => (item, ops.isCachedItem c item.hash))) with
      hok | ⟨modality, index, herror⟩
  · left
    rw [hok]
    rfl
  · right
    refine ⟨modality, index, ?_⟩
    rw [herror]
    rfl

/-- P0 goes on with all items, each marked with whether it is cached. -/
lemma flagged_eq {c : C} {inputs : MmInputs H} {flagged : List (String × List (MmItem H × Bool))}
    (h : ops.getCacheMissingItems c inputs = .ok flagged) : flagged =
      inputs.map fun m => (m.1, m.2.map fun item => (item, ops.isCachedItem c item.hash)) := by
  rcases ops.getCacheMissingItems_cases c inputs with heq | ⟨modality, index, heq⟩
  · exact Except.ok.inj (h.symm.trans heq)
  · cases h.symm.trans heq

/-! ### The items one after the other -/

/-- The items in a row, without modalities and indices. -/
def updateItems (content : H → V × List U) :
    List (MmItem H × Bool) → EStateM (MmError H) C (List (MmItem H × A × List U))
  | [] => pure []
  | i :: items => do
    let out ← ops.getAndUpdateItem (if i.2 then none else some (content i.1.hash)) i.1.hash
    let outs ← updateItems content items
    pure ((i.1, out) :: outs)

variable {ops} {content : H → V × List U} (recompute : U → ℕ → U) {c c₁ : C}
  {outs : List (MmItem H × A × List U)}

omit recompute in
lemma updateItems_append {xs ys : List (MmItem H × Bool)}
    (h : ops.updateItems content (xs ++ ys) c = .ok outs c₁) :
    ∃ os c₂ os', ops.updateItems content xs c = .ok os c₂ ∧
      ops.updateItems content ys c₂ = .ok os' c₁ ∧ outs = os ++ os' := by
  induction xs generalizing c outs with
  | nil => exact ⟨[], c, outs, rfl, h, rfl⟩
  | cons i xs ih =>
    obtain ⟨out, c₂, hget, h⟩ := bind_eq_ok.1 h
    obtain ⟨rest, c3, hrest, hpure⟩ := bind_eq_ok.1 h
    cases hpure
    obtain ⟨os, c₂, os', hxs, hys, rfl⟩ := ih hrest
    exact ⟨(i.1, out) :: os, c₂, os', (bind_ok hget).trans (bind_ok hxs), hys, rfl⟩

omit recompute in
lemma updateItems_append_ok {xs ys : List (MmItem H × Bool)} {os os' : List (MmItem H × A × List U)}
    {c₂ : C} (hxs : ops.updateItems content xs c = .ok os c₂)
    (hys : ops.updateItems content ys c₂ = .ok os' c₁) :
    ops.updateItems content (xs ++ ys) c = .ok (os ++ os') c₁ := by
  induction xs generalizing c os with
  | nil =>
    cases hxs
    exact hys
  | cons i xs ih =>
    obtain ⟨out, c3, hget, h⟩ := bind_eq_ok.1 hxs
    obtain ⟨rest, c4, hrest, hpure⟩ := bind_eq_ok.1 h
    cases hpure
    exact (bind_ok hget).trans (bind_ok (ih hrest))

/-- The loop over one modality gives the cache the items that were missing. -/
lemma mergeItems_ok (h : ops.updateItems content items c = .ok outs c₁) (idx : ℕ) :
    ∃ merged, ops.mergeItems recompute idx items
        ((items.filter fun i => !i.2).map fun i => content i.1.hash) c = .ok merged c₁ ∧
      ((items.map Prod.fst).zip merged).map (fun m => (m.1, m.2.1)) =
        outs.map fun m => (m.1, m.2.1) := by
  induction items generalizing idx c outs with
  | nil =>
    cases h
    exact ⟨[], rfl, rfl⟩
  | cons i items ih =>
    obtain ⟨out, c₂, hget, h⟩ := bind_eq_ok.1 h
    obtain ⟨rest, c3, hrest, hpure⟩ := bind_eq_ok.1 h
    cases hpure
    obtain ⟨merged, hmerge, hfst⟩ := ih hrest (idx + 1)
    refine ⟨(out.1, out.2.map fun u => recompute u idx) :: merged, ?_, by simp [hfst]⟩
    obtain ⟨item, cached⟩ := i
    cases cached with
    | true | false => exact (bind_ok hget).trans (bind_ok hmerge)

/-- The loop over all modalities updates all items in a row. -/
lemma mergeModalities_ok {modalities : List (String × List (MmItem H × Bool))}
    (h : ops.updateItems content (modalities.flatMap Prod.snd) c = .ok outs c₁) :
    ∃ merged, ops.mergeModalities recompute content modalities c = .ok merged c₁ ∧
      merged.flatten.map (fun m => (m.1, m.2.1)) = outs.map fun m => (m.1, m.2.1) := by
  induction modalities generalizing c outs with
  | nil =>
    cases h
    exact ⟨[], rfl, rfl⟩
  | cons m modalities ih =>
    obtain ⟨os, c₂, os', hitems, hrest, rfl⟩ := updateItems_append h
    obtain ⟨merged, hmerge, hfst⟩ := mergeItems_ok recompute hitems 0
    obtain ⟨rest, hmerge', hfst'⟩ := ih hrest
    exact ⟨_, (bind_ok hmerge).trans (bind_ok hmerge'), by simp [hfst, hfst']⟩

variable {recompute}

/-- Where the loop over one modality comes to its end, so do the updates. -/
lemma updateItems_of_mergeItems {idx : ℕ} {merged : List (A × List U)}
    (h : ops.mergeItems recompute idx items
      ((items.filter fun i => !i.2).map fun i => content i.1.hash) c = .ok merged c₁) :
    ∃ outs, ops.updateItems content items c = .ok outs c₁ := by
  induction items generalizing idx c merged with
  | nil =>
    cases h
    exact ⟨[], rfl⟩
  | cons i items ih =>
    obtain ⟨item, cached⟩ := i
    cases cached with
    | true | false =>
      obtain ⟨out, c₂, hget, h⟩ := bind_eq_ok.1 h
      obtain ⟨rest, c3, hrest, hpure⟩ := bind_eq_ok.1 h
      cases hpure
      obtain ⟨outs, houts⟩ := ih hrest
      exact ⟨_, (bind_ok hget).trans (bind_ok houts)⟩

/-- Where the loop over all modalities comes to its end, so do the updates. -/
lemma updateItems_of_mergeModalities {modalities : List (String × List (MmItem H × Bool))}
    {merged : List (List (MmItem H × A × List U))}
    (h : ops.mergeModalities recompute content modalities c = .ok merged c₁) :
    ∃ outs, ops.updateItems content (modalities.flatMap Prod.snd) c = .ok outs c₁ := by
  induction modalities generalizing c merged with
  | nil =>
    cases h
    exact ⟨[], rfl⟩
  | cons m modalities ih =>
    obtain ⟨out, c₂, hitems, h⟩ := bind_eq_ok.1 h
    obtain ⟨rest, c3, hrest, hpure⟩ := bind_eq_ok.1 h
    cases hpure
    obtain ⟨os, hos⟩ := updateItems_of_mergeItems hitems
    obtain ⟨os', hos'⟩ := ih hrest
    exact ⟨os ++ os', updateItems_append_ok hos hos'⟩

end ProcessorCache

/-- What P1 gets of an item: `MultiModalFeatureSpec` with its hash and what was sent for it. -/
structure MmFeature (H A : Type) where
  hash : H
  data : A

/-- The features of a request, sorted by the offsets of their placeholders as
`argsort_mm_positions` does; items with the same offset stay in the order of P0. -/
def mmFeatures {H A U : Type} (merged : List (List (MmItem H × A × List U))) :
    List (MmFeature H A) :=
  (merged.flatten.insertionSort fun a b => a.1.offset ≤ b.1.offset).map
    fun m => ⟨m.1.hash, m.2.1⟩

/-! ## P1 -/

/-- What `get_and_update_features` calls of a `BaseMultiModalReceiverCache`: `A` is what was sent for
an item, `V` the item; an update fails with the hash that is missing. -/
structure ReceiverCache (H A V C : Type) where
  touchReceiverCacheItem : H → A → C → C
  getAndUpdateItem : A → H → C → Except H V × C

namespace ReceiverCache

variable {H A V C : Type} (ops : ReceiverCache H A V C)

/-- The second loop of `get_and_update_features`: the hashes that are missing, and the items. -/
def updateFeatures : List (MmFeature H A) → C → List H × List V × C
  | [], c => ([], [], c)
  | f :: features, c =>
    match ops.getAndUpdateItem f.data f.hash c with
    | (.error hash, c) =>
      let (missing, items, c) := updateFeatures features c
      (hash :: missing, items, c)
    | (.ok item, c) =>
      let (missing, items, c) := updateFeatures features c
      (missing, item :: items, c)

end ReceiverCache

/-! ## The caches with a shadow -/

section Caches

variable {H V U : Type} [DecidableEq H] (getItemSize : V → ℕ)

/-- `MultiModalProcessorSenderCache`: the sizes and prompt updates of the items that P1 holds.  A hit
is sent without data. -/
def senderCache :
    ProcessorCache H (V × List U) (Option V × List U) (Lru H (ℕ × List U)) where
  isCachedItem c hash := c.contains hash
  getAndUpdateItem item hash := fun c =>
    match c.get hash with
    | (some (_, updates), c) => .ok (none, updates) c
    | (none, c) =>
      match item with
      | none => .error (.expectedCached hash) c
      | some (kwargs, updates) =>
        let size := getItemSize kwargs
        .ok (some kwargs, updates) (c.putIfFits hash (size, updates) size).2
  touchSenderCacheItem hash c := c.touch hash

/-- `MultiModalReceiverCache`: the items. -/
def receiverCache : ReceiverCache H (Option V) V (Lru H V) where
  touchReceiverCacheItem hash _ c := c.touch hash
  getAndUpdateItem data hash c :=
    match c.get hash with
    | (some item, c) => (.ok item, c)
    | (none, c) =>
      match data with
      | none => (.error hash, c)
      | some item => (.ok item, (c.putIfFits hash item (getItemSize item)).2)

/-- The caches of P0 and P1. -/
structure MmCaches (H V U : Type) where
  sender : Lru H (ℕ × List U)
  receiver : Lru H V

/-- Both caches empty, with the same capacity. -/
def MmCaches.new (capacity : ℕ) : MmCaches H V U := ⟨.new capacity, .new capacity⟩

variable (recompute : U → ℕ → U) (content : H → V × List U)

end Caches

end Lvllm
