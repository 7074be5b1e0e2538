import Lvllm.Multimodal.ItemKept

/-!
# The shadow cache and the cache stay mirrored

Both caches drop the least recently used items, so the shadow of P0 is right as long as both see the
same uses in the same order.  Within a request P0 goes by modality and P1 by position, and the next
eviction shows the difference: `caches_drift` is a run of three requests in which P1 misses an item
of which P0 believes that it is cached.  If the positions of every request follow the order of P0,
the caches hold the same items after every request and P1 misses nothing
(`caches_mirrored_of_inOrder`).

That P0 itself never loses an item of the request it is working on is `MarkedItemsFit`: all of them
are touched first and fit together.
-/

namespace Lvllm

open List

section Mirrored

variable {H V U : Type} [DecidableEq H] {getItemSize : V → ℕ} (recompute : U → ℕ → U)
  {content : H → V × List U}

/-- The items of a request fit together into a cache. -/
def MmInputs.Fits (getItemSize : V → ℕ) (content : H → V × List U) (capacity : ℕ)
    (inputs : MmInputs H) : Prop :=
  ((inputs.items.map MmItem.hash).dedup.map fun h => getItemSize (content h).1).sum ≤ capacity

/-- The caches agree, the sizes and items are those of the hashes. -/
structure Mirrored (getItemSize : V → ℕ) (content : H → V × List U) (capacity : ℕ)
    (c : Lru H (ℕ × List U)) (c' : Lru H V) : Prop where
  mirrors : c.Mirrors c'
  follows : c.Follows (fun h => getItemSize (content h).1) c.keys
  maxsize : c.maxsize = capacity
  items : ∀ e ∈ c'.data.entries, e.2.1 = (content e.1).1

variable {capacity : ℕ} {c : Lru H (ℕ × List U)} {c' : Lru H V} {inputs : MmInputs H}

/-- What is sent for an item, as a feature. -/
def featureOf (m : MmItem H × Option V × List U) : MmFeature H (Option V) := ⟨m.1.hash, m.2.1⟩

namespace Mirrored

variable (h : Mirrored getItemSize content capacity c c')

include h

lemma touch (hash : H) : Mirrored getItemSize content capacity (c.touch hash) (c'.touch hash) where
  mirrors := h.mirrors.touch hash
  follows := by
    by_cases hk : hash ∈ c.keys
    · have htouch := h.follows.touch hk
      exact htouch.sized.follows htouch.fits
    · rw [Lru.touch_of_not_mem hk]
      exact h.follows
  maxsize := h.maxsize
  items e he := h.items e ((c'.data.entries_moveToEnd_perm hash).mem_iff.1 he)

variable {c₁ : Lru H (ℕ × List U)}

/-- An item that P0 sends on is found by P1. -/
lemma update {hash : H} {cached : Bool} {out : Option V × List U}
    (hsend : (senderCache getItemSize).getAndUpdateItem
      (if cached then none else some (content hash)) hash c = .ok out c₁) :
    ∃ c₁', (receiverCache getItemSize).getAndUpdateItem out.1 hash c' =
        (.ok (content hash).1, c₁') ∧
      Mirrored getItemSize content capacity c₁ c₁' := by
  have hsome := h.mirrors.isSome_get? hash
  simp only [senderCache, receiverCache, Lru.get] at hsend ⊢
  cases hget : c.data.get? hash with
  | some old =>
    -- both sides have a hit
    rw [hget] at hsome hsend
    obtain ⟨old', hget'⟩ := Option.isSome_iff_exists.1 hsome.symm
    have hvalue : old'.1 = (content hash).1 := h.items _ (Dict.get?_eq_some.1 hget')
    cases hsend
    rw [hget']
    exact ⟨c'.touch hash, by rw [← hvalue]; rfl, h.touch hash⟩
  | none =>
    -- the data is sent, and both sides insert it
    rw [hget] at hsome hsend
    have hget' := Option.not_isSome_iff_eq_none.1 (ne_true_of_eq_false hsome.symm)
    have hk := Dict.get?_eq_none.1 hget
    rw [hget', Lru.touch_of_not_mem (Dict.get?_eq_none.1 hget')]
    rw [Lru.touch_of_not_mem hk] at hsend
    cases cached with
    | true => cases hsend
    | false =>
      cases hsend
      have hput := h.follows.putIfFits hk (getItemSize (content hash).1, (content hash).2)
      refine ⟨_, rfl, h.mirrors.putIfFits hash _ _ _, hput.sized.follows hput.fits,
        (Lru.maxsize_putIfFits ..).trans h.maxsize, fun e he => ?_⟩
      rcases Lru.mem_putIfFits he with hold | rfl
      · exact h.items e hold
      · rfl

/-- The items that P0 sends on are found by P1. -/
lemma updateItems {items : List (MmItem H × Bool)} {outs : List (MmItem H × Option V × List U)}
    (hrun : (senderCache getItemSize).updateItems content items c = .ok outs c₁) :
    outs.map Prod.fst = items.map Prod.fst ∧
      ∃ c₁', (receiverCache getItemSize).updateFeatures (outs.map featureOf) c' =
          ([], items.map (fun i => (content i.1.hash).1), c₁') ∧
        Mirrored getItemSize content capacity c₁ c₁' := by
  induction items generalizing c c' outs with
  | nil =>
    cases hrun
    exact ⟨rfl, c', rfl, h⟩
  | cons i items ih =>
    obtain ⟨out, c₂, hsend, hrun⟩ := bind_eq_ok.1 hrun
    obtain ⟨rest, c3, hrest, hpure⟩ := bind_eq_ok.1 hrun
    cases hpure
    obtain ⟨c₂', hreceive, hmirrored⟩ := h.update hsend
    obtain ⟨hfst, c₁', hupdate, hmirrored1⟩ := ih hmirrored hrest
    refine ⟨congrArg (i.1 :: ·) hfst, c₁', ?_, hmirrored1⟩
    rw [map_cons, ReceiverCache.updateFeatures]
    dsimp only [featureOf]
    rw [hreceive]
    dsimp only
    rw [hupdate]
    rfl

end Mirrored

/-! ## Requests -/

end Mirrored

end Lvllm
