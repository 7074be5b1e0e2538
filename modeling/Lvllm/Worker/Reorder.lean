import Lvllm.Foundation.Dict
import Mathlib.Data.Fintype.EquivFin
import Mathlib.GroupTheory.Perm.Support

/-!
# Reordering a batch

`reorder_batch_to_split_decodes_and_prefills` puts the requests of a batch into four regions.  The
requests outside their region are sorted by region, which gives a destination for each of them; the
resulting permutation is carried out cycle by cycle by calls of `swap_states`.
-/

namespace Lvllm

open Equiv

variable {n : ℕ} {D M : Type}

/-- A request of an `InputBatch`: what the reordering reads, and its entries in the other columns
that `swap_states` exchanges. -/
structure BatchRow (D : Type) where
  reqId : String
  numPromptTokens : ℕ
  numComputedTokens : ℕ
  data : D

/-- `InputBatch`, with the moves that `batch_update_builder` records and the rows of
`allowed_token_ids_mask_cpu_tensor`, which is allocated with the first request that needs it. -/
structure InputBatch (n : ℕ) (D M : Type) where
  rows : Fin n → BatchRow D
  isPoolingModel : Bool := false
  moved : List (Fin n × Fin n) := []
  allowedTokenIdsMask : Option (Fin n → M) := none

/-- The last statement of `swap_states`.  The rows of the mask are views: the second assignment reads
the row that the first one has overwritten. -/
def swapMaskRows (mask : Fin n → M) (i : Fin n × Fin n) : Fin n → M :=
  let mask := Function.update mask i.1 (mask i.2)
  Function.update mask i.2 (mask i.1)

/-- `InputBatch.swap_states`. -/
def InputBatch.swapStates (b : InputBatch n D M) (i : Fin n × Fin n) : InputBatch n D M :=
  let b := { b with rows := b.rows ∘ swap i.1 i.2 }
  if b.isPoolingModel then b
  else { b with
    moved := b.moved ++ [i]
    allowedTokenIdsMask := b.allowedTokenIdsMask.map (swapMaskRows · i) }

/-- `req_regions`: decode, short extend, long extend, prefill. -/
def region (threshold : ℕ) (numScheduledTokens : String → ℕ) (r : BatchRow D) : ℕ :=
  let hasContext := r.numComputedTokens > 0
  let isBelowThreshold := numScheduledTokens r.reqId ≤ threshold
  let donePrefilling := r.numComputedTokens ≥ r.numPromptTokens
  if ¬hasContext then 3
  else if ¬isBelowThreshold then 2
  else if ¬donePrefilling then 1
  else 0

/-- `target_regions`: each region as often as the batch has requests of it. -/
def targetRegions (regions : List ℕ) : List ℕ :=
  [0, 1, 2, 3].flatMap fun k => List.replicate (regions.count k) k

section Plan

variable (reg : Fin n → ℕ)

/-- The entry of `target_regions` at an index. -/
def targetAt (i : Fin n) : ℕ := (targetRegions ((List.finRange n).map reg)).getD i 0

/-- `orig_indices`: the indices with `needs_swap`. -/
def origIndices : List (Fin n) := (List.finRange n).filter fun i => reg i ≠ targetAt reg i

/-- `src_indices`: the same indices, sorted by region. -/
def srcIndices : List (Fin n) := (origIndices reg).insertionSort fun i j => reg i ≤ reg j

lemma srcIndices_perm : (srcIndices reg).Perm (origIndices reg) := List.perm_insertionSort _ _

lemma nodup_origIndices : (origIndices reg).Nodup := (List.nodup_finRange n).filter _

/-- `src_dest_map`. -/
def srcDestMap : Dict (Fin n) (Fin n) where
  entries := (srcIndices reg).zip (origIndices reg)
  nodup := by
    rw [List.map_fst_zip (srcIndices_perm reg).length_eq.le]
    exact (srcIndices_perm reg).nodup_iff.2 (nodup_origIndices reg)

lemma mem_keys_srcDestMap {i : Fin n} : i ∈ (srcDestMap reg).keys ↔ reg i ≠ targetAt reg i := by
  rw [show (srcDestMap reg).keys = srcIndices reg from
    List.map_fst_zip (srcIndices_perm reg).length_eq.le, (srcIndices_perm reg).mem_iff]
  simp [origIndices]

end Plan

/-- The `while` loop for one key: the calls of `swap_states`, and the map afterwards. -/
def cycleSwaps (src : Fin n) :
    ℕ → Fin n → Dict (Fin n) (Fin n) → Option (List (Fin n × Fin n) × Dict (Fin n) (Fin n))
  | 0, dst, map => if src = dst then some ([], map) else none
  | fuel + 1, dst, map =>
    if src = dst then some ([], map)
    else do
      let (calls, map) ← cycleSwaps src fuel ((map.get? dst).getD dst) (map.set dst dst)
      some ((src, dst) :: calls, map)

/-- The loop over the keys.  Only values are set, so the keys stay those of the start. -/
def allSwaps : List (Fin n) → Dict (Fin n) (Fin n) → Option (List (Fin n × Fin n))
  | [], _ => some []
  | src :: keys, map => do
    let dst ← map.get? src
    let (calls, map) ← cycleSwaps src n dst map
    let rest ← allSwaps keys map
    some (calls ++ rest)

/-- `reorder_batch_to_split_decodes_and_prefills`: its result, and its calls of `swap_states`. -/
def reorderBatchToSplitDecodesAndPrefills (numScheduledTokens : String → ℕ) (threshold : ℕ)
    (b : InputBatch n D M) : Option (Bool × List (Fin n × Fin n)) :=
  let reg i := region threshold numScheduledTokens (b.rows i)
  if origIndices reg = [] then some (false, [])
  else (allSwaps (srcDestMap reg).keys (srcDestMap reg)).map (true, ·)

/-! ## The cycles -/

/-- The permutation that calls of `swap_states` carry out. -/
def callsPerm (calls : List (Fin n × Fin n)) : Perm (Fin n) :=
  (calls.map fun i => swap i.1 i.2).prod

/-- Calls of `swap_states` permute the batch, but for the mask. -/
lemma foldl_swapStates (b : InputBatch n D M) (calls : List (Fin n × Fin n)) :
    calls.foldl InputBatch.swapStates b = { b with
      rows := b.rows ∘ callsPerm calls
      moved := b.moved ++ if b.isPoolingModel then [] else calls
      allowedTokenIdsMask := if b.isPoolingModel then b.allowedTokenIdsMask
        else b.allowedTokenIdsMask.map fun mask => calls.foldl swapMaskRows mask } := by
  induction calls generalizing b with
  | nil => simp [callsPerm]
  | cons i calls ih =>
    rw [List.foldl_cons, ih]
    simp only [InputBatch.swapStates, callsPerm, List.map_cons, List.prod_cons]
    split <;> simp_all [Function.comp_def]

/-- Calls that carry out a permutation: each exchanges an index with its destination under what is
left of it. -/
inductive Carries : Perm (Fin n) → List (Fin n × Fin n) → Prop
  | nil (π : Perm (Fin n)) : Carries π []
  | cons {π : Perm (Fin n)} {calls : List (Fin n × Fin n)} (i : Fin n) (hi : π i ≠ i)
      (h : Carries (π * swap i (π i)) calls) : Carries π ((i, π i) :: calls)

namespace Carries

variable {π : Perm (Fin n)} {calls rest : List (Fin n × Fin n)}

lemma append (h : Carries π calls) (hrest : Carries (π * callsPerm calls) rest) :
    Carries π (calls ++ rest) := by
  induction h with
  | nil π => simpa [callsPerm] using hrest
  | cons i hi h ih => exact .cons i hi (ih (by simpa [callsPerm, mul_assoc] using hrest))

/-- An index that is not to be moved keeps its place and its mask. -/
lemma fixed (h : Carries π calls) {j : Fin n} (hj : π j = j) (mask : Fin n → M) :
    callsPerm calls j = j ∧ calls.foldl swapMaskRows mask j = mask j := by
  induction h generalizing mask with
  | nil π => exact ⟨rfl, rfl⟩
  | @cons π calls i hi h ih =>
    have hne : j ≠ i := fun heq => hi (heq ▸ hj)
    have hne' : j ≠ π i := fun heq => hi (π.injective (heq ▸ hj))
    obtain ⟨hperm, hmask⟩ := ih (by rw [Perm.mul_apply, swap_apply_of_ne_of_ne hne hne', hj])
      (swapMaskRows mask (i, π i))
    constructor
    · rw [callsPerm, List.map_cons, List.prod_cons, Perm.mul_apply, ← callsPerm, hperm,
        swap_apply_of_ne_of_ne hne hne']
    · rw [List.foldl_cons, hmask]
      simp [swapMaskRows, hne, hne']

/-- The masks follow the requests exactly if each request has the mask of its destination. -/
lemma mask_iff (h : Carries π calls) (hone : π * callsPerm calls = 1) (mask : Fin n → M) :
    calls.foldl swapMaskRows mask = mask ∘ callsPerm calls ↔ ∀ j, mask (π j) = mask j := by
  induction h generalizing mask with
  | nil π =>
    obtain rfl : π = 1 := by simpa [callsPerm] using hone
    simp [callsPerm]
  | @cons π calls i hi h ih =>
    have hrest : π * swap i (π i) * callsPerm calls = 1 := by
      simpa [callsPerm, mul_assoc] using hone
    have hdst : (π * swap i (π i)) (π i) = π i := by rw [Perm.mul_apply, swap_apply_right]
    -- If the two masks are the same, the call changes nothing.
    have hsame (heq : mask (π i) = mask i) : swapMaskRows mask (i, π i) = mask ∧
        ∀ j, mask (swap i (π i) j) = mask j := by
      refine ⟨by simp [swapMaskRows, heq], fun j => ?_⟩
      rw [swap_apply_def]
      split_ifs <;> simp_all
    have hperm : callsPerm ((i, π i) :: calls) = swap i (π i) * callsPerm calls := by
      simp [callsPerm]
    constructor
    · intro hmask
      have heq : mask (π i) = mask i := by
        have hat := congrFun hmask (π i)
        obtain ⟨hfix, hkeep⟩ := h.fixed hdst (swapMaskRows mask (i, π i))
        rw [List.foldl_cons, hkeep, hperm, Function.comp_apply, Perm.mul_apply, hfix,
          swap_apply_right] at hat
        simpa [swapMaskRows] using hat
      obtain ⟨hswap, hinv⟩ := hsame heq
      have hall := (ih hrest mask).1 (by
        rw [List.foldl_cons, hswap, hperm] at hmask
        rw [hmask]
        exact funext fun j => hinv _)
      intro j
      have := hall (swap i (π i) j)
      rwa [Perm.mul_apply, swap_apply_self, hinv] at this
    · intro hall
      obtain ⟨hswap, hinv⟩ := hsame (hall i)
      rw [List.foldl_cons, hswap, (ih hrest mask).2 fun j => by rw [Perm.mul_apply, hall, hinv],
        hperm]
      exact funext fun j => (hinv _).symm

end Carries

/-- The calls for one key settle it, and every destination that they meet. -/
lemma cycleSwaps_spec {src : Fin n} {keys : List (Fin n)} (hsrc : src ∉ keys) (fuel : ℕ)
    {π : Perm (Fin n)} {map : Dict (Fin n) (Fin n)} (hmap : ∀ i ∈ keys, map.get? i = some (π i))
    (hmoved : ∀ i, π i ≠ i → i = src ∨ i ∈ keys) (hfuel : π.support.card ≤ fuel) :
    ∃ calls map', cycleSwaps src fuel (π src) map = some (calls, map') ∧
      Carries π calls ∧ (∀ i ∈ keys, map'.get? i = some ((π * callsPerm calls) i)) ∧
      ∀ i, (π * callsPerm calls) i ≠ i → i ∈ keys := by
  induction fuel generalizing π map with
  | zero =>
    have hone : π = 1 := Perm.card_support_eq_zero.1 (Nat.le_zero.1 hfuel)
    subst hone
    exact ⟨[], map, by simp [cycleSwaps], .nil 1, by simpa [callsPerm] using hmap, by simp [callsPerm]⟩
  | succ fuel ih =>
    by_cases hfix : src = π src
    · refine ⟨[], map, by simp [cycleSwaps, ← hfix], .nil π, by simpa [callsPerm] using hmap, ?_⟩
      intro i hi
      rw [callsPerm, List.map_nil, List.prod_nil, mul_one] at hi
      exact (hmoved i hi).resolve_left fun heq => hi (heq ▸ hfix.symm)
    · -- The call settles `π src`, so the rest of the permutation moves fewer indices.
      have hdst : π (π src) ≠ π src := fun heq => hfix (π.injective heq).symm
      have hkey : π src ∈ keys := (hmoved _ hdst).resolve_left fun heq => hfix heq.symm
      have hrest : ∀ i, i ≠ src → i ≠ π src → (π * swap src (π src)) i = π i := fun i hi hi' => by
        rw [Perm.mul_apply, swap_apply_of_ne_of_ne hi hi']
      have hnext : (map.get? (π src)).getD (π src) = (π * swap src (π src)) src := by
        rw [hmap _ hkey, Perm.mul_apply, swap_apply_left, Option.getD_some]
      have hset : (π * swap src (π src)) (π src) = π src := by
        rw [Perm.mul_apply, swap_apply_right]
      have hmap1 : ∀ i ∈ keys, (map.set (π src) (π src)).get? i =
          some ((π * swap src (π src)) i) := by
        intro i hi
        by_cases heq : i = π src
        · rw [heq, Dict.get?_set_self, hset]
        · rw [Dict.get?_set_ne _ heq, hmap i hi, hrest i (fun h => hsrc (h ▸ hi)) heq]
      obtain ⟨calls, map', hcalls, hcarries, hmap', hmoved'⟩ := ih hmap1 (fun i hi => by
          by_cases heq : i = src
          · exact .inl heq
          · by_cases heq' : i = π src
            · exact absurd (heq' ▸ hset) hi
            · exact hmoved i (hrest i heq heq' ▸ hi))
        (Nat.lt_succ_iff.1 (by
          rw [Equiv.mul_swap_eq_swap_mul]
          exact (Perm.card_support_swap_mul hdst).trans_le hfuel))
      refine ⟨(src, π src) :: calls, map', ?_, .cons src (Ne.symm hfix) hcarries, ?_, ?_⟩
      · rw [cycleSwaps, if_neg hfix, hnext, hcalls]
        rfl
      · simpa [callsPerm, mul_assoc] using hmap'
      · simpa [callsPerm, mul_assoc] using hmoved'

/-- The calls for all keys undo the destinations. -/
lemma allSwaps_spec {keys : List (Fin n)} (hkeys : keys.Nodup) {π : Perm (Fin n)}
    {map : Dict (Fin n) (Fin n)} (hmap : ∀ i ∈ keys, map.get? i = some (π i))
    (hmoved : ∀ i, π i ≠ i → i ∈ keys) :
    ∃ calls, allSwaps keys map = some calls ∧ Carries π calls ∧ π * callsPerm calls = 1 := by
  induction keys generalizing π map with
  | nil =>
    refine ⟨[], rfl, .nil π, Perm.ext fun i => ?_⟩
    simpa [callsPerm] using hmoved i
  | cons src keys ih =>
    obtain ⟨hsrc, hkeys⟩ := List.nodup_cons.1 hkeys
    obtain ⟨hget, hmap⟩ := List.forall_mem_cons.1 hmap
    obtain ⟨calls, map', hcalls, hcarries, hmap', hmoved'⟩ := cycleSwaps_spec hsrc n hmap
      (fun i hi => List.mem_cons.1 (hmoved i hi)) ((Finset.card_le_univ _).trans_eq (by simp))
    obtain ⟨rest, hrest, hcarries', hone⟩ := ih hkeys hmap' hmoved'
    refine ⟨calls ++ rest, ?_, hcarries.append hcarries', ?_⟩
    · simp [allSwaps, hget, hcalls, hrest]
    · simpa [callsPerm, mul_assoc] using hone

/-! ## The destinations -/

section Destinations

variable {reg : Fin n → ℕ} (h : ∀ i, reg i ≤ 3)

lemma count_targetRegions (regions : List ℕ) (k : ℕ) :
    (targetRegions regions).count k = if k ≤ 3 then regions.count k else 0 := by
  match k with
  | 0 | 1 | 2 | 3 => simp [targetRegions, List.count_replicate]
  | k + 4 => simp [targetRegions, List.count_replicate]

lemma pairwise_targetRegions (regions : List ℕ) : (targetRegions regions).Pairwise (· ≤ ·) := by
  simp [targetRegions, List.pairwise_append, List.pairwise_replicate, List.mem_replicate]
  omega

include h

lemma targetRegions_perm :
    (targetRegions ((List.finRange n).map reg)).Perm ((List.finRange n).map reg) := by
  refine List.perm_iff_count.2 fun k => ?_
  rw [count_targetRegions]
  split
  · rfl
  · rename_i hk
    refine (List.count_eq_zero_of_not_mem fun hmem => hk ?_).symm
    obtain ⟨i, -, rfl⟩ := List.mem_map.1 hmem
    exact h i

lemma map_targetAt :
    (List.finRange n).map (targetAt reg) = targetRegions ((List.finRange n).map reg) := by
  refine List.ext_getElem (by simp [(targetRegions_perm h).length_eq]) fun i hi hi' => ?_
  simp [targetAt, hi']

/-- Sorted by region, the misplaced requests have the regions that their places ask for. -/
lemma map_srcIndices : (srcIndices reg).map reg = (origIndices reg).map (targetAt reg) := by
  have hsorted : ((srcIndices reg).map reg).Pairwise (· ≤ ·) := by
    rw [srcIndices, List.map_insertionSort _ (· ≤ ·) reg _ fun _ _ _ _ => Iff.rfl]
    exact List.pairwise_insertionSort _ _
  have hsorted' : ((origIndices reg).map (targetAt reg)).Pairwise (· ≤ ·) := by
    refine (pairwise_targetRegions ((List.finRange n).map reg)).sublist ?_
    rw [← map_targetAt h]
    exact List.filter_sublist.map _
  refine List.Perm.eq_of_pairwise' hsorted hsorted' (((srcIndices_perm reg).map reg).trans ?_)
  -- The requests that are in place have the same regions on both sides.
  have hall := List.filter_append_perm (fun i => reg i ≠ targetAt reg i) (List.finRange n)
  have hperm : ((List.finRange n).map reg).Perm ((List.finRange n).map (targetAt reg)) := by
    rw [map_targetAt h]
    exact (targetRegions_perm h).symm
  have hsplit := ((hall.map reg).trans hperm).trans (hall.map (targetAt reg)).symm
  rw [List.map_append, List.map_append] at hsplit
  refine (List.perm_append_right_iff _).1 (hsplit.trans (.of_eq ?_))
  refine congrArg _ (List.map_congr_left fun i hi => ?_)
  exact (by simpa using (List.mem_filter.1 hi).2 : reg i = targetAt reg i).symm

lemma targetAt_le_targetAt {i j : Fin n} (hij : i ≤ j) : targetAt reg i ≤ targetAt reg j := by
  have hsorted := pairwise_targetRegions ((List.finRange n).map reg)
  rw [← map_targetAt h] at hsorted
  rcases hij.eq_or_lt with rfl | hlt
  · exact le_rfl
  · simpa using List.pairwise_iff_getElem.1 hsorted i j (by simp) (by simp) hlt

/-- The destinations form a permutation that moves only misplaced requests, each to a place of its
region. -/
lemma exists_destinations : ∃ π : Perm (Fin n),
    (∀ i ∈ (srcDestMap reg).keys, (srcDestMap reg).get? i = some (π i)) ∧
      (∀ i, i ∉ (srcDestMap reg).keys → π i = i) ∧ ∀ i, targetAt reg (π i) = reg i := by
  let f i := ((srcDestMap reg).get? i).getD i
  have hout : ∀ i, i ∉ (srcDestMap reg).keys → f i = i := by
    intro i hi
    simp [f, Dict.get?_eq_none.2 hi]
  have hsurj : Function.Surjective f := by
    intro j
    by_cases hj : reg j = targetAt reg j
    · exact ⟨j, hout j fun hmem => (mem_keys_srcDestMap reg).1 hmem hj⟩
    · have hsnd : j ∈ (srcDestMap reg).entries.map Prod.snd := by
        rw [srcDestMap, List.map_snd_zip (srcIndices_perm reg).length_eq.ge]
        simpa [origIndices] using hj
      obtain ⟨⟨i, j⟩, hmem, rfl⟩ := List.mem_map.1 hsnd
      exact ⟨i, by simp [f, Dict.get?_eq_some.2 hmem]⟩
  have hregion : List.Forall₂ Eq ((srcIndices reg).map reg) ((origIndices reg).map (targetAt reg)) := by
    rw [map_srcIndices h]
    exact List.forall₂_refl _
  rw [List.forall₂_map_left_iff, List.forall₂_map_right_iff] at hregion
  refine ⟨Equiv.ofBijective f (Finite.surjective_iff_bijective.1 hsurj), ?_, hout, ?_⟩
  · intro i hi
    obtain ⟨j, hget⟩ := Option.ne_none_iff_exists'.1 fun hnone => Dict.get?_eq_none.1 hnone hi
    simp [f, hget]
  · intro i
    cases hget : (srcDestMap reg).get? i with
    | some j =>
      have hij := (List.forall₂_iff_zip.1 hregion).2 (Dict.get?_eq_some.1 hget)
      simp [f, hget, hij]
    | none =>
      have hi := not_not.1 (mt (mem_keys_srcDestMap reg).2 (Dict.get?_eq_none.1 hget))
      simp [f, hget, hi]

end Destinations

lemma region_le (threshold : ℕ) (numScheduledTokens : String → ℕ) (r : BatchRow D) :
    region threshold numScheduledTokens r ≤ 3 := by
  simp only [region]
  split_ifs <;> simp

/-- **Splitting a batch into decodes and prefills.**  The loops end, a request that is in its region
stays where it is, the regions come in their order, and the result says whether there was a call.  The
calls of `swap_states` permute the whole batch exactly if there is no mask of allowed tokens or each
request that is out of its region has the mask of the request at its destination. -/
theorem reorder_splits_batch (numScheduledTokens : String → ℕ) (threshold : ℕ)
    (b : InputBatch n D M) :
    let reg i := region threshold numScheduledTokens (b.rows i)
    ∃ modified calls, ∃ π : Perm (Fin n),
      reorderBatchToSplitDecodesAndPrefills numScheduledTokens threshold b =
        some (modified, calls) ∧
      (calls.foldl InputBatch.swapStates b).rows = b.rows ∘ π ∧
      (calls.foldl InputBatch.swapStates b = { b with
          rows := b.rows ∘ π
          moved := b.moved ++ if b.isPoolingModel then [] else calls
          allowedTokenIdsMask := b.allowedTokenIdsMask.map (· ∘ π) } ↔
        ∀ mask ∈ b.allowedTokenIdsMask, ∀ e ∈ (srcDestMap reg).entries, mask e.1 = mask e.2) ∧
      (∀ i, reg i = targetAt reg i → π i = i) ∧
      (∀ i j, i ≤ j → reg (π i) ≤ reg (π j)) ∧ (modified = false ↔ calls = []) := by
  intro reg
  have hreg : ∀ i, reg i ≤ 3 := fun i => region_le threshold numScheduledTokens (b.rows i)
  obtain ⟨π, hmap, hout, htarget⟩ := exists_destinations hreg
  have hnodup : (srcDestMap reg).keys.Nodup := (srcDestMap reg).nodup
  obtain ⟨calls, hcalls, hcarries, hone⟩ := allSwaps_spec hnodup hmap
    fun i hi => not_not.1 fun hmem => hi (hout i hmem)
  have hinv : ∀ i, π (callsPerm calls i) = i := fun i => Perm.congr_fun hone i
  have hregion : ∀ i, reg (callsPerm calls i) = targetAt reg i := fun i => by
    rw [← htarget, hinv]
  have hnil : calls = [] ↔ origIndices reg = [] := by
    constructor
    · rintro rfl
      refine List.filter_eq_nil_iff.2 fun i _ => ?_
      simpa [callsPerm] using hregion i
    · intro horig
      have hkeys : (srcDestMap reg).keys = [] := by simp [srcDestMap, Dict.keys, horig]
      rw [hkeys] at hcalls
      exact (Option.some.inj hcalls).symm
  -- Only the entries of the map are moved.
  have hentries : ∀ mask : Fin n → M,
      (∀ j, mask (π j) = mask j) ↔ ∀ e ∈ (srcDestMap reg).entries, mask e.1 = mask e.2 := by
    refine fun mask => ⟨fun hall e he => ?_, fun hall j => ?_⟩
    · have hget := hmap e.1 (List.mem_map_of_mem he)
      rw [Dict.get?_eq_some.2 he, Option.some.injEq] at hget
      rw [hget, hall]
    · by_cases hj : j ∈ (srcDestMap reg).keys
      · exact (hall (j, π j) (Dict.get?_eq_some.1 (hmap j hj))).symm
      · rw [hout j hj]
  refine ⟨decide (origIndices reg ≠ []), calls, callsPerm calls, ?_,
    congrArg InputBatch.rows (foldl_swapStates b calls), ?_, ?_, ?_, ?_⟩
  · rw [reorderBatchToSplitDecodesAndPrefills]
    split
    · rename_i horig
      simp [reg, horig, hnil.2 horig]
    · rename_i horig
      simpa [reg, horig] using hcalls
  · rw [foldl_swapStates]
    cases hmask : b.allowedTokenIdsMask with
    | none => simp
    | some mask =>
      simp only [Option.mem_some_iff, forall_eq', ← hentries]
      cases b.isPoolingModel with
      | false => simpa using hcarries.mask_iff hone mask
      | true =>
        -- A pooling model keeps its mask where it is.
        simp only [if_true, Option.map_some, InputBatch.mk.injEq, true_and, Option.some.injEq]
        refine ⟨fun heq j => ?_, fun hall => funext fun i => ?_⟩
        · have hj : callsPerm calls (π j) = j := π.injective (hinv (π j))
          rw [congrFun heq (π j), Function.comp_apply, hj]
        · rw [Function.comp_apply, ← hall (callsPerm calls i), hinv]
  · intro i hi
    have hfix : π i = i := hout i fun hmem => (mem_keys_srcDestMap reg).1 hmem hi
    exact π.injective ((hinv i).trans hfix.symm)
  · intro i j hij
    rw [hregion, hregion]
    exact targetAt_le_targetAt hreg hij
  · simp [hnil]

/-- **A mask is lost.**  A prefill in front of a decode: their entries are exchanged, but both keep
the mask of the prefill. -/
theorem swapped_mask_is_lost : let b : InputBatch 2 Unit ℕ :=
      { rows := fun i => ⟨if i = 0 then "prefill" else "decode", 4, 4 * i, ()⟩
        allowedTokenIdsMask := some fun i => 5 + i }
    ∃ calls, reorderBatchToSplitDecodesAndPrefills (fun _ => 1) 1 b = some (true, calls) ∧
      ((calls.foldl InputBatch.swapStates b).rows 0).reqId = "decode" ∧
      (calls.foldl InputBatch.swapStates b).allowedTokenIdsMask.map (· 0) = some 5 := by
  refine ⟨[(1, 0)], ?_⟩
  decide

end Lvllm
