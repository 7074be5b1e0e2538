import Lvllm.Foundation.Run
import Lvllm.Sched.EncoderCache

/-!
# The books of the encoder cache

A scheduling pass checks the inputs of a request against the capacity one after another, and
allocates those it accepted once the request is scheduled.  `EncoderPass` is the manager with the
inputs that were accepted and are not allocated yet; their embeddings are the ones that
`can_allocate` is told to add.

`Accounted` is what holds of the books in every state of every run: every embedding is free or
belongs to a cached entry, and exactly the entries without references can be freed.
-/

namespace Lvllm

open List EncoderCacheManager Dict

variable {H : Type}

namespace EncoderCacheManager

variable {size : String → ℕ} {s s' : EncoderCacheManager}

/-- Equal hashes have equal numbers of embeddings: `size` says how many. -/
def SizesAgree (size : String → ℕ) (r : Request H) : Prop :=
  ∀ f ∈ r.mmFeatures, f.mmPosition.getNumEmbeds = size f.identifier

/-- The books are right. -/
structure Accounted (size : String → ℕ) (s : EncoderCacheManager) : Prop where
  /-- Every embedding is free or belongs to a cached entry. -/
  cacheSize_eq : s.numFreeSlots + s.cached.keySum size = s.cacheSize
  freeable_eq : s.numFreeableSlots = s.numFreeSlots + s.freeable.sum id
  /-- The freeable entries are those without references. -/
  freeable_iff : ∀ h, h ∈ s.freeable.keys ↔ s.cached.get? h = some []
  freeable_size : ∀ h n, s.freeable.get? h = some n → n = size h
  numFreeSlots_nonneg : 0 ≤ s.numFreeSlots

lemma accounted_create (n : ℕ) : Accounted size (create n) := by
  refine ⟨?_, ?_, fun h => ?_, fun h n hn => ?_, ?_⟩
  · simp [create, Dict.keySum, Dict.keys, Dict.empty]
  · simp [create, Dict.sum, Dict.empty]
  · simp [create, Dict.keys, Dict.empty, Dict.get?, Dict.lookupIn]
  · simp [create] at hn
  · simp [create]

namespace Accounted

lemma sum_freeable (h : Accounted size s) : s.freeable.sum id = s.freeable.keySum size := by
  unfold Dict.sum Dict.keySum Dict.keys
  rw [map_map]
  refine congrArg List.sum (map_congr_left fun e he => ?_)
  exact h.freeable_size e.1 e.2 (Dict.get?_eq_some.2 he)

lemma numFreeableSlots_le (h : Accounted size s) : s.numFreeableSlots ≤ s.cacheSize := by
  have hsub : s.freeable.keys ⊆ s.cached.keys := by
    intro k hk
    rw [Dict.mem_keys_iff, Dict.contains, (h.freeable_iff k).1 hk]
    rfl
  have hle := Dict.keySum_le_keySum hsub size
  have hcache := h.cacheSize_eq
  have hfreeable := h.freeable_eq
  rw [h.sum_freeable] at hfreeable
  omega

/-- An entry gets other references, and can be freed if it has none. -/
lemma setReferences (h : Accounted size s) {k : String} {old references : List String}
    (hk : s.cached.get? k = some old)
    (hs' : (s'.cacheSize, s'.numFreeSlots, s'.cached) =
      (s.cacheSize, s.numFreeSlots, s.cached.set k references))
    (hfreeable : s'.numFreeableSlots = s.numFreeSlots + s'.freeable.sum id)
    (hself : s'.freeable.get? k = if references = [] then some (size k) else none)
    (hothers : ∀ k', k' ≠ k → s'.freeable.get? k' = s.freeable.get? k') :
    Accounted size s' ∧ s'.cached.keys = s.cached.keys := by
  simp only [Prod.mk.injEq] at hs'
  obtain ⟨hsize, hfree, hcached⟩ := hs'
  have hmem : k ∈ s.cached.keys := by
    rw [Dict.mem_keys_iff, Dict.contains, hk]
    rfl
  have hkeys : s'.cached.keys = s.cached.keys := by rw [hcached, Dict.keys_set, if_pos hmem]
  refine ⟨⟨?_, hfree ▸ hfreeable, fun k' => ?_, fun k' n hn => ?_, hfree ▸ h.numFreeSlots_nonneg⟩,
    hkeys⟩
  · rw [hsize, hfree, keySum, hkeys]
    exact h.cacheSize_eq
  · have hold := h.freeable_iff k'
    rw [Dict.mem_keys_iff, Dict.contains] at hold ⊢
    by_cases heq : k' = k
    · rw [heq, hself, hcached, Dict.get?_set_self]
      split
      · simp [*]
      · simp [*]
    · rwa [hothers k' heq, hcached, get?_set_ne _ heq]
  · by_cases heq : k' = k
    · rw [heq, hself, Option.ite_none_right_eq_some] at hn
      rw [heq]
      exact (Option.some.inj hn.2).symm
    · exact h.freeable_size k' n (hothers k' heq ▸ hn)

/-- An entry with references cannot be freed. -/
lemma get?_freeable (h : Accounted size s) {k : String} {references : List String}
    (hk : s.cached.get? k = some references) (hne : references ≠ []) :
    s.freeable.get? k = none := by
  refine get?_eq_none.2 fun hmem => hne ?_
  rw [h.freeable_iff, hk] at hmem
  exact Option.some.inj hmem

end Accounted

/-! ## A pass over the inputs of a request -/

/-- What holds during a pass: the books are right, and there is room for the inputs `accepted`, which
are not cached yet. -/
structure PassInv (size : String → ℕ) (accepted : List String) (s : EncoderCacheManager) :
    Prop where
  accounted : Accounted size s
  nodup : accepted.Nodup
  not_cached : ∀ h ∈ accepted, s.cached.contains h = false
  room : ((accepted.map size).sum : ℤ) ≤ s.numFreeSlots

variable {accepted : List String}

lemma PassInv.of_same (h : PassInv size accepted s) (hs' : Accounted size s')
    (hkeys : s'.cached.keys = s.cached.keys) (hfree : s'.numFreeSlots = s.numFreeSlots) :
    PassInv size accepted s' := by
  refine ⟨hs', h.nodup, fun k hk => ?_, hfree ▸ h.room⟩
  have hold := h.not_cached k hk
  rw [← Bool.not_eq_true, ← mem_keys_iff] at hold ⊢
  rwa [hkeys]

lemma setAdd_ne_nil {α : Type} [DecidableEq α] (a : α) (l : List α) : setAdd a l ≠ [] := by
  unfold setAdd
  split
  · rename_i ha
    exact ne_nil_of_mem ha
  · simp

variable {k : String} {request : Request H} {references : List String}

/-- An entry that is referenced already gets one more reference. -/
lemma Accounted.addReference (h : Accounted size s)
    (hk : s.cached.get? k = some references) (hne : references ≠ []) (req : String) (i : ℕ) :
    Accounted size (s.addReference req k i) ∧ (s.addReference req k i).cached.keys = s.cached.keys :=
  h.setReferences hk rfl h.freeable_eq
    (by rw [if_neg (setAdd_ne_nil _ _)]; exact h.get?_freeable hk hne) fun _ _ => rfl

/-- An entry without references gets one, and cannot be freed any more. -/
lemma Accounted.reviveEntry (h : Accounted size s) {n : ℕ} (hk : s.cached.get? k = some [])
    (hn : s.freeable.get? k = some n) (req : String) (i : ℕ) :
    let s' := { s with
      freeable := s.freeable.erase k, numFreeableSlots := s.numFreeableSlots - n }
    Accounted size (s'.addReference req k i) ∧
      (s'.addReference req k i).cached.keys = s.cached.keys := by
  refine h.setReferences hk rfl ?_ ?_ fun k' hne => get?_erase_ne _ hne
  · have hsum := s.freeable.sum_erase k id
    rw [hn] at hsum
    have hold := h.freeable_eq
    change s.numFreeableSlots - n = s.numFreeSlots + ((s.freeable.erase k).sum id : ℕ)
    simp only [Option.elim_some, id_eq] at hsum
    omega
  · rw [if_neg (setAdd_ne_nil _ _)]
    exact get?_erase_self _ _

/-- `check_and_update_cache` keeps the books. -/
lemma keeps_checkAndUpdateCache (request : Request H) (inputId : ℕ) :
    Keeps (PassInv size accepted) (checkAndUpdateCache request inputId) := by
  refine Keeps.bind (Keeps.liftExcept _) fun feature => Keeps.get_bind fun s hs => ?_
  set k := feature.identifier with hk
  cases hget : s.cached.get? k with
  | none => exact hs
  | some references =>
    by_cases hempty : references.isEmpty = true
    · obtain rfl : references = [] := by simpa using hempty
      cases hn : s.freeable.get? k with
      | none => exact hs
      | some n =>
        obtain ⟨hacc, hkeys⟩ := hs.accounted.reviveEntry hget hn request.requestId inputId
        exact hs.of_same hacc hkeys rfl
    · simp only [hempty, Bool.false_eq_true, if_false]
      obtain ⟨hacc, hkeys⟩ := hs.accounted.addReference hget (by simpa using hempty)
        request.requestId inputId
      exact hs.of_same hacc hkeys rfl

/-! ## Capacity -/

section

variable (h : PassInv size accepted s) {inputId : ℕ} {f : MultiModalFeatureSpec}

include h

/-- The entry at the front of the freeable ones is evicted. -/
lemma PassInv.evict {n : ℕ} {rest : List (String × ℕ)}
    (hentries : s.freeable.entries = (k, n) :: rest) :
    PassInv size accepted (s.evict k n) ∧ (s.evict k n).freeable.entries = rest := by
  have hacc := h.accounted
  have hn : s.freeable.get? k = some n := by
    rw [get?_eq_some, hentries]
    exact mem_cons_self
  have hkmem : k ∈ s.freeable.keys := by
    rw [Dict.keys, hentries]
    exact mem_cons_self
  have hcached : s.cached.get? k = some [] := (hacc.freeable_iff k).1 hkmem
  have hmem : k ∈ s.cached.keys := by
    rw [Dict.mem_keys_iff, Dict.contains, hcached]
    rfl
  have hrest : (s.freeable.erase k).entries = rest := Dict.entries_erase_head hentries
  obtain rfl := hacc.freeable_size k n hn
  have hcsum := keySum_erase hmem size
  refine ⟨⟨⟨?_, ?_, fun k' => ?_, fun k' n' hn' => ?_, ?_⟩, h.nodup, fun k' hk' => ?_, ?_⟩, hrest⟩
  · have hsize := hacc.cacheSize_eq
    change s.numFreeSlots + size k + ((s.cached.erase k).keySum size : ℕ) = s.cacheSize
    omega
  · have hsum := s.freeable.sum_erase k id
    rw [hn] at hsum
    have hold := hacc.freeable_eq
    change s.numFreeableSlots = s.numFreeSlots + size k + ((s.freeable.erase k).sum id : ℕ)
    simp only [Option.elim_some, id_eq] at hsum
    omega
  · by_cases heq : k' = k
    · subst heq
      simp [EncoderCacheManager.evict, keys_erase]
    · simpa [EncoderCacheManager.evict, keys_erase, heq] using hacc.freeable_iff k'
  · by_cases heq : k' = k
    · subst heq
      simp [EncoderCacheManager.evict] at hn'
    · exact hacc.freeable_size k' n' (by simpa [EncoderCacheManager.evict, heq] using hn')
  · have := hacc.numFreeSlots_nonneg
    change 0 ≤ s.numFreeSlots + size k
    omega
  · have hold := h.not_cached k' hk'
    have hne : k' ≠ k := by
      rintro rfl
      rw [← Bool.not_eq_true, ← mem_keys_iff] at hold
      exact hold hmem
    change ((s.cached.erase k).get? k').isSome = false
    rwa [get?_erase_ne _ hne]
  · have hroom := h.room
    change ((accepted.map size).sum : ℤ) ≤ s.numFreeSlots + size k
    omega

/-- The loop of `can_allocate` returns once enough is free, and does not pop an empty dictionary
when the freeable entries suffice. -/
lemma PassInv.evictOldest {entries : List (String × ℕ)} {n : ℤ}
    (hentries : s.freeable.entries = entries) (hn : n ≤ s.numFreeableSlots) :
    ∃ s', evictOldest n entries s = .ok () s' ∧ PassInv size accepted s' ∧ n ≤ s'.numFreeSlots ∧
      ∀ k, s.cached.contains k = false → s'.cached.contains k = false := by
  induction entries generalizing s with
  | nil =>
    -- Nothing can be freed, so what is freeable is free.
    have hle : n ≤ s.numFreeSlots := by
      have hold := h.accounted.freeable_eq
      rw [Dict.sum, hentries] at hold
      simpa [hold] using hn
    refine ⟨s, ?_, h, hle, fun _ hk => hk⟩
    unfold evictOldest
    rw [bind_get, if_neg (not_lt.2 hle)]
    rfl
  | cons e rest ih =>
    obtain ⟨k, m⟩ := e
    unfold evictOldest
    rw [bind_get]
    by_cases hle : n ≤ s.numFreeSlots
    · rw [if_neg (not_lt.2 hle)]
      exact ⟨s, rfl, h, hle, fun _ hk => hk⟩
    · obtain ⟨hinv, hrest⟩ := h.evict hentries
      have hcontains : s.cached.contains k = true := by
        have hkmem : k ∈ s.freeable.keys := by
          rw [Dict.keys, hentries]
          exact mem_cons_self
        rw [Dict.contains, (h.accounted.freeable_iff k).1 hkmem]
        rfl
      rw [if_pos (not_le.1 hle), bind_get, if_pos hcontains, bind_modify]
      obtain ⟨s', hrun, hinv', hle', hkeys⟩ := ih hinv hrest hn
      refine ⟨s', hrun, hinv', hle', fun k' hk' => hkeys k' ?_⟩
      change ((s.cached.erase k).get? k').isSome = false
      by_cases heq : k' = k
      · subst heq
        rw [get?_erase_self]
        rfl
      · rwa [get?_erase_ne _ heq]

/-- `can_allocate` returns for every input the request has.  If it accepts, there is room for the
input beside what it was told to add. -/
lemma PassInv.canAllocate
    (hf : request.mmFeatures[inputId]? = some f) (budget : ℤ) (numEmbedsToSchedule : ℕ) :
    ∃ b s', canAllocate request inputId budget numEmbedsToSchedule s =
        .ok b s' ∧ PassInv size accepted s' ∧
      (∀ k, s.cached.contains k = false → s'.cached.contains k = false) ∧
      (b = true → (f.mmPosition.getNumEmbeds + numEmbedsToSchedule : ℤ) ≤ s'.numFreeSlots) := by
  have hembeds : request.getNumEncoderEmbeds inputId = .ok f.mmPosition.getNumEmbeds := by
    rw [Request.getNumEncoderEmbeds, hf]
  unfold EncoderCacheManager.canAllocate
  rw [hembeds, bind_ok (liftExcept_eq_ok.2 ⟨rfl, rfl⟩)]
  by_cases hbudget : (f.mmPosition.getNumEmbeds : ℤ) > budget
  · rw [if_pos hbudget]
    exact ⟨false, s, rfl, h, fun _ hk => hk, by simp⟩
  rw [if_neg hbudget, bind_get]
  by_cases hfree : (f.mmPosition.getNumEmbeds + numEmbedsToSchedule : ℤ) ≤ s.numFreeSlots
  · rw [if_pos hfree]
    exact ⟨true, s, rfl, h, fun _ hk => hk, fun _ => hfree⟩
  rw [if_neg hfree]
  by_cases hfreeable : (f.mmPosition.getNumEmbeds + numEmbedsToSchedule : ℤ) > s.numFreeableSlots
  · rw [if_pos hfreeable]
    exact ⟨false, s, rfl, h, fun _ hk => hk, by simp⟩
  rw [if_neg hfreeable]
  obtain ⟨s', hrun, hinv, hle, hkeys⟩ := h.evictOldest rfl (not_lt.1 hfreeable)
  rw [bind_ok hrun]
  exact ⟨true, s', rfl, hinv, hkeys, fun _ => hle⟩

/-- An accepted input is allocated: the assertions hold. -/
lemma PassInv.allocate (hf : request.mmFeatures[inputId]? = some f)
    (hsize : f.mmPosition.getNumEmbeds = size f.identifier) (hacc : f.identifier ∈ accepted) :
    ∃ s', allocate request inputId s = .ok () s' ∧
      PassInv size (accepted.erase f.identifier) s' := by
  set k := f.identifier with hk
  have hfeature : request.mmFeature inputId = .ok f := by rw [Request.mmFeature, hf]
  have hembeds : request.getNumEncoderEmbeds inputId = .ok (size k) := by
    rw [Request.getNumEncoderEmbeds, hf, ← hsize]
  have hnot : s.cached.contains k = false := h.not_cached k hacc
  have hmem : k ∉ s.cached.keys := by rw [Dict.mem_keys_iff, hnot]; exact Bool.false_ne_true
  have hnone : s.cached.get? k = none := by rwa [Dict.contains, Option.isSome_eq_false_iff,
    Option.isNone_iff_eq_none] at hnot
  -- What is accepted fits, so this input does, and what is free can be freed.
  have hsum : size k + ((accepted.erase k).map size).sum = (accepted.map size).sum :=
    sum_map_erase size hacc
  have hroom := h.room
  have hfreeable := h.accounted.freeable_eq
  set s1 : EncoderCacheManager := { s with cached := s.cached.set k [] } with hs1
  have hrun : EncoderCacheManager.allocate request inputId s = .ok ()
      { s1.addReference request.requestId k inputId with
        numFreeSlots := s.numFreeSlots - size k
        numFreeableSlots := s.numFreeableSlots - size k } := by
    unfold EncoderCacheManager.allocate
    rw [hfeature, hembeds, bind_ok (liftExcept_eq_ok.2 ⟨rfl, rfl⟩), bind_modify,
      bind_ok (liftExcept_eq_ok.2 ⟨rfl, rfl⟩), bind_get]
    simp only [← hk, hnot, Bool.false_eq_true, if_false]
    rw [if_pos ⟨by omega, by omega⟩]
    rfl
  refine ⟨_, hrun, ⟨?_, ?_, fun k' => ?_, h.accounted.freeable_size, ?_⟩, h.nodup.erase k,
    fun k' hk' => ?_, ?_⟩
  · have hold := h.accounted.cacheSize_eq
    have hkey : ((s.cached.set k []).set k
        (setAdd request.requestId (((s.cached.set k []).get? k).getD []))).keySum size =
        s.cached.keySum size + size k := by
      rw [keySum_set_of_mem (by rw [keys_set, if_neg hmem]; simp), keySum_set_of_not_mem hmem]
    change s.numFreeSlots - size k + ((set (s.cached.set k []) k _).keySum size : ℕ) = s.cacheSize
    rw [hkey]
    omega
  · change s.numFreeableSlots - size k = s.numFreeSlots - size k + (s.freeable.sum id : ℕ)
    omega
  · refine (h.accounted.freeable_iff k').trans ?_
    by_cases heq : k' = k
    · subst heq
      simp [s1, addReference, hnone, setAdd_ne_nil]
    · simp [s1, EncoderCacheManager.addReference, heq]
  · change 0 ≤ s.numFreeSlots - size k
    omega
  · obtain ⟨hne, hk'⟩ := h.nodup.mem_erase_iff.1 hk'
    have hold := h.not_cached k' hk'
    rw [Dict.contains] at hold ⊢
    simpa [s1, EncoderCacheManager.addReference, hne] using hold
  · change (((accepted.erase k).map size).sum : ℤ) ≤ s.numFreeSlots - size k
    omega

end

/-! ## Giving references back -/

/-- Taking a reference back keeps the books. -/
lemma Accounted.dropReference (h : Accounted size s)
    (hk : s.cached.get? k = some references) (hne : references ≠ []) (req : String) :
    Accounted size (s.dropReference req k references (size k)) ∧
      (s.dropReference req k references (size k)).cached.keys = s.cached.keys ∧
      (s.dropReference req k references (size k)).numFreeSlots = s.numFreeSlots := by
  have hnone := h.get?_freeable hk hne
  unfold EncoderCacheManager.dropReference
  dsimp only
  split
  · rename_i hempty
    rw [List.isEmpty_iff] at hempty
    refine and_assoc.1 ⟨h.setReferences hk rfl ?_ ?_ fun k' hne => get?_set_ne _ hne _, rfl⟩
    · have hsum := s.freeable.sum_set k (size k) id
      rw [hnone] at hsum
      have hold := h.freeable_eq
      simp only [Option.elim_none, id_eq] at hsum
      push_cast [← hsum]
      omega
    · rw [if_pos hempty]
      exact get?_set_self _ _ _
  · rename_i hempty
    rw [List.isEmpty_iff] at hempty
    refine and_assoc.1 ⟨h.setReferences hk rfl h.freeable_eq ?_ fun _ _ => rfl, rfl⟩
    rw [if_neg hempty]
    exact hnone

/-- The cached inputs of a request are not part of the books. -/
lemma PassInv.discardInput (h : PassInv size accepted s) (req : String) (i : ℕ) :
    PassInv size accepted (s.discardInput req i) := by
  unfold EncoderCacheManager.discardInput
  split
  · exact h
  · exact { h with accounted := { h.accounted with } }

lemma keeps_freeEncoderInput (hsize : SizesAgree size request) (inputId : ℕ) :
    Keeps (PassInv size accepted) (freeEncoderInput request inputId) := by
  intro s hs
  have herror : ∀ e, request.mmFeature inputId = .error e →
      freeEncoderInput request inputId s = .error e s := by
    intro e he
    rw [freeEncoderInput, he]
    rfl
  cases hfeature : request.mmFeature inputId with
  | error e =>
    rw [herror e hfeature]
    exact hs
  | ok f =>
    have hf : request.mmFeatures[inputId]? = some f := by
      unfold Request.mmFeature at hfeature
      split at hfeature
      · cases hfeature
      · cases hfeature
        assumption
    have hembeds : request.getNumEncoderEmbeds inputId = .ok (size f.identifier) := by
      rw [Request.getNumEncoderEmbeds, hf, ← hsize f (mem_of_getElem? hf)]
    rw [freeEncoderInput, hfeature, hembeds, bind_ok (liftExcept_eq_ok.2 ⟨rfl, rfl⟩), bind_modify]
    refine Keeps.get_bind (I := PassInv size accepted) (fun s hs => ?_) _
      (hs.discardInput request.requestId inputId)
    cases hget : s.cached.get? f.identifier with
    | none => exact hs
    | some references =>
      by_cases hempty : references.isEmpty = true
      · simp only [hempty, if_true]
        exact hs
      · simp only [hempty, Bool.false_eq_true, if_false]
        obtain ⟨hacc, hkeys, hfree⟩ := hs.accounted.dropReference hget
          (by simpa using hempty) request.requestId
        cases anyWithHash request f.identifier (s.getCachedInputIds request.requestId) with
        | error e => exact hs
        | ok b =>
          cases b with
          | true => exact hs
          | false => exact hs.of_same hacc hkeys hfree

lemma keeps_free (hsize : SizesAgree size request) : Keeps (PassInv size accepted) (free request) :=
  Keeps.bind Keeps.get fun _ => Keeps.forM fun inputId _ => keeps_freeEncoderInput hsize inputId

end EncoderCacheManager

/-! ## Runs -/

/-- The manager, and the inputs that `can_allocate` accepted in the current pass and that are still
to be allocated. -/
structure EncoderPass where
  manager : EncoderCacheManager
  accepted : List MultiModalFeatureSpec

/-- The operations of the manager.  An accepted input need not be scheduled: `schedules` says
whether it is.  When the request is not scheduled after all, its pass ends. -/
inductive EncoderOp (H : Type) where
  | checkAndUpdateCache (request : Request H) (inputId : ℕ)
  | canAllocate (request : Request H) (inputId : ℕ) (encoderComputeBudget : ℤ) (schedules : Bool)
  | allocate (request : Request H) (inputId : ℕ)
  | endPass
  | freeEncoderInput (request : Request H) (inputId : ℕ)
  | free (request : Request H)
  | getFreedMmHashes
  | reset

namespace EncoderPass

open EncoderCacheManager

/-- `num_embeds_to_schedule`. -/
def numEmbedsToSchedule (p : EncoderPass) : ℕ :=
  (p.accepted.map fun f => f.mmPosition.getNumEmbeds).sum

/-- The hashes of the accepted inputs. -/
def acceptedHashes (p : EncoderPass) : List String := p.accepted.map (·.identifier)

/-- Run an operation; what the code did before it raised stays. -/
def step (p : EncoderPass) : EncoderOp H → Option EncoderPass
  | .checkAndUpdateCache r i =>
    some { p with manager := finalState (EncoderCacheManager.checkAndUpdateCache r i) p.manager }
  | .canAllocate r i budget schedules =>
    match EncoderCacheManager.canAllocate r i budget p.numEmbedsToSchedule p.manager with
    | .ok true m =>
      some { manager := m, accepted := p.accepted ++ if schedules then r.mmFeatures[i]?.toList else [] }
    | .ok false m | .error _ m => some { p with manager := m }
  | .allocate r i =>
    some { manager := finalState (EncoderCacheManager.allocate r i) p.manager
           accepted := r.mmFeatures[i]?.elim p.accepted p.accepted.erase }
  | .endPass => some { p with accepted := [] }
  | .freeEncoderInput r i =>
    some { p with manager := finalState (EncoderCacheManager.freeEncoderInput r i) p.manager }
  | .free r => some { p with manager := finalState (EncoderCacheManager.free r) p.manager }
  | .getFreedMmHashes =>
    some { p with manager := finalState EncoderCacheManager.getFreedMmHashes p.manager }
  | .reset => some { p with manager := p.manager.reset }

end EncoderPass

open EncoderPass EncoderCacheManager

/-- What callers see to.  Capacity is checked for inputs that are neither cached nor accepted yet,
and accepted inputs are allocated. -/
def EncoderOp.Allowed (size : String → ℕ) (p : EncoderPass) : EncoderOp H → Prop
  | .checkAndUpdateCache r _ | .freeEncoderInput r _ | .free r => SizesAgree size r
  | .canAllocate r i _ _ => SizesAgree size r ∧ ∃ f ∈ r.mmFeatures[i]?,
      p.manager.cached.contains f.identifier = false ∧ f.identifier ∉ p.acceptedHashes
  | .allocate r i => SizesAgree size r ∧ ∃ f ∈ r.mmFeatures[i]?, f ∈ p.accepted
  | .endPass | .getFreedMmHashes | .reset => True

instance (size : String → ℕ) (r : Request H) : Decidable (SizesAgree size r) :=
  inferInstanceAs (Decidable (∀ f ∈ r.mmFeatures, _))

instance EncoderOp.decidableAllowed (size : String → ℕ) (p : EncoderPass) (op : EncoderOp H) :
    Decidable (op.Allowed size p) :=
  match op with
  | .checkAndUpdateCache r _ | .freeEncoderInput r _ | .free r =>
    inferInstanceAs (Decidable (SizesAgree size r))
  | .canAllocate r i _ _ => inferInstanceAs (Decidable (SizesAgree size r ∧ ∃ f ∈ r.mmFeatures[i]?,
      p.manager.cached.contains f.identifier = false ∧ f.identifier ∉ p.acceptedHashes))
  | .allocate r i =>
    inferInstanceAs (Decidable (SizesAgree size r ∧ ∃ f ∈ r.mmFeatures[i]?, f ∈ p.accepted))
  | .endPass | .getFreedMmHashes | .reset => isTrue trivial

/-- A new manager, outside any pass. -/
def EncoderInit (p : EncoderPass) : Prop := ∃ n, p = ⟨create n, []⟩

/-- The states that the operations lead to. -/
def EncoderReachable (H : Type) (size : String → ℕ) (p : EncoderPass) : Prop :=
  Reached EncoderInit EncoderPass.step (fun p (op : EncoderOp H) => op.Allowed size p) p

/-- The books are right, there is room for what is accepted, and its sizes are those of its
hashes. -/
structure EncoderInv (size : String → ℕ) (p : EncoderPass) : Prop where
  pass : PassInv size p.acceptedHashes p.manager
  sizes : ∀ f ∈ p.accepted, f.mmPosition.getNumEmbeds = size f.identifier

variable {size : String → ℕ} {p p' : EncoderPass}

lemma EncoderInv.numEmbedsToSchedule_eq (h : EncoderInv size p) :
    p.numEmbedsToSchedule = (p.acceptedHashes.map size).sum := by
  rw [numEmbedsToSchedule, acceptedHashes, map_map]
  exact congrArg List.sum (map_congr_left h.sizes)

/-- Code that keeps the books, with the accepted inputs as they are. -/
lemma EncoderInv.of_keeps {α : Type} {x : EncoderM α} (h : EncoderInv size p)
    (hx : Keeps (PassInv size p.acceptedHashes) x) :
    EncoderInv size { p with manager := finalState x p.manager } :=
  ⟨keeps_iff.1 hx _ h.pass, h.sizes⟩

/-- Erasing an element erases its image, when the images are distinct. -/
lemma map_erase_of_mem {α β : Type} [DecidableEq α] [DecidableEq β] {g : α → β} {l : List α}
    {a : α} (h : (l.map g).Nodup) (ha : a ∈ l) : (l.erase a).map g = (l.map g).erase (g a) := by
  induction l with
  | nil => cases ha
  | cons b l ih =>
    rw [map_cons, nodup_cons] at h
    by_cases hb : b = a
    · subst hb
      simp
    · have hmem : a ∈ l := (mem_cons.1 ha).resolve_left (Ne.symm hb)
      have hg : g b ≠ g a := fun heq => h.1 (heq ▸ mem_map_of_mem hmem)
      rw [erase_cons_tail (by simpa using hb), map_cons, map_cons,
        erase_cons_tail (by simpa using hg), ih h.2 hmem]

/-- An input that `can_allocate` accepts joins the accepted ones. -/
lemma EncoderInv.canAllocate (h : EncoderInv size p) {r : Request H} {i : ℕ} {budget : ℤ}
    {schedules : Bool} (hop : (EncoderOp.canAllocate r i budget schedules).Allowed size p)
    (hstep : p.step (.canAllocate r i budget schedules) = some p') : EncoderInv size p' := by
  obtain ⟨hsizes, f, hf, hnot, hnew⟩ := hop
  have hf' : r.mmFeatures[i]? = some f := hf
  have hsize := hsizes f (mem_of_getElem? hf')
  obtain ⟨b, m, hrun, hpass, hkeys, hroom⟩ := h.pass.canAllocate hf' budget p.numEmbedsToSchedule
  simp only [EncoderPass.step, hrun] at hstep
  cases b with
  | false =>
    cases hstep
    exact ⟨hpass, h.sizes⟩
  | true =>
    cases hstep
    cases schedules with
    | false =>
      simp only [Bool.false_eq_true, if_false, append_nil]
      exact ⟨hpass, h.sizes⟩
    | true =>
      simp only [if_true, hf', Option.toList_some]
      refine ⟨⟨hpass.accounted, ?_, fun k hk => ?_, ?_⟩, fun f' hf' => ?_⟩
      · rw [acceptedHashes, map_append]
        refine nodup_append.2 ⟨hpass.nodup, nodup_singleton _, fun a ha b hb hab => ?_⟩
        obtain rfl : b = f.identifier := by simpa using hb
        exact hnew (hab ▸ ha)
      · rw [acceptedHashes, map_append, mem_append] at hk
        rcases hk with hk | hk
        · exact hpass.not_cached k hk
        · obtain rfl : k = f.identifier := by simpa using hk
          exact hkeys _ hnot
      · have hle := hroom rfl
        rw [h.numEmbedsToSchedule_eq, hsize] at hle
        rw [acceptedHashes, map_append, map_append, sum_append]
        change (((p.acceptedHashes.map size).sum + [size f.identifier].sum : ℕ) : ℤ) ≤ m.numFreeSlots
        rw [sum_singleton]
        omega
      · rcases mem_append.1 hf' with hold | hnew'
        · exact h.sizes f' hold
        · obtain rfl : f' = f := by simpa using hnew'
          exact hsize

lemma EncoderInv.step (h : EncoderInv size p) {op : EncoderOp H} (hop : op.Allowed size p)
    (hstep : p.step op = some p') : EncoderInv size p' := by
  cases op with
  | checkAndUpdateCache r i =>
    cases hstep
    exact h.of_keeps (keeps_checkAndUpdateCache r i)
  | canAllocate r i budget schedules => exact h.canAllocate hop hstep
  | allocate r i =>
    obtain ⟨hsizes, f, hf, hacc⟩ := hop
    have hf' : r.mmFeatures[i]? = some f := hf
    obtain ⟨m, hrun, hpass⟩ := h.pass.allocate hf' (hsizes f (mem_of_getElem? hf'))
      (mem_map_of_mem hacc)
    simp only [EncoderPass.step, finalState, hrun, hf', Option.elim_some, Option.some.injEq] at hstep
    subst hstep
    refine ⟨?_, fun f' hf' => h.sizes f' (mem_of_mem_erase hf')⟩
    change PassInv size ((p.accepted.erase f).map (·.identifier)) m
    rwa [map_erase_of_mem h.pass.nodup hacc]
  | endPass =>
    cases hstep
    refine ⟨⟨h.pass.accounted, nodup_nil, fun k hk => (by cases hk), ?_⟩, fun f hf => (by cases hf)⟩
    exact h.pass.accounted.numFreeSlots_nonneg
  | freeEncoderInput r i =>
    cases hstep
    exact h.of_keeps (keeps_freeEncoderInput hop i)
  | free r =>
    cases hstep
    exact h.of_keeps (keeps_free hop)
  | getFreedMmHashes =>
    cases hstep
    exact h.of_keeps (x := getFreedMmHashes) fun s hs =>
      hs.of_same { hs.accounted with } rfl rfl
  | reset =>
    cases hstep
    refine ⟨⟨accounted_create _, h.pass.nodup, fun k _ => rfl, ?_⟩, h.sizes⟩
    have hroom := h.pass.room
    have hacc := h.pass.accounted.cacheSize_eq
    change ((p.acceptedHashes.map size).sum : ℤ) ≤ p.manager.cacheSize
    omega

/-- The invariant holds in every state reached. -/
lemma EncoderReachable.inv (h : EncoderReachable H size p) : EncoderInv size p := by
  refine Reached.invariant (fun p hp => ?_) (fun _ _ _ hinv hop hstep => hinv.step hop hstep) h
  obtain ⟨n, rfl⟩ := hp
  exact ⟨⟨accounted_create n, nodup_nil, fun k hk => (by cases hk), by simp [create,
    acceptedHashes]⟩, fun f hf => (by cases hf)⟩

/-- **The books of the encoder cache.**  In every state reached, every embedding is free or belongs
to a cached entry, the freeable embeddings are the free ones and those of the entries without
references, and the bounds between them hold.  From every such state `can_allocate` returns for
every input of every request, and accepted inputs are allocated without an assertion failing. -/
theorem encoder_cache_accounts (hp : EncoderReachable H size p) :
    p.manager.numFreeSlots + p.manager.cached.keySum size = p.manager.cacheSize ∧
    p.manager.numFreeableSlots = p.manager.numFreeSlots + p.manager.freeable.sum id ∧
    (∀ h, h ∈ p.manager.freeable.keys ↔ p.manager.cached.get? h = some []) ∧
    (0 ≤ p.manager.numFreeSlots ∧ p.manager.numFreeSlots ≤ p.manager.numFreeableSlots ∧
      p.manager.numFreeableSlots ≤ p.manager.cacheSize) ∧
    (∀ (r : Request H) (i : ℕ) (budget : ℤ) (n : ℕ), i < r.mmFeatures.length →
      ∃ b m, canAllocate r i budget n p.manager = .ok b m) ∧
    ∀ (r : Request H) (i : ℕ), (EncoderOp.allocate r i).Allowed size p →
      ∃ m, allocate r i p.manager = .ok () m := by
  have hinv := hp.inv
  have hacc := hinv.pass.accounted
  refine ⟨hacc.cacheSize_eq, hacc.freeable_eq, hacc.freeable_iff,
    ⟨hacc.numFreeSlots_nonneg, ?_, hacc.numFreeableSlots_le⟩, fun r i budget n hi => ?_,
    fun r i hop => ?_⟩
  · have := hacc.freeable_eq
    omega
  · obtain ⟨b, m, hrun, -⟩ := hinv.pass.canAllocate (getElem?_eq_getElem hi) budget n
    exact ⟨b, m, hrun⟩
  · obtain ⟨hsizes, f, hf, hmem⟩ := hop
    have hf' : r.mmFeatures[i]? = some f := hf
    obtain ⟨m, hrun, -⟩ := hinv.pass.allocate hf' (hsizes f (mem_of_getElem? hf'))
      (mem_map_of_mem hmem)
    exact ⟨m, hrun⟩

/-- A request with items of the given hashes; an item has as many embeddings as `size` says. -/
def itemsRequest (size : String → ℕ) (requestId : String) (hashes : List String) : Request ℕ :=
  { requestId := requestId
    priority := 0
    samplingParams := none
    poolingParams := none
    loraRequest := none
    useStructuredOutput := false
    arrivalTime := 0
    status := .running
    maxTokens := 1
    promptTokenIds := none
    promptEmbeds := none
    numPromptTokens := 0
    allTokenIds := []
    cacheSalt := none
    mmFeatures := hashes.map fun h => ⟨h, { offset := 0, length := size h }⟩
    skipReadingPrefixCache := false
    resumable := false
    abortImmediately := false }

/-- Two requests share an item that one of them has twice.  Both are freed, and an input that needs
the space evicts the items: the books are right, and the input can be allocated. -/
theorem encoder_cache_accounts_after_eviction :
    ∃ (size : String → ℕ) (p : EncoderPass) (r : Request ℕ), EncoderReachable ℕ size p ∧
      "img" ∈ p.manager.freed ∧ p.accepted.length = 1 ∧
      p.manager.numFreeSlots + p.manager.cached.keySum size = p.manager.cacheSize ∧
      ∃ m, allocate r 0 p.manager = .ok () m := by
  let size : String → ℕ := fun h => h.length + if h = "video" then 1 else 0
  let a := itemsRequest size "a" ["img", "img"]
  let b := itemsRequest size "b" ["pic", "img"]
  let c := itemsRequest size "c" ["video"]
  let ops : List (EncoderOp ℕ) :=
    [.checkAndUpdateCache a 0, .canAllocate a 0 9 true, .allocate a 0, .checkAndUpdateCache a 1,
      .checkAndUpdateCache b 1, .canAllocate b 0 9 true, .allocate b 0, .free a, .free b,
      .canAllocate c 0 9 true]
  obtain ⟨p, hreach, hfreed, hlen, hop⟩ : ∃ p, EncoderReachable ℕ size p ∧
      "img" ∈ p.manager.freed ∧ p.accepted.length = 1 ∧
      (EncoderOp.allocate c 0).Allowed size p :=
    Reached.exists_runAll ⟨7, rfl⟩ ops _ (by decide +kernel)
  obtain ⟨hsum, -, -, -, -, hallocate⟩ := encoder_cache_accounts hreach
  exact ⟨size, p, c, hreach, hfreed, hlen, hsum, hallocate c 0 hop⟩

end Lvllm
