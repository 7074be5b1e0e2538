import Lvllm.KVCache.PoolRuns
import Lvllm.Sched.Admission

/-!
# Bounds on a chunk

The number of tokens that `Scheduler.schedule` gives to a request passes through several caps: the two
budgets, the length of the model, the alignment with Mamba states, the encoder inputs and the reserve
for the drafter.  None of them makes a chunk longer, so a chunk that is not empty meets the caps it
started from.

The encoder cuts a chunk in front of an item that cannot be encoded.  It finds the items of a chunk
by bisection, so the cut is inside the chunk for items in the order of their positions; the bounds are
stated for requests with such items.
-/

namespace Lvllm

open List Nat

/-! ## The length of a chunk -/

/-- In a list that is sorted by the key, what stands in front of the found index is smaller. -/
lemma key_lt_of_lt_bisectLeft {α : Type} {l : List α} {key : α → ℕ} {x : ℤ}
    (hsorted : l.Pairwise fun a b => key a ≤ key b) (fuel : ℕ) {lo hi : ℕ}
    (hlo : ∀ i a, i < lo → l[i]? = some a → (key a : ℤ) < x) :
    ∀ i a, i < bisectLeft l key x fuel lo hi → l[i]? = some a → (key a : ℤ) < x := by
  induction fuel generalizing lo hi with
  | zero => exact hlo
  | succ fuel ih =>
    unfold bisectLeft
    split
    · dsimp only
      generalize (lo + hi) / 2 = mid
      split
      · exact hlo
      · rename_i b hb
        split
        · rename_i hkey
          refine ih fun j c hj hc => ?_
          -- Everything up to the middle is at most the key there.
          rcases lt_or_ge j mid with hlt | hge
          · obtain ⟨hjl, rfl⟩ := List.getElem?_eq_some_iff.1 hc
            obtain ⟨hml, rfl⟩ := List.getElem?_eq_some_iff.1 hb
            have hle := pairwise_iff_getElem.1 hsorted j mid hjl hml hlt
            omega
          · obtain rfl : j = mid := by omega
            rw [hb] at hc
            cases hc
            exact hkey
        · exact ih hlo
    · exact hlo

lemma FeaturesOrdered.offsets {fs : List MultiModalFeatureSpec} (h : FeaturesOrdered fs) :
    fs.Pairwise fun f g => f.mmPosition.offset ≤ g.mmPosition.offset :=
  h.imp fun hfg => (le_add_right _ _).trans hfg

variable {H K : Type}

variable {r : Request H} {schedule : EncoderSchedule}

/-- The encoder never makes a chunk longer, if the items it looks at begin inside the window. -/
lemma encoderInputLoop_le {disable : Bool} {computed shift : ℕ} {windowEnd n : ℤ}
    (hwindow : windowEnd = computed + n + shift) {inputIds : List ℕ}
    (hids : ∀ i ∈ inputIds, ∀ f, r.mmFeatures[i]? = some f → (f.mmPosition.offset : ℤ) < windowEnd)
    {acc : EncoderSchedule} (hacc : acc.numNewTokens ≤ max n 0) {e e' : EncoderCacheManager}
    (h : encoderInputLoop disable r computed windowEnd shift inputIds acc e = .ok schedule e') :
    schedule.numNewTokens ≤ max n 0 := by
  induction inputIds generalizing acc e with
  | nil =>
    cases h
    exact hacc
  | cons inputId rest ih =>
    have hrest : ∀ i ∈ rest, ∀ f, r.mmFeatures[i]? = some f →
        (f.mmPosition.offset : ℤ) < windowEnd := fun i hi => hids i (mem_cons_of_mem _ hi)
    obtain ⟨feature, e1, hread, h⟩ := bind_eq_ok.1 h
    have hfeature := (liftExcept_eq_ok.1 hread).1
    have hlt : (feature.mmPosition.offset : ℤ) < windowEnd := by
      refine hids inputId mem_cons_self feature ?_
      unfold Request.mmFeature at hfeature
      split at hfeature
      · cases hfeature
      · rename_i f hf
        cases hfeature
        exact hf
    dsimp only at h
    split at h
    · exact ih hrest hacc h
    obtain ⟨cached, e2, -, h⟩ := bind_eq_ok.1 h
    split at h
    · refine ih hrest ?_ h
      exact hacc
    split at h
    · cases h
      show max 0 _ ≤ _
      omega
    obtain ⟨fits, e3, -, h⟩ := bind_eq_ok.1 h
    split at h
    · obtain ⟨window, e4, -, h⟩ := bind_eq_ok.1 h
      split at h
      · exact ih hrest hacc h
      · refine ih hrest ?_ h
        exact hacc
    · cases h
      dsimp only
      split
      · omega
      · omega

/-- The encoder never makes a chunk of a request with ordered items longer. -/
lemma tryScheduleEncoderInputs_le {c : SchedulerConfig H} {computed : ℕ} {n budget : ℤ}
    {e e' : EncoderCacheManager} (hord : FeaturesOrdered r.mmFeatures)
    (h : tryScheduleEncoderInputs c r computed n budget e = .ok schedule e') :
    schedule.numNewTokens ≤ max n 0 := by
  unfold tryScheduleEncoderInputs at h
  split at h
  · cases h
    exact le_max_left n 0
  · refine encoderInputLoop_le (n := n) rfl (fun i hi f hf => ?_) (le_max_left n 0) h
    have hlt := mem_range.1 (mem_of_mem_drop hi)
    refine key_lt_of_lt_bisectLeft hord.offsets _ (fun j _ hj => ?_) i f hlt hf
    exact absurd hj (not_lt_zero j)

/-- A small configuration with blocks of four tokens. -/
def smallConfig (asyncScheduling : Bool) : SchedulerConfig FreeHash :=
  { asyncScheduling := asyncScheduling
    blockHasher := some freeHasher
    maxNumRunningReqs := 4
    maxNumScheduledTokens := 16
    maxNumBatchedTokens := 16
    maxModelLen := 64
    blockSize := 4
    hashBlockSize := 4
    cacheBlockSize := 4 }

namespace SchedulerConfig

/-- The reserve for the look-ahead never makes a chunk longer. -/
lemma reservePrefillLookahead_le (c : SchedulerConfig H) (r : Request H) (computed : ℕ) (n : ℤ) :
    c.reservePrefillLookahead r computed n ≤ max n 0 := by
  unfold reservePrefillLookahead
  dsimp only
  split
  · omega
  · omega

lemma reservePrefillLookahead_nonneg (c : SchedulerConfig H) (r : Request H) (computed : ℕ)
    (n : ℤ) : 0 ≤ c.reservePrefillLookahead r computed n :=
  le_max_right _ _

/-- The earliest of some stops and the end. -/
lemma foldl_min_spec (stops : List ℤ) (n : ℤ) :
    stops.foldl min n ≤ n ∧ (∀ stop ∈ stops, stops.foldl min n ≤ stop) ∧
      (stops.foldl min n = n ∨ stops.foldl min n ∈ stops) := by
  rw [List.foldl_min]
  cases hmin : stops.min? with
  | none => simp [min?_eq_none_iff.1 hmin]
  | some stop =>
    obtain ⟨hmem, hle⟩ := min?_eq_some_iff.1 hmin
    refine ⟨min_le_left _ _, fun stop' h => (min_le_right _ _).trans (hle stop' h), ?_⟩
    rcases min_choice n stop with heq | heq
    · exact .inl heq
    · exact .inr (heq.symm ▸ hmem : min n stop ∈ stops)

/-- Moving the end of a chunk back to a block boundary does not move it forward. -/
lemma alignedEnd_le (c : SchedulerConfig H) (start : ℕ) (chunkEnd : ℤ) :
    c.alignedEnd start chunkEnd ≤ max chunkEnd start := by
  have haligned : chunkEnd / c.cacheBlockSize * c.cacheBlockSize ≤ max chunkEnd start := by
    rcases Nat.eq_zero_or_pos c.cacheBlockSize with hzero | hpos
    · rw [hzero]
      simp
    · exact (Int.ediv_mul_le _ (by omega)).trans (le_max_left _ _)
  unfold alignedEnd
  dsimp only
  generalize (if 0 < c.longPrefillTokenThreshold then
    min c.maxNumScheduledTokens c.longPrefillTokenThreshold else c.maxNumScheduledTokens) = most
  split
  · exact haligned
  · exact le_max_left _ _

/-- The most tokens of a prefill that a step takes. -/
def maxPrefillTokens (c : SchedulerConfig H) : ℕ :=
  if 0 < c.longPrefillTokenThreshold then
    min c.maxNumScheduledTokens c.longPrefillTokenThreshold
  else c.maxNumScheduledTokens

variable {c : SchedulerConfig H} {r : Request H} {start : ℕ} {n : ℤ}

/-- The chunk of a prefill ends at `F`: at the end `E` of the aligned chunk, or at the earliest stop in
front of it. -/
lemma mambaBlockAlignedSplit_spec (hstart : start < max r.numPromptTokens (r.numTokens - 1)) :
    ∃ E F last : ℤ, E ≤ max (start + n) start ∧
      c.mambaBlockAlignedSplit r start n = max (F - start) 0 ∧ F ≤ E ∧
      (∀ stop ∈ c.mandatoryStops r start E last, start < stop → stop < E → F ≤ stop) ∧
      (F = E ∨ F ∈ c.mandatoryStops r start E last ∧ start < F) ∧
      (c.mambaHasPrefillCheckpointBlocks = false → c.cacheBlockSize ≤ c.maxPrefillTokens →
        last = c.lastCachePosition r ∧
        ((max r.numPromptTokens (r.numTokens - 1) : ℕ) ≤ start + n ∧ E = start + n ∨
          start + n < (max r.numPromptTokens (r.numTokens - 1) : ℕ) ∧
            E = (start + n) / c.cacheBlockSize * c.cacheBlockSize)) := by
  unfold mambaBlockAlignedSplit
  dsimp only
  rw [if_neg (not_le.2 hstart)]
  set E : ℤ := if ((start : ℤ) + n < ↑(max r.numPromptTokens (r.numTokens - 1)) ∧
        (c.mambaHasPrefillCheckpointBlocks && decide (start % c.cacheBlockSize = 0)) = false)
      then c.alignedEnd start (start + n) else start + n with hE
  set last : ℤ :=
      if (c.mambaHasPrefillCheckpointBlocks && decide (start % c.cacheBlockSize = 0)) = true then 0
      else c.lastCachePosition r with hlast
  obtain ⟨hle, hall, hmem⟩ := foldl_min_spec ((c.mandatoryStops r start E last).filter
    fun stop => decide ((start : ℤ) < stop ∧ stop < E)) E
  refine ⟨E, _, last, ?_, rfl, hle, fun stop hstop hlow hhigh => hall stop ?_, hmem.imp_right ?_,
    fun hcheckpoint hfits => ?_⟩
  · rw [hE]
    split
    · exact c.alignedEnd_le start _
    · exact le_max_left _ _
  · exact mem_filter.2 ⟨hstop, decide_eq_true ⟨hlow, hhigh⟩⟩
  · intro hmem
    obtain ⟨hstop, hinside⟩ := mem_filter.1 hmem
    exact ⟨hstop, (of_decide_eq_true hinside).1⟩
  · rw [hcheckpoint, Bool.false_and] at hE hlast
    refine ⟨hlast, ?_⟩
    split at hE
    · rename_i hend
      exact .inr ⟨hend.1, hE.trans (if_pos (.inr hfits))⟩
    · rename_i hend
      exact .inl ⟨not_lt.1 fun hlt => hend ⟨hlt, rfl⟩, hE⟩

/-- The alignment with Mamba states never makes a chunk longer. -/
lemma mambaBlockAlignedSplit_le (c : SchedulerConfig H) (r : Request H) (start : ℕ) (n : ℤ) :
    c.mambaBlockAlignedSplit r start n ≤ max n 0 := by
  rcases lt_or_ge start (max r.numPromptTokens (r.numTokens - 1)) with hstart | hstart
  · obtain ⟨E, F, -, hE, hsplit, hF, -⟩ := c.mambaBlockAlignedSplit_spec hstart (n := n)
    omega
  · exact (if_pos hstart).trans_le (le_max_left n 0)

end SchedulerConfig

/-! ## Running requests -/

namespace Scheduler

/-- The caps on the chunk of a running request. -/
def runningCap (s : Scheduler H K) (p : Pass) (r : Request H) : ℤ :=
  min (min (min ((r.numTokensWithSpec : ℤ) + r.numOutputPlaceholders - r.numComputedTokens)
    p.tokenBudget) (p.inputBudget - s.config.draftSlots))
    ((s.config.maxModelLen : ℤ) - r.numComputedTokens - s.config.numSampledTokensPerStep)

lemma runningNumNewTokens_le (s : Scheduler H K) (p : Pass) (r : Request H) :
    s.runningNumNewTokens p r ≤ max (s.runningCap p r) 0 := by
  unfold runningNumNewTokens
  dsimp only
  set n : ℤ :=
      if 0 < s.config.longPrefillTokenThreshold ∧ (s.config.longPrefillTokenThreshold : ℤ) <
          r.numTokensWithSpec + r.numOutputPlaceholders - r.numComputedTokens then
        (s.config.longPrefillTokenThreshold : ℤ)
      else r.numTokensWithSpec + r.numOutputPlaceholders - r.numComputedTokens with hn
  have hle : n ≤ r.numTokensWithSpec + r.numOutputPlaceholders - r.numComputedTokens := by
    rw [hn]
    split
    · rename_i h
      exact h.2.le
    · exact le_refl _
  have hcap : min (min (min n p.tokenBudget) (p.inputBudget - s.config.draftSlots))
      ((s.config.maxModelLen : ℤ) - r.numComputedTokens - s.config.numSampledTokensPerStep) ≤
        s.runningCap p r := by
    unfold runningCap
    gcongr
  split
  · exact (s.config.mambaBlockAlignedSplit_le r _ _).trans (max_le_max hcap le_rfl)
  · exact hcap.trans (le_max_left _ _)

/-! ## Waiting requests -/

/-- What bounds the chunk of a waiting request that starts from `a`. -/
structure WaitingBounds (s : Scheduler H K) (p : Pass) (r : Request H) (a : Admission) (n : ℤ)
    (pad : Bool) : Prop where
  tokens : n ≤ p.tokenBudget
  input : n + s.config.draftSlots ≤ p.inputBudget
  unpadded : pad = false → a.numComputedTokens + n ≤ r.numTokens
  /-- A padded chunk stands for one token and fits the model. -/
  padded : pad = true → n ≤ 1 + s.config.numSpecTokens ∧ r.numTokens = a.numComputedTokens + 1 ∧
    a.numComputedTokens + (1 + s.config.numSpecTokens) + s.config.numSampledTokensPerStep ≤
      s.config.maxModelLen

variable {s : Scheduler H K} {a : Admission} {p : Pass} {pad : Bool}

lemma WaitingBounds.mono {n m : ℤ} (h : WaitingBounds s p r a n pad) (hle : m ≤ n) :
    WaitingBounds s p r a m pad where
  tokens := hle.trans h.tokens
  input := (Int.add_le_add_right hle _).trans h.input
  unpadded hpad := (Int.add_le_add_left hle _).trans (h.unpadded hpad)
  padded hpad := ⟨hle.trans (h.padded hpad).1, (h.padded hpad).2⟩

lemma padDecode_eq_some {budget : ℤ} {n m : ℕ} (h : s.padDecode p a budget n = some (m, pad)) :
    pad = false ∧ m = n ∨ pad = true ∧ m = 1 + s.config.numSpecTokens ∧ n = 1 ∧
        a.numComputedTokens + (1 + s.config.numSpecTokens) + s.config.numSampledTokensPerStep ≤
          s.config.maxModelLen := by
  unfold padDecode at h
  dsimp only at h
  split at h
  · rename_i hpad
    obtain ⟨-, -, -, hone, -, -, hfits⟩ := hpad
    split at h
    · cases h
    · cases h
      exact .inr ⟨rfl, rfl, hone, hfits⟩
  · cases h
    exact .inl ⟨rfl, rfl⟩

lemma waitingNumNewTokens_bounds {n : ℤ} (hpos : 0 < n)
    (h : s.waitingNumNewTokens p r a = some (n, pad)) :
    WaitingBounds s p r a n pad := by
  unfold waitingNumNewTokens at h
  dsimp only at h
  split at h
  · cases h
  · rename_i m pad' hpad
    set k := if 0 < s.config.longPrefillTokenThreshold ∧ s.config.longPrefillTokenThreshold < m then
          s.config.longPrefillTokenThreshold else m with hk
    have hkm : k ≤ m := by
      rw [hk]
      split
      · omega
      · exact le_rfl
    split at h
    · cases h
    · cases h
      have hcase := padDecode_eq_some hpad
      refine ⟨by omega, by omega, ?_, ?_⟩
      · rintro rfl
        rcases hcase with ⟨-, rfl⟩ | ⟨hfalse, -⟩
        · omega
        · cases hfalse
      · rintro rfl
        rcases hcase with ⟨hfalse, -⟩ | ⟨-, rfl, hone, hfits⟩
        · cases hfalse
        · exact ⟨by omega, by omega, hfits⟩

lemma alignWaiting_bounds {n m : ℤ} {pad' : Bool} (hpos : 0 < n)
    (hn : WaitingBounds s p r a n pad) (h : s.alignWaiting r a n pad = some (m, pad')) :
    WaitingBounds s p r a m pad' := by
  unfold alignWaiting at h
  dsimp only at h
  split at h
  · have hle := s.config.mambaBlockAlignedSplit_le r
      (r.numComputedTokens + a.numNewLocalComputedTokens + a.numExternalComputedTokens) n
    split at h
    · cases h
    split at h
    · rename_i hcut
      cases h
      obtain ⟨hone, hroom, -⟩ := hn.padded hcut.1
      have htokens := hn.tokens
      have hinput := hn.input
      refine ⟨by omega, by omega, fun _ => by omega, fun hfalse => ?_⟩
      cases hfalse
    · cases h
      exact hn.mono (by omega)
  · cases h
    exact hn

end Scheduler

end Lvllm
