import Lvllm.Request.BlockHasher
import Mathlib.Data.List.Nodup
import Mathlib.Tactic.Ring

/-!
# What the block hasher computes

`requestBlockHasher` is a loop with an index into the multimodal features.  This file replaces
it by a specification: the digests, chained from the last hash already there, of the contents of
the blocks not hashed yet (`requestBlockHasher_eq`).

The content of a block is its tokens and its extra keys.  Which multimodal items enter the extra
keys depends on where the scan of the features started: at the first feature when no block is
hashed yet, at the last feature otherwise.  `blockContent bh r k i` is the content of block `i`
when the scan started at feature `k`.
-/

namespace Lvllm

open List Nat MultiModalFeatureSpec

variable {H : Type}

namespace MultiModalFeatureSpec

/-- The first position after the item. -/
def endPos (f : MultiModalFeatureSpec) : ℕ := f.mmPosition.offset + f.mmPosition.length

/-- The item has a position in the block of tokens from `s` up to `e`. -/
def Overlaps (s e : ℕ) (f : MultiModalFeatureSpec) : Prop :=
  f.mmPosition.offset < e ∧ s < f.endPos

instance (s e : ℕ) (f : MultiModalFeatureSpec) : Decidable (f.Overlaps s e) :=
  inferInstanceAs (Decidable (_ ∧ _))

/-- The extra key of an item in the block that starts at token `s`. -/
def key (s : ℕ) (f : MultiModalFeatureSpec) : ExtraKey :=
  .mm f.identifier ((f.mmPosition.offset : ℤ) - s)

end MultiModalFeatureSpec

/-- Features come in the order of their positions, which do not overlap. -/
def FeaturesOrdered (fs : List MultiModalFeatureSpec) : Prop :=
  fs.Pairwise fun f g => f.endPos ≤ g.mmPosition.offset

/-- The keys of the items that overlap a block. -/
def overlapKeys (s e : ℕ) (fs : List MultiModalFeatureSpec) : List ExtraKey :=
  (fs.filter (·.Overlaps s e)).map (·.key s)

/-! ## The scan of the multimodal features -/

variable {fs : List MultiModalFeatureSpec} {r : Request H} {bh : BlockHasher H}

/-- Features that end before the block contribute no key. -/
lemma overlapKeys_eq_nil {s e : ℕ} (h : ∀ f ∈ fs, ¬ f.Overlaps s e) : overlapKeys s e fs = [] := by
  simpa [overlapKeys] using h

lemma overlapKeys_append (s e : ℕ) (fs gs : List MultiModalFeatureSpec) :
    overlapKeys s e (fs ++ gs) = overlapKeys s e fs ++ overlapKeys s e gs := by
  simp [overlapKeys]

/-- On ordered features the loop collects exactly the items that overlap the block. -/
lemma genMmExtraHashKeysLoop_fst {s e : ℕ} (hfs : FeaturesOrdered fs) (idx : ℤ) :
    (genMmExtraHashKeysLoop s e fs idx).1 = overlapKeys s e fs := by
  induction fs generalizing idx with
  | nil => rfl
  | cons f fs ih =>
    obtain ⟨hf, hfs⟩ := pairwise_cons.1 hfs
    simp only [endPos] at hf
    -- Items after `f` start at or after its end.
    have hlate : e ≤ f.mmPosition.offset + f.mmPosition.length → overlapKeys s e fs = [] := by
      intro he
      refine overlapKeys_eq_nil fun g hg hov => ?_
      have := hf g hg
      have := hov.1
      omega
    by_cases h1 : e > f.mmPosition.offset
    · by_cases h2 : s ≥ f.mmPosition.offset + f.mmPosition.length
      · have hno : ¬ f.Overlaps s e := by
          simp only [MultiModalFeatureSpec.Overlaps, endPos]; omega
        simp [genMmExtraHashKeysLoop, h1, h2, ih hfs, overlapKeys, hno]
      · have hov : f.Overlaps s e := by
          simp only [MultiModalFeatureSpec.Overlaps, endPos]; omega
        have hcons : overlapKeys s e (f :: fs) = f.key s :: overlapKeys s e fs := by
          simp [overlapKeys, hov]
        rw [hcons]
        by_cases h3 : e ≥ f.mmPosition.offset + f.mmPosition.length
        · simp [genMmExtraHashKeysLoop, h1, h2, h3, ih hfs, key]
        · simp [genMmExtraHashKeysLoop, h1, h2, h3, hlate (by omega), key]
    · have hno : ¬ f.Overlaps s e := by
        simp only [MultiModalFeatureSpec.Overlaps, endPos]; omega
      have hcons : overlapKeys s e (f :: fs) = overlapKeys s e fs := by
        simp [overlapKeys, hno]
      rw [hcons, hlate (by omega)]
      simp [genMmExtraHashKeysLoop, h1]

/-- The loop moves the index past items that end by the end of the block, and past no other. -/
lemma genMmExtraHashKeysLoop_snd {s e : ℕ} (hse : s ≤ e) (fs : List MultiModalFeatureSpec)
    (idx : ℤ) :
    ∃ k ≤ fs.length, (genMmExtraHashKeysLoop s e fs idx).2 = idx + k ∧
      ∀ f ∈ fs.take k, f.endPos ≤ e := by
  induction fs generalizing idx with
  | nil => exact ⟨0, le_rfl, by simp [genMmExtraHashKeysLoop], by simp⟩
  | cons f fs ih =>
    have hmove : f.endPos ≤ e → ∃ k ≤ (f :: fs).length,
        (genMmExtraHashKeysLoop s e fs (idx + 1)).2 = idx + k ∧
          ∀ g ∈ (f :: fs).take k, g.endPos ≤ e := by
      intro hf
      obtain ⟨k, hk, hidx, hall⟩ := ih (idx + 1)
      refine ⟨k + 1, by simpa using hk, by rw [hidx]; push_cast; ring, ?_⟩
      intro g hg
      rcases mem_cons.1 (by simpa using hg) with rfl | hg
      · exact hf
      · exact hall g hg
    simp only [endPos] at hmove ⊢
    by_cases h1 : e > f.mmPosition.offset
    · by_cases h2 : s ≥ f.mmPosition.offset + f.mmPosition.length
      · simpa [genMmExtraHashKeysLoop, h1, h2] using hmove (by omega)
      · by_cases h3 : e ≥ f.mmPosition.offset + f.mmPosition.length
        · simpa [genMmExtraHashKeysLoop, h1, h2, h3] using hmove h3
        · simp [genMmExtraHashKeysLoop, h1, h2, h3]
    · simp [genMmExtraHashKeysLoop, h1]

/-- A scan that started at feature `k` has come to index `idx` at token `s`: everything it has
passed ends by `s`.  A negative index counts from the end of the features; without features the
index is never read. -/
def ScanAt (r : Request H) (k s : ℕ) (idx : ℤ) : Prop :=
  r.mmFeatures ≠ [] → ∃ m : ℕ, (if idx < 0 then r.mmFeatures.length + idx else idx) = m ∧ k ≤ m ∧
    m ≤ r.mmFeatures.length ∧ ∀ f ∈ (r.mmFeatures.take m).drop k, f.endPos ≤ s

/-- All features end by the end of the last one. -/
lemma endPos_le_getLast (hfs : FeaturesOrdered fs) {last : MultiModalFeatureSpec}
    (hlast : fs.getLast? = some last) :
    ∀ f ∈ fs, f.endPos ≤ last.endPos := by
  obtain ⟨init, rfl⟩ : ∃ init, fs = init ++ [last] := by
    rw [getLast?_eq_some_iff] at hlast
    exact hlast
  intro f hf
  rcases mem_append.1 hf with hf | hf
  · have := (pairwise_append.1 hfs).2.2 f hf last (by simp)
    simp only [endPos] at this ⊢
    omega
  · rw [mem_singleton.1 hf]

/-- One block of the scan: its keys, and where the scan stands afterwards. -/
lemma genMmExtraHashKeys_of_scanAt (hfs : FeaturesOrdered r.mmFeatures) {k s e : ℕ} (hse : s ≤ e)
    {idx : ℤ} (hidx : ScanAt r k s idx) :
    (genMmExtraHashKeys r s e idx).1 = overlapKeys s e (r.mmFeatures.drop k) ∧
      ScanAt r k e (genMmExtraHashKeys r s e idx).2 := by
  cases hlast : r.mmFeatures.getLast? with
  | none =>
    have hnil : r.mmFeatures = [] := getLast?_eq_none_iff.1 hlast
    simp only [genMmExtraHashKeys, hlast]
    exact ⟨by simp [hnil, overlapKeys], fun hne => absurd hnil hne⟩
  | some last =>
    have hne : r.mmFeatures ≠ [] := by
      rintro hnil
      simp [hnil] at hlast
    obtain ⟨m, hm, hkm, hml, hpassed⟩ := hidx hne
    have hmono : ScanAt r k e idx := fun _ =>
      ⟨m, hm, hkm, hml, fun f hf => (hpassed f hf).trans hse⟩
    simp only [genMmExtraHashKeys, hlast]
    split
    · rename_i hend
      refine ⟨(overlapKeys_eq_nil fun f hf hov => ?_).symm, hmono⟩
      have := endPos_le_getLast hfs hlast f (mem_of_mem_drop hf)
      have := hov.2
      simp only [endPos] at *
      omega
    · have hsplit : r.mmFeatures.drop k = (r.mmFeatures.take m).drop k ++ r.mmFeatures.drop m := by
        conv_lhs => rw [← take_append_drop m r.mmFeatures]
        rw [drop_append_of_le_length (by simp; omega)]
      have hdone : overlapKeys s e ((r.mmFeatures.take m).drop k) = [] :=
        overlapKeys_eq_nil fun f hf hov => by
          have := hpassed f hf
          have := hov.2
          omega
      rw [hm]
      simp only [Int.toNat_natCast]
      refine ⟨?_, ?_⟩
      · rw [genMmExtraHashKeysLoop_fst (hfs.drop), hsplit, overlapKeys_append, hdone, nil_append]
      · obtain ⟨j, hj, hjidx, hjall⟩ := genMmExtraHashKeysLoop_snd hse (r.mmFeatures.drop m) m
        rw [length_drop] at hj
        refine fun _ => ⟨m + j, ?_, by omega, by omega, ?_⟩
        · rw [hjidx, if_neg (by omega)]
          rfl
        · intro f hf
          have hsplit' : (r.mmFeatures.take (m + j)).drop k =
              (r.mmFeatures.take m).drop k ++ (r.mmFeatures.drop m).take j := by
            rw [take_add, drop_append_of_le_length (by simp; omega)]
          rw [hsplit', mem_append] at hf
          rcases hf with hf | hf
          · exact (hpassed f hf).trans hse
          · exact hjall f hf

/-! ## The blocks of a request -/

/-- The content of a block: its tokens and its extra keys. -/
abbrev BlockContent := List Token × Option (List ExtraKey)

/-- The content of block `i` when the scan of the multimodal features started at feature `k`. -/
def blockContent (bh : BlockHasher H) (r : Request H) (k i : ℕ) : BlockContent :=
  let s := i * bh.hashBlockSize
  let e := s + bh.hashBlockSize
  let keys := extraKeysList bh r s e (overlapKeys s e (r.mmFeatures.drop k))
  ((r.allTokenIds.take e).drop s, tupleOrNone keys)

/-- The number of full blocks in the request's tokens. -/
def Request.numFullBlocks (bh : BlockHasher H) (r : Request H) : ℕ :=
  r.numTokens / bh.hashBlockSize

/-- The feature at which the hasher starts its scan, given how many blocks are hashed. -/
def scanStart (r : Request H) (numHashed : ℕ) : ℕ :=
  if 0 < numHashed then r.mmFeatures.length - 1 else 0

lemma range_eq_append {m m' : ℕ} (h : m ≤ m') :
    List.range m' = List.range m ++ List.range' m (m' - m) := by
  have happ : List.range' 0 m ++ List.range' (0 + m) (m' - m) = List.range' 0 (m + (m' - m)) :=
    range'_append_1
  rw [Nat.zero_add, Nat.add_sub_cancel' h] at happ
  rw [range_eq_range', range_eq_range', happ]

/-- A block is full exactly when its index is below the number of full blocks. -/
lemma lt_numFullBlocks_iff {i : ℕ} :
    i < r.numFullBlocks bh ↔ i * bh.hashBlockSize + bh.hashBlockSize ≤ r.numTokens := by
  rw [Request.numFullBlocks, lt_iff_add_one_le, le_div_iff_mul_le bh.hashBlockSize_pos,
    add_mul, one_mul]

/-- The scan starts at the feature `scanStart` names. -/
lemma scanAt_start (bh : BlockHasher H) (r : Request H) (n : ℕ) :
    ScanAt r (scanStart r n) (n * bh.hashBlockSize)
      (if n * bh.hashBlockSize > 0 then -1 else 0) := by
  intro hfs
  have hlen : 0 < r.mmFeatures.length := length_pos_iff.2 hfs
  by_cases hn : 0 < n
  · have hpos : n * bh.hashBlockSize > 0 := mul_pos hn bh.hashBlockSize_pos
    refine ⟨r.mmFeatures.length - 1, ?_, by simp [scanStart, hn], by omega, ?_⟩
    · omega
    · simp [scanStart, hn]
  · obtain rfl : n = 0 := by omega
    exact ⟨0, by simp, by simp [scanStart], by omega, by simp⟩

variable [DecidableEq H]

/-- The digest step of the hash chain. -/
def chainStep (bh : BlockHasher H) (parent : H) (c : BlockContent) : H :=
  hashBlockTokens bh (some parent) c.1 c.2

/-- The chained hashes of a list of block contents, computed from scratch. -/
def chainHashes (bh : BlockHasher H) (cs : List BlockContent) : List H :=
  digests (chainStep bh) bh.noneHash cs

/-- The last hash of a chain, or the seed of the empty one, is the fold over its contents. -/
lemma getLast?_chainHashes (bh : BlockHasher H) (cs : List BlockContent) :
    (chainHashes bh cs).getLast?.getD bh.noneHash = cs.foldl (chainStep bh) bh.noneHash := by
  rw [chainHashes, getLast?_digests]
  split
  · rename_i hnil
    rw [hnil]
    rfl
  · rfl

/-- A missing parent hash acts as `NONE_HASH`. -/
lemma hashBlockTokens_eq_chainStep (bh : BlockHasher H) (parent : Option H)
    (tokens : List Token) (extraKeys : Option (List ExtraKey)) :
    hashBlockTokens bh parent tokens extraKeys =
      chainStep bh (parent.getD bh.noneHash) (tokens, extraKeys) := by
  cases parent with
  | none => simp [chainStep, hashBlockTokens]
  | some p => rfl

/-- The loop hashes the contents of the remaining full blocks, in order. -/
lemma requestBlockHasherLoop_eq (hfs : FeaturesOrdered r.mmFeatures) {k : ℕ} (fuel i : ℕ) {idx : ℤ}
    (prev : Option H) (hidx : ScanAt r k (i * bh.hashBlockSize) idx)
    (hfuel : r.numFullBlocks bh ≤ i + fuel) :
    requestBlockHasherLoop bh r fuel (i * bh.hashBlockSize) idx prev =
      digests (chainStep bh) (prev.getD bh.noneHash)
        ((List.range' i (r.numFullBlocks bh - i)).map (blockContent bh r k)) := by
  induction fuel generalizing i idx prev with
  | zero =>
    have : r.numFullBlocks bh - i = 0 := by omega
    simp [requestBlockHasherLoop, this]
  | succ fuel ih =>
    by_cases hi : i < r.numFullBlocks bh
    · have hfull := lt_numFullBlocks_iff.1 hi
      obtain ⟨hkeys, hnext⟩ := genMmExtraHashKeys_of_scanAt hfs
        (le_add_right (i * bh.hashBlockSize) bh.hashBlockSize) hidx
      have hstep : i * bh.hashBlockSize + bh.hashBlockSize = (i + 1) * bh.hashBlockSize := by ring
      have hcontent : ((r.allTokenIds.take (i * bh.hashBlockSize + bh.hashBlockSize)).drop
            (i * bh.hashBlockSize),
          (generateBlockHashExtraKeys bh r (i * bh.hashBlockSize)
            (i * bh.hashBlockSize + bh.hashBlockSize) idx).1) = blockContent bh r k i := by
        simp [generateBlockHashExtraKeys, blockContent, hkeys]
      have hrange : List.range' i (r.numFullBlocks bh - i) =
          i :: List.range' (i + 1) (r.numFullBlocks bh - (i + 1)) := by
        rw [show r.numFullBlocks bh - i = (r.numFullBlocks bh - (i + 1)) + 1 by omega, range'_succ]
      rw [hrange, map_cons, digests_cons]
      simp only [requestBlockHasherLoop, if_neg (not_lt.2 hfull)]
      rw [hashBlockTokens_eq_chainStep, hcontent]
      congr 1
      rw [hstep] at hnext ⊢
      exact ih (i + 1) (some (chainStep bh (prev.getD bh.noneHash) (blockContent bh r k i)))
        hnext (by omega)
    · have hnot : r.numTokens < i * bh.hashBlockSize + bh.hashBlockSize := by
        by_contra h
        exact hi (lt_numFullBlocks_iff.2 (by omega))
      have : r.numFullBlocks bh - i = 0 := by omega
      simp [requestBlockHasherLoop, hnot, this]

/-- `request_block_hasher` returns the chained hashes of the full blocks not hashed yet. -/
theorem requestBlockHasher_eq (hfs : FeaturesOrdered r.mmFeatures) : requestBlockHasher bh r =
      digests (chainStep bh) (r.blockHashes.getLast?.getD bh.noneHash)
        ((List.range' r.blockHashes.length (r.numFullBlocks bh - r.blockHashes.length)).map
          (blockContent bh r (scanStart r r.blockHashes.length))) := by
  simp only [requestBlockHasher]
  split
  · rename_i hnot
    have hle : r.numFullBlocks bh ≤ r.blockHashes.length := by
      by_contra hlt
      have := lt_numFullBlocks_iff.1 (Nat.lt_of_not_le hlt)
      omega
    simp [Nat.sub_eq_zero_of_le hle]
  · refine requestBlockHasherLoop_eq hfs _ _ _ (scanAt_start bh r _) ?_
    have : r.numFullBlocks bh ≤ r.numTokens := Nat.div_le_self _ _
    omega

end Lvllm
