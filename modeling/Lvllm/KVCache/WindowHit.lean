import Lvllm.KVCache.LookupRows
import Mathlib.Order.Bounds.Basic

/-!
# The longest hit of a sliding window

The search of a sliding window goes from the right to the left.  A run of cached blocks starts where
a hit may end; a missing block ends it.  `WindowScan` is what holds at each position: the run so far,
and that no run further to the right is long enough.  `WindowRun` is what the search returns, and
`WindowHit` what the lookup makes of it.

The lookup returns the longest hit that serves the window, with one exception: when the EAGLE block is
dropped, a hit that is shorter than the window loses one alignment unit, unless the unit is a block.
-/

namespace Lvllm

open List Option Nat SingleTypeKVCacheManager

variable {H : Type}

namespace BlockPool

variable (p : BlockPool H) (groupIds : List ℕ) (hashes : List H)

/-- The row of cached blocks at a block position. -/
def cachedAt (j : ℕ) : Option (List ℕ) :=
  hashes[j]?.bind (p.getCachedBlock · groupIds)

/-- The end of a run of cached blocks that is `len` blocks long, when its last block may be dropped,
is aligned. -/
def EndAligned (blockSize alignmentTokens : ℕ) (drop : Bool) (len : ℕ) : Prop :=
  (if drop then len - 1 else len) * blockSize % alignmentTokens = 0

/-- A window that needs `needed` blocks and ends at `e` has a missing block. -/
def Misses (needed e : ℕ) : Prop :=
  ∃ j < e, e ≤ j + needed ∧ p.cachedAt groupIds hashes j = none

/-- The state of the search at position `i`: the rows left of it are null, the last ones it wrote are
a run of cached blocks, and each end to the right of the run misses a block. -/
structure WindowScan (p : BlockPool H) (groupIds : List ℕ) (hashes : List H)
    (blockSize needed alignmentTokens : ℕ) (drop : Bool) (maxRows i : ℕ) (rows : List (List ℕ))
    (numContiguous : ℕ) : Prop where
  length_eq : rows.length = maxRows
  le_length : i + numContiguous ≤ maxRows
  null : ∀ (j : ℕ) (row : List ℕ), j < i → rows[j]? = some row →
    row = groupIds.map fun _ => p.nullBlock
  run : ∀ (j : ℕ) (row : List ℕ), i ≤ j → j < i + numContiguous → rows[j]? = some row →
    p.CachedUnder groupIds hashes j row
  endAligned : 0 < numContiguous →
    EndAligned blockSize alignmentTokens drop (i + numContiguous)
  misses : ∀ e, i + numContiguous < e → e ≤ maxRows →
    EndAligned blockSize alignmentTokens drop e → p.Misses groupIds hashes needed e

/-- The rows that the search returns: null rows, then from `lo` on rows of cached blocks, with an end
where a hit may end, and no end to the right of it that misses nothing. -/
structure WindowRun (p : BlockPool H) (groupIds : List ℕ) (hashes : List H)
    (blockSize needed alignmentTokens : ℕ) (drop : Bool) (maxRows lo : ℕ) (rows : List (List ℕ)) :
    Prop where
  length_le : rows.length ≤ maxRows
  null : ∀ (j : ℕ) (row : List ℕ), j < lo → rows[j]? = some row →
    row = groupIds.map fun _ => p.nullBlock
  cached : ∀ (j : ℕ) (row : List ℕ), lo ≤ j → rows[j]? = some row →
    p.CachedUnder groupIds hashes j row
  endAligned : 0 < rows.length → EndAligned blockSize alignmentTokens drop rows.length
  misses : ∀ e, rows.length < e → e ≤ maxRows →
    EndAligned blockSize alignmentTokens drop e → p.Misses groupIds hashes needed e

section Scan

variable {p : BlockPool H} {groupIds : List ℕ} {hashes : List H}
  {blockSize needed alignmentTokens : ℕ} {drop : Bool} {maxRows i : ℕ} {rows : List (List ℕ)}
  {numContiguous : ℕ}

/-- A missing block ends the run.  The run was not long enough, so that every end in it misses the
block. -/
lemma WindowScan.miss (h : WindowScan p groupIds hashes blockSize needed alignmentTokens drop maxRows
      (i + 1) rows numContiguous) (hshort : numContiguous + 1 ≤ needed)
    (hmiss : p.cachedAt groupIds hashes i = none) :
    WindowScan p groupIds hashes blockSize needed alignmentTokens drop maxRows i rows 0 := by
  have hle := h.le_length
  refine ⟨h.length_eq, by omega, fun j row hj => h.null j row (by omega),
    fun j row hlo hhi => by omega, fun hpos => by omega, fun e hlt he hend => ?_⟩
  rcases lt_or_ge (i + 1 + numContiguous) e with hright | hin
  · exact h.misses e hright he hend
  · exact ⟨i, by omega, by omega, hmiss⟩

/-- A block at which no hit may end does not start a run. -/
lemma WindowScan.skip (h : WindowScan p groupIds hashes blockSize needed alignmentTokens drop maxRows
      (i + 1) rows 0) (hend : ¬ EndAligned blockSize alignmentTokens drop (i + 1)) :
    WindowScan p groupIds hashes blockSize needed alignmentTokens drop maxRows i rows 0 := by
  have hle := h.le_length
  refine ⟨h.length_eq, by omega, fun j row hj => h.null j row (by omega),
    fun j row hlo hhi => by omega, fun hpos => by omega, fun e hlt he hend' => ?_⟩
  have hne : e ≠ i + 1 := fun heq => hend (heq ▸ hend')
  exact h.misses e (by omega) he hend'

/-- A cached block joins the run, or starts one where a hit may end. -/
lemma WindowScan.join (h : WindowScan p groupIds hashes blockSize needed alignmentTokens drop maxRows
      (i + 1) rows numContiguous) {row : List ℕ} (hrow : p.CachedUnder groupIds hashes i row)
    (hend : numContiguous = 0 → EndAligned blockSize alignmentTokens drop (i + 1)) :
    WindowScan p groupIds hashes blockSize needed alignmentTokens drop maxRows i (rows.set i row)
      (numContiguous + 1) := by
  have hle := h.le_length
  have hlen := h.length_eq
  have hassoc : i + (numContiguous + 1) = i + 1 + numContiguous := by omega
  refine ⟨by rw [length_set, hlen], by omega, fun j row' hj hget => ?_,
    fun j row' hlo hhi hget => ?_, fun _ => ?_, fun e hlt he hend' => ?_⟩
  · rw [getElem?_set_ne (by omega)] at hget
    exact h.null j row' (by omega) hget
  · by_cases hji : i = j
    · subst hji
      rw [getElem?_set_self (by omega)] at hget
      exact some.inj hget ▸ hrow
    · rw [getElem?_set_ne hji] at hget
      exact h.run j row' (by omega) (by omega) hget
  · rw [hassoc]
    rcases Nat.eq_zero_or_pos numContiguous with hzero | hpos
    · rw [hzero]
      exact hend hzero
    · exact h.endAligned hpos
  · exact h.misses e (by omega) he hend'

lemma WindowScan.windowRun (h : WindowScan p groupIds hashes blockSize needed alignmentTokens drop
      maxRows i rows numContiguous) (hne : i = 0 ∨ 0 < numContiguous) :
    WindowRun p groupIds hashes blockSize needed alignmentTokens drop maxRows i
      (rows.take (i + numContiguous)) ∧ (rows.take (i + numContiguous)).length = i + numContiguous := by
  have hlen : (rows.take (i + numContiguous)).length = i + numContiguous := by
    rw [length_take, h.length_eq]
    exact min_eq_left h.le_length
  refine ⟨⟨hlen.trans_le h.le_length, fun j row hj hrow => ?_, fun j row hj hrow => ?_, ?_, ?_⟩,
    hlen⟩
  · rw [getElem?_take, ite_none_right_eq_some] at hrow
    exact h.null j row hj hrow.2
  · rw [getElem?_take, ite_none_right_eq_some] at hrow
    exact h.run j row hj hrow.1 hrow.2
  · rw [hlen]
    intro hpos
    exact h.endAligned (by omega)
  · rw [hlen]
    exact h.misses

/-- The condition under which the search skips a cached block. -/
lemma not_endAligned_iff :
    ¬ EndAligned blockSize alignmentTokens drop (i + 1) ↔ blockSize ≠ alignmentTokens ∧
      (if drop = true then i else i + 1) * blockSize % alignmentTokens ≠ 0 := by
  constructor
  · intro h
    refine ⟨fun heq => h ?_, h⟩
    rw [heq]
    exact mul_mod_left _ _
  · exact fun h => h.2

/-- The search returns if there are hashes for the positions it visits. -/
lemma slidingWindowScan_run {contiguous : ℕ} (hi : i ≤ hashes.length)
    (hshort : numContiguous + 1 ≤ max 1 contiguous)
    (h : WindowScan p groupIds hashes blockSize (max 1 contiguous) alignmentTokens drop maxRows i
      rows numContiguous) :
    ∃ rows' numContiguous' found lo run, p.slidingWindowScan groupIds hashes blockSize contiguous
        alignmentTokens drop i rows numContiguous = .ok (rows', numContiguous', found) ∧
      run = (if found then rows' else rows'.take numContiguous') ∧
      WindowRun p groupIds hashes blockSize (max 1 contiguous) alignmentTokens drop maxRows lo run ∧
      (found = true ∧ lo + max 1 contiguous = run.length ∨
        found = false ∧ lo = 0 ∧ run.length < max 1 contiguous) := by
  induction i generalizing rows numContiguous with
  | zero =>
    obtain ⟨hrun, hlen⟩ := h.windowRun (.inl rfl)
    rw [zero_add] at hrun hlen
    exact ⟨rows, numContiguous, false, 0, _, rfl, rfl, hrun, .inr ⟨rfl, rfl, hlen.trans_lt hshort⟩⟩
  | succ i ih =>
    obtain ⟨hash, hhash⟩ : ∃ hash, hashes[i]? = some hash := ⟨_, getElem?_eq_getElem hi⟩
    simp only [slidingWindowScan, hhash]
    cases hrow : p.getCachedBlock hash groupIds with
    | none =>
      refine ih (by omega) (by omega) (h.miss hshort ?_)
      rw [cachedAt, hhash]
      exact hrow
    | some row =>
      dsimp only
      by_cases hskip : numContiguous = 0 ∧ blockSize ≠ alignmentTokens ∧
          (if drop = true then i else i + 1) * blockSize % alignmentTokens ≠ 0
      · rw [if_pos hskip]
        obtain ⟨rfl, hskip⟩ := hskip
        exact ih (by omega) hshort (h.skip (not_endAligned_iff.2 hskip))
      · rw [if_neg hskip]
        have hjoin := h.join ⟨hash, hhash, hrow⟩ fun hzero =>
          not_not.1 fun hend => hskip ⟨hzero, not_endAligned_iff.1 hend⟩
        split
        · rename_i hge
          obtain ⟨hrun, hlen⟩ := hjoin.windowRun (.inr (succ_pos _))
          exact ⟨_, _, true, i, _, rfl, rfl, hrun, .inl ⟨rfl, by rw [if_pos rfl, hlen]; omega⟩⟩
        · exact ih (by omega) (by omega) hjoin

end Scan

/-! ## The lookup -/

section Lookup

variable {p : BlockPool H} {groupIds : List ℕ} {hashes : List H}
  {blockSize needed alignmentTokens : ℕ} {drop : Bool} {maxRows lo : ℕ} {rows : List (List ℕ)}

/-- The rows of a sliding window hit: null rows, then from `lo` on rows of cached blocks, and these
are enough for the window, or all. -/
structure WindowHit (p : BlockPool H) (groupIds : List ℕ) (hashes : List H)
    (blockSize window alignmentTokens : ℕ) (drop : Bool) (maxRows lo : ℕ) (rows : List (List ℕ)) :
    Prop where
  null : ∀ (j : ℕ) (row : List ℕ), j < lo → rows[j]? = some row →
    row = groupIds.map fun _ => p.nullBlock
  cached : ∀ (j : ℕ) (row : List ℕ), lo ≤ j → rows[j]? = some row →
    p.CachedUnder groupIds hashes j row
  enough : lo + cdiv (window - 1) blockSize ≤ rows.length ∨ lo = 0
  aligned : rows.length * blockSize % alignmentTokens = 0
  length_le : rows.length ≤ maxRows
  length_lt : drop = true → 0 < rows.length → rows.length + 1 ≤ maxRows

variable {k n window maxLength : ℕ} {blockHashes : List H} {a : ℕ}

/-- A part of a run is a hit, if it is aligned and leaves out the block that is dropped. -/
lemma WindowRun.take
    (h : WindowRun p groupIds hashes blockSize needed alignmentTokens drop maxRows lo
      rows) (hk : k ≤ rows.length) (hdrop : drop = true → 0 < k → k + 1 ≤ rows.length)
    (henough : lo + cdiv (window - 1) blockSize ≤ k ∨ lo = 0)
    (haligned : k * blockSize % alignmentTokens = 0) :
    WindowHit p groupIds hashes blockSize window alignmentTokens drop maxRows lo (rows.take k) := by
  have hlen : (rows.take k).length = k := by rw [length_take, min_eq_left hk]
  refine ⟨fun j row hj hrow => ?_, fun j row hj hrow => ?_, by rwa [hlen], by rwa [hlen],
    by rw [hlen]; exact hk.trans h.length_le, fun hd hpos => ?_⟩
  · rw [getElem?_take, ite_none_right_eq_some] at hrow
    exact h.null j row hj hrow.2
  · rw [getElem?_take, ite_none_right_eq_some] at hrow
    exact h.cached j row hj hrow.2
  · rw [hlen] at hpos ⊢
    exact (hdrop hd hpos).trans h.length_le

/-- An aligned number of blocks is a multiple of the blocks in one alignment unit. -/
lemma mul_mod_eq_zero_iff (hb : 0 < blockSize) : k * blockSize % (a * blockSize) = 0 ↔ a ∣ k := by
  rw [← Nat.dvd_iff_mod_eq_zero]
  exact Nat.mul_dvd_mul_iff_right hb

/-- Rows are popped to the greatest aligned length. -/
lemma alignRows_eq_take (hb : 0 < blockSize) (hn : rows.length ≤ n) :
    alignRows blockSize (a * blockSize) n rows = rows.take (rows.length / a * a) := by
  induction n generalizing rows with
  | zero =>
    obtain rfl : rows = [] := length_eq_zero_iff.1 (le_zero.1 hn)
    rw [take_nil, alignRows]
  | succ n ih =>
    by_cases hdvd : a ∣ rows.length
    · rw [alignRows_of_aligned ((mul_mod_eq_zero_iff hb).2 hdvd), Nat.div_mul_cancel hdvd,
        take_length]
    · obtain ⟨l, hl⟩ : ∃ l, rows.length = l + 1 :=
        Nat.exists_eq_succ_of_ne_zero fun h0 => hdvd (h0 ▸ dvd_zero a)
      have hne : blockSize ≠ a * blockSize := fun heq =>
        hdvd ((eq_of_mul_eq_mul_right hb ((one_mul _).trans heq)) ▸ one_dvd _)
      rw [alignRows, if_pos ⟨hne, fun h => hdvd ((mul_mod_eq_zero_iff hb).1 h)⟩,
        ih (by rw [length_dropLast]; omega), dropLast_eq_take, take_take,
        length_take, hl, Nat.add_sub_cancel, Nat.min_eq_left (Nat.le_succ l),
        Nat.min_eq_left (Nat.div_mul_le_self l a), Nat.succ_div_of_not_dvd (hl ▸ hdvd)]

/-- What is left of a run of `len` blocks: nothing is dropped; or the last block is dropped; or, from
a run that is too short for the window, an alignment unit as well. -/
structure HitLength (blockSize needed alignmentTokens : ℕ) (drop : Bool) (len k : ℕ) : Prop where
  keep : drop = false → k = len
  dropLast : drop = true → blockSize = alignmentTokens ∨ needed ≤ len → k = len - 1
  dropUnit : drop = true → blockSize ≠ alignmentTokens → len < needed → 0 < alignmentTokens →
    k * blockSize = (len - 1) * blockSize - alignmentTokens

/-- The last block of a run that serves the window is dropped. -/
lemma WindowRun.alignRows_dropLast
    (h : WindowRun p groupIds hashes blockSize needed alignmentTokens true maxRows lo rows)
    (hpos : 0 < rows.length) :
    alignRows blockSize alignmentTokens n rows.dropLast = rows.take (rows.length - 1) ∧
      (rows.length - 1) * blockSize % alignmentTokens = 0 := by
  have hend : (rows.length - 1) * blockSize % alignmentTokens = 0 := h.endAligned hpos
  refine ⟨?_, hend⟩
  rw [alignRows_of_aligned (by rwa [length_dropLast]), dropLast_eq_take]

/-- The rows that the lookup keeps of a run that is too short for the window, when a block is dropped
and a unit is longer than a block. -/
lemma WindowRun.alignRows_short (hb : 0 < blockSize) (ha : a ≠ 1)
    (h : WindowRun p groupIds hashes blockSize needed (a * blockSize) true maxRows lo rows)
    {rows₁ rows₂ : List (List ℕ)} (h₁ : rows₁ = alignRows blockSize (a * blockSize) maxRows rows)
    (h₂ : rows₂ = if !rows₁.isEmpty then alignRows blockSize (a * blockSize) maxRows rows₁.dropLast
      else rows₁) :
    rows₂ = rows.take (rows.length - 1 - a) ∧ a ∣ rows.length - 1 - a := by
  rcases Nat.eq_zero_or_pos rows.length with hzero | hpos
  · obtain rfl : rows = [] := length_eq_zero_iff.1 hzero
    have hnil : alignRows blockSize (a * blockSize) maxRows ([] : List (List ℕ)) = [] :=
      alignRows_of_aligned (by simp)
    rw [hnil] at h₁
    subst h₁
    exact ⟨by simpa using h₂, by simp⟩
  obtain ⟨l, hl⟩ := exists_eq_succ_of_ne_zero hpos.ne'
  have hend : a ∣ l := by
    have := (mul_mod_eq_zero_iff hb).1 (h.endAligned hpos)
    rwa [hl] at this
  -- The whole run is not aligned, but without its last block it is.
  have hodd : ¬ a ∣ l + 1 := fun hdvd => ha (Nat.dvd_one.1 ((Nat.dvd_add_right hend).1 hdvd))
  rw [alignRows_eq_take hb h.length_le, hl, Nat.succ_div_of_not_dvd hodd,
    Nat.div_mul_cancel hend] at h₁
  rw [hl, Nat.succ_sub_one]
  cases l with
  | zero =>
    rw [h₁] at h₂
    exact ⟨by simpa using h₂, by simp⟩
  | succ m =>
    -- The next drop costs a whole unit.
    have hcut : rows₁.dropLast = rows.take m := by
      rw [h₁, dropLast_eq_take, take_take, length_take, hl]
      congr 1
      omega
    have hunit : m / a * a = m + 1 - a := by
      have hm := Nat.div_mul_cancel hend
      rw [Nat.succ_div_of_dvd hend, Nat.add_mul, Nat.one_mul] at hm
      omega
    have hne : rows₁.isEmpty = false := by
      rw [h₁, isEmpty_eq_false_iff]
      exact ne_nil_of_length_pos (by rw [length_take]; omega)
    have hlen : (rows.take m).length = m := by rw [length_take]; omega
    have hmax := h.length_le
    rw [hne, Bool.not_false, if_pos rfl, hcut, alignRows_eq_take hb (by omega), hlen,
      take_take, min_eq_left (div_mul_le_self m a), hunit] at h₂
    exact ⟨h₂, dvd_sub hend (dvd_refl a)⟩

lemma WindowRun.hit_keep
    (h : WindowRun p groupIds hashes blockSize needed alignmentTokens false maxRows lo rows)
    (henough : lo + cdiv (window - 1) blockSize ≤ rows.length ∨ lo = 0) :
    WindowHit p groupIds hashes blockSize window alignmentTokens false maxRows lo rows ∧
      rows.length * blockSize % alignmentTokens = 0 := by
  have haligned : rows.length * blockSize % alignmentTokens = 0 := by
    rcases Nat.eq_zero_or_pos rows.length with hzero | hpos
    · simp [hzero]
    · exact h.endAligned hpos
  have hhit := h.take le_rfl nofun henough haligned
  rw [take_length] at hhit
  exact ⟨hhit, haligned⟩

/-- What the lookup makes of the run that its search returns. -/
lemma WindowRun.hit {found : Bool} (hb : 0 < blockSize) (hmod : alignmentTokens % blockSize = 0)
    (hneeded : needed = max 1 (contiguousBlocksForHit window blockSize drop))
    (h : WindowRun p groupIds hashes blockSize needed alignmentTokens drop maxRows lo rows)
    (hfound : found = true ∧ lo + needed = rows.length ∨
      found = false ∧ lo = 0 ∧ rows.length < needed)
    {rows₁ rows₂ : List (List ℕ)}
    (h₁ : rows₁ = if found then rows else alignRows blockSize alignmentTokens maxRows rows)
    (h₂ : rows₂ = if drop && !rows₁.isEmpty then
      alignRows blockSize alignmentTokens maxRows rows₁.dropLast else rows₁) :
    WindowHit p groupIds hashes blockSize window alignmentTokens drop maxRows lo rows₂ ∧
      HitLength blockSize needed alignmentTokens drop rows.length rows₂.length := by
  obtain ⟨a, ha⟩ := dvd_of_mod_eq_zero hmod
  rw [mul_comm] at ha
  cases drop with
  | false =>
    have henough : lo + cdiv (window - 1) blockSize ≤ rows.length ∨ lo = 0 := by
      simp only [contiguousBlocksForHit, Bool.false_eq_true, if_false] at hneeded
      omega
    obtain ⟨hhit, haligned⟩ := h.hit_keep henough
    rw [alignRows_of_aligned haligned, ite_self] at h₁
    obtain rfl : rows₂ = rows := by rw [h₂, h₁]; rfl
    exact ⟨hhit, fun _ => rfl, nofun, nofun⟩
  | true =>
    simp only [contiguousBlocksForHit, if_true] at hneeded
    by_cases hshort : found = false ∧ blockSize ≠ alignmentTokens
    · obtain ⟨rfl, hne⟩ := hshort
      obtain ⟨-, rfl, hlt⟩ := hfound.resolve_left fun hf => Bool.false_ne_true hf.1
      have ha' : a ≠ 1 := fun hone => hne (by rw [ha, hone, one_mul])
      subst ha
      obtain ⟨rfl, hdvd⟩ := h.alignRows_short hb ha' h₁ h₂
      refine ⟨h.take (by omega) (fun _ _ => by omega) (.inr rfl) ((mul_mod_eq_zero_iff hb).2 hdvd),
        nofun, fun _ hor => ?_, fun _ _ _ _ => ?_⟩
      · rcases hor with heq | hge
        · exact absurd heq hne
        · omega
      · rw [length_take, Nat.min_eq_left (by omega), Nat.sub_mul]
    · -- The last block of the run is dropped, and nothing else.
      have hrows1 : rows₁ = rows := by
        cases found with
        | true => exact h₁
        | false =>
          have heq : blockSize = alignmentTokens := not_not.1 fun hne => hshort ⟨rfl, hne⟩
          rw [h₁, if_neg Bool.false_ne_true, alignRows_of_aligned]
          rw [heq]
          exact mul_mod_left _ _
      have henough : lo + cdiv (window - 1) blockSize ≤ rows.length - 1 ∨ lo = 0 := by omega
      have hrows2 : rows₂ = rows.take (rows.length - 1) ∧
          (rows.length - 1) * blockSize % alignmentTokens = 0 := by
        rw [hrows1] at h₂
        rcases Nat.eq_zero_or_pos rows.length with hzero | hpos
        · obtain rfl : rows = [] := length_eq_zero_iff.1 hzero
          exact ⟨by simpa using h₂, by simp⟩
        · have hne : rows.isEmpty = false := by
            rw [isEmpty_eq_false_iff]
            exact ne_nil_of_length_pos hpos
          rw [hne, Bool.not_false, Bool.and_true, if_pos rfl] at h₂
          rw [h₂]
          exact h.alignRows_dropLast hpos
      obtain ⟨rfl, haligned⟩ := hrows2
      refine ⟨h.take (sub_le _ _) (fun _ hpos => by omega) henough haligned,
        nofun, fun _ _ => ?_, fun _ hne hlt => ?_⟩
      · rw [length_take, min_eq_left (sub_le _ _)]
      · rcases hfound with ⟨-, hlong⟩ | ⟨hf, -⟩
        · omega
        · exact absurd ⟨hf, hne⟩ hshort

/-- The lookup returns if there are hashes for the blocks of the length asked for. -/
lemma slidingWindowHit_ok (hb : 0 < blockSize) (hmod : alignmentTokens % blockSize = 0)
    (hresolve : resolveLookupHashes blockHashes p.hasher.hashBlockSize blockSize alignmentTokens
      false = .ok hashes) (hcover : maxLength / blockSize ≤ hashes.length) (groupIds : List ℕ)
    (window : ℕ) (drop : Bool) (hneeded : needed =
      max 1 (contiguousBlocksForHit window blockSize drop)) :
    ∃ rows lo run, p.slidingWindowHit blockHashes maxLength groupIds blockSize window drop
        alignmentTokens = .ok (rows, rows.length * blockSize) ∧
      WindowHit p groupIds hashes blockSize window alignmentTokens drop (maxLength / blockSize) lo
        rows ∧
      WindowRun p groupIds hashes blockSize needed alignmentTokens drop (maxLength / blockSize) lo
        run ∧
      (lo + needed = run.length ∨ lo = 0) ∧
      HitLength blockSize needed alignmentTokens drop run.length rows.length := by
  have hinit : WindowScan p groupIds hashes blockSize needed alignmentTokens drop
      (maxLength / blockSize) (maxLength / blockSize)
      (List.replicate (maxLength / blockSize) (groupIds.map fun _ => p.nullBlock)) 0 := by
    refine ⟨length_replicate, le_rfl, fun j row _ hj => ?_, fun j row hlo hhi => by omega,
      fun hpos => by omega, fun e hlt he => by omega⟩
    obtain ⟨_, hrow⟩ := List.getElem?_eq_some_iff.1 hj
    rw [getElem_replicate] at hrow
    exact hrow.symm
  rw [hneeded] at hinit
  obtain ⟨rows0, numContiguous, found, lo, run, hscan, hrunEq, hrun, hfound⟩ :=
    slidingWindowScan_run hcover (le_max_left _ _) hinit
  rw [← hneeded] at hrun hfound
  have hrows1 : (if found then rows0 else alignRows blockSize alignmentTokens
      (maxLength / blockSize) (rows0.take numContiguous)) = if found then run else
        alignRows blockSize alignmentTokens (maxLength / blockSize) run := by
    cases found with
    | true | false => rw [hrunEq]; rfl
  obtain ⟨rows₁, h₁⟩ : ∃ rows₁, rows₁ = if found then run else alignRows blockSize alignmentTokens
    (maxLength / blockSize) run := ⟨_, rfl⟩
  obtain ⟨rows₂, h₂⟩ : ∃ rows₂, rows₂ = if drop && !rows₁.isEmpty then alignRows blockSize
    alignmentTokens (maxLength / blockSize) rows₁.dropLast else rows₁ := ⟨_, rfl⟩
  obtain ⟨hhit, hlength⟩ := hrun.hit hb hmod hneeded hfound h₁ h₂
  refine ⟨rows₂, lo, run, ?_, hhit, hrun, hfound.imp And.right (·.2.1), hlength⟩
  unfold slidingWindowHit
  rw [if_pos hmod, hresolve]
  simp only [pure, Except.pure, bind, Except.bind]
  rw [hscan]
  dsimp only
  rw [hrows1, ← h₁, ← h₂]

/-- A lookup that returns had hashes for the blocks of the length asked for. -/
lemma slidingWindowHit_inv {hit : List (List ℕ) × ℕ}
    (h : p.slidingWindowHit blockHashes maxLength groupIds blockSize window drop alignmentTokens =
      .ok hit) :
    alignmentTokens % blockSize = 0 ∧ ∃ hashes, resolveLookupHashes blockHashes
        p.hasher.hashBlockSize blockSize alignmentTokens false = .ok hashes ∧
      maxLength / blockSize ≤ hashes.length := by
  simp only [slidingWindowHit] at h
  by_cases hmod : alignmentTokens % blockSize = 0
  swap
  · rw [if_neg hmod] at h
    cases h
  rw [if_pos hmod] at h
  obtain ⟨hashes, hresolve, h⟩ := except_bind_eq_ok.1 h
  obtain ⟨scanned, hscan, -⟩ := except_bind_eq_ok.1 h
  refine ⟨hmod, hashes, hresolve, not_lt.1 fun hlt => ?_⟩
  -- The search starts at the last block, which has no hash.
  obtain ⟨i, hi⟩ : ∃ i, maxLength / blockSize = i + 1 := ⟨maxLength / blockSize - 1, by omega⟩
  rw [hi, slidingWindowScan, getElem?_eq_none (by omega)] at hscan
  cases hscan

/-- What a lookup returned is a hit of the window. -/
lemma slidingWindowHit_windowHit (hb : 0 < blockSize)
    (h : p.slidingWindowHit blockHashes maxLength groupIds blockSize window drop alignmentTokens =
      .ok (rows, n)) :
    n = rows.length * blockSize ∧ ∃ hashes lo, resolveLookupHashes blockHashes
        p.hasher.hashBlockSize blockSize alignmentTokens false = .ok hashes ∧
      WindowHit p groupIds hashes blockSize window alignmentTokens drop (maxLength / blockSize) lo
        rows := by
  obtain ⟨hmod, hashes, hresolve, hcover⟩ := slidingWindowHit_inv h
  obtain ⟨rows', lo, run, hhit, hrows, -⟩ :=
    slidingWindowHit_ok hb hmod hresolve hcover groupIds window drop rfl
  rw [h, Except.ok.injEq, Prod.mk.injEq] at hhit
  obtain ⟨rfl, rfl⟩ := hhit
  exact ⟨rfl, hashes, lo, hresolve, hrows⟩

/-- The loop of chunked local attention finds a row if the first block is cached. -/
lemma chunkScan_pos {i : ℕ} (h : p.chunkScan groupIds hashes n i = .ok rows) :
    0 < rows.length ↔ 0 < n ∧ (p.cachedAt groupIds hashes i).isSome = true := by
  cases n with
  | zero =>
    cases h
    simp
  | succ n =>
    simp only [chunkScan] at h
    rw [cachedAt]
    split at h
    · cases h
    · rename_i hash hget
      rw [hget, bind_some]
      split at h
      · rename_i hrow
        cases h
        simp [hrow]
      · rename_i row hrow
        obtain ⟨rest, -, rfl⟩ := except_map_eq_ok.1 h
        simp [hrow]

/-- A chunked local lookup returns null rows in front of its chunk and cached rows in it. -/
lemma chunkedLocalHit_windowHit (hb : 0 < blockSize) {chunk : ℕ}
    (h : p.chunkedLocalHit blockHashes maxLength groupIds blockSize chunk drop alignmentTokens =
      .ok (rows, n)) :
    n = rows.length * blockSize ∧ ∃ hashes, resolveLookupHashes blockHashes
        p.hasher.hashBlockSize blockSize alignmentTokens false = .ok hashes ∧
      WindowHit p groupIds hashes blockSize 1 alignmentTokens drop (maxLength / blockSize)
        (maxLength / chunk * chunk / blockSize) rows ∧
      maxLength / chunk * chunk / blockSize ≤ rows.length ∧
      (maxLength / chunk * chunk / blockSize < rows.length ↔
        maxLength / chunk * chunk / blockSize < maxLength / blockSize ∧
          (p.cachedAt groupIds hashes (maxLength / chunk * chunk / blockSize)).isSome = true) := by
  simp only [chunkedLocalHit] at h
  by_cases hassert : drop = false ∧ blockSize = alignmentTokens
  swap
  · rw [if_neg hassert] at h
    cases h
  rw [if_pos hassert] at h
  obtain ⟨rfl, rfl⟩ := hassert
  obtain ⟨hashes, hresolve, h⟩ := except_bind_eq_ok.1 h
  obtain ⟨cached, hscan, h⟩ := except_bind_eq_ok.1 h
  obtain ⟨rfl, rfl⟩ := h
  obtain ⟨hlen, hrows⟩ := chunkScan_spec hscan
  have hpos := chunkScan_pos hscan
  have hstart : maxLength / chunk * chunk / blockSize ≤ maxLength / blockSize :=
    Nat.div_le_div_right (Nat.div_mul_le_self _ _)
  refine ⟨rfl, hashes, hresolve, ⟨fun j row hlt hj => ?_, fun j row hle hj => ?_, .inl ?_,
    Nat.mul_mod_left _ _, ?_, fun hdrop => absurd hdrop Bool.false_ne_true⟩, ?_, ?_⟩
  · rw [getElem?_append_left (by rwa [length_replicate])] at hj
    exact eq_of_mem_replicate (mem_of_getElem? hj)
  · rw [getElem?_append_right (by rwa [length_replicate]), length_replicate] at hj
    obtain ⟨hash, hget, hrow⟩ := hrows _ row hj
    rw [Nat.add_sub_cancel' hle] at hget
    exact ⟨hash, hget, hrow⟩
  · rw [length_append, length_replicate]
    exact Nat.add_le_add_left ((cdiv_le_iff hb).2 (Nat.zero_le _)) _
  · rw [length_append, length_replicate]
    omega
  · rw [length_append, length_replicate]
    exact Nat.le_add_right _ _
  · rw [length_append, length_replicate, Nat.lt_add_right_iff_pos, hpos, Nat.sub_pos_iff_lt]

/-- The rows of a hit have a block for each group. -/
lemma WindowHit.width (h : WindowHit p groupIds hashes blockSize window alignmentTokens
    drop maxRows lo rows) : ∀ row ∈ rows, row.length = groupIds.length := by
  intro row hrow
  obtain ⟨j, hj⟩ := getElem?_of_mem hrow
  rcases lt_or_ge j lo with hlt | hge
  · rw [h.null j row hlt hj, length_map]
  · exact (h.cached j row hge hj).length_eq

/-! ## The longest hit -/

/-- Behind `n` tokens the window is cached: the block of each of the last `window - 1` tokens, and the
block that follows if it is dropped. -/
def ServesWindow (p : BlockPool H) (groupIds : List ℕ) (hashes : List H) (blockSize window : ℕ)
    (drop : Bool) (n : ℕ) : Prop :=
  (∀ t < n, n ≤ t + (window - 1) → (p.cachedAt groupIds hashes (t / blockSize)).isSome = true) ∧
    (drop = true → (p.cachedAt groupIds hashes (n / blockSize)).isSome = true)

/-- The lengths at which a hit may end: none, or an aligned one that serves the window and leaves room
for the block that is dropped. -/
def windowHits (p : BlockPool H) (groupIds : List ℕ) (hashes : List H)
    (blockSize window alignmentTokens maxLength : ℕ) (drop : Bool) : Set ℕ :=
  {n | n = 0 ∨ alignmentTokens ∣ n ∧
    (if drop then n + blockSize ≤ maxLength / blockSize * blockSize else n ≤ maxLength) ∧
    p.ServesWindow groupIds hashes blockSize window drop n}

/-- The block of a token in the window, and the tokens of a block in it. -/
lemma servesWindow_iff (hb : 0 < blockSize) :
    p.ServesWindow groupIds hashes blockSize window drop (k * blockSize) ↔
      (∀ j < k, k ≤ j + cdiv (window - 1) blockSize →
        (p.cachedAt groupIds hashes j).isSome = true) ∧
      (drop = true → (p.cachedAt groupIds hashes k).isSome = true) := by
  unfold ServesWindow
  rw [Nat.mul_div_cancel _ hb]
  refine and_congr_left' ⟨fun h j hj hk => ?_, fun h t ht hwindow => ?_⟩
  · -- The last token of block `j` is in the window.
    have hlt : (k - j - 1) * blockSize < window - 1 := by
      by_contra hge
      have hle := (cdiv_le_iff (k := k - j - 1) hb).2 (not_lt.1 hge)
      omega
    have hk' : k * blockSize = (k - j - 1) * blockSize + (j * blockSize + blockSize) := by
      rw [← succ_mul, ← add_mul]
      congr 1
      omega
    have hdiv : (j * blockSize + (blockSize - 1)) / blockSize = j := by
      rw [mul_comm, mul_add_div hb, div_eq_of_lt (by omega), add_zero]
    have := h (j * blockSize + (blockSize - 1)) (by omega) (by omega)
    rwa [hdiv] at this
  · refine h (t / blockSize) ((div_lt_iff_lt_mul hb).2 ht) ?_
    have hneeded := (cdiv_le_iff (a := window - 1) hb).1 le_rfl
    by_contra hlt
    have hmul := mul_le_mul_right blockSize (succ_le_of_lt (not_le.1 hlt))
    have hlt' := (div_lt_iff_lt_mul hb).1 (lt_succ_self (t / blockSize))
    rw [succ_eq_add_one, add_mul] at hlt'
    rw [succ_eq_add_one, add_mul, add_mul] at hmul
    omega

/-- The end of the run that the search returns, without the block that is dropped, is the longest
hit. -/
lemma WindowRun.isGreatest (hb : 0 < blockSize) (hmod : alignmentTokens % blockSize = 0)
    (hw : 1 < window ∨ drop = true) (hneeded : needed =
      max 1 (contiguousBlocksForHit window blockSize drop))
    (h : WindowRun p groupIds hashes blockSize needed alignmentTokens drop (maxLength / blockSize) lo
      rows) (hlo : lo + needed = rows.length ∨ lo = 0) :
    IsGreatest (p.windowHits groupIds hashes blockSize window alignmentTokens maxLength drop)
      ((if drop then rows.length - 1 else rows.length) * blockSize) := by
  have hblocks : needed = cdiv (window - 1) blockSize + if drop then 1 else 0 := by
    have hone : 1 ≤ cdiv (window - 1) blockSize + if drop then 1 else 0 := by
      rcases hw with hw | hw
      · have hpos : ¬ cdiv (window - 1) blockSize ≤ 0 := by
          rw [cdiv_le_iff hb]
          omega
        omega
      · rw [if_pos hw]
        omega
    rw [hneeded, contiguousBlocksForHit, max_eq_right hone]
  have hle := h.length_le
  have hmul := div_mul_le_self maxLength blockSize
  have hcached : ∀ j < rows.length, lo ≤ j → (p.cachedAt groupIds hashes j).isSome = true := by
    intro j hj hloj
    obtain ⟨hash, hhash, hrow⟩ := h.cached j _ hloj (getElem?_eq_getElem hj)
    rw [cachedAt, hhash, bind_some, hrow]
    rfl
  constructor
  · rcases Nat.eq_zero_or_pos rows.length with hzero | hpos
    · refine .inl ?_
      rw [hzero]
      split <;> simp
    refine .inr ⟨dvd_of_mod_eq_zero (h.endAligned hpos), ?_, (servesWindow_iff hb).2 ⟨?_, ?_⟩⟩
    · cases drop with
      | false => exact (mul_le_mul_right _ hle).trans hmul
      | true =>
        rw [if_pos rfl, if_pos rfl, ← succ_mul]
        exact mul_le_mul_right _ (by omega)
    · intro j hj hjw
      have hrun : lo ≤ j ∧ j < rows.length := by
        cases drop with
        | false =>
          simp only [Bool.false_eq_true, if_false] at hj hjw hblocks
          omega
        | true =>
          simp only [if_true] at hj hjw hblocks
          omega
      exact hcached j hrun.2 hrun.1
    · intro hdrop
      rw [if_pos hdrop] at hblocks ⊢
      exact hcached _ (by omega) (by omega)
  · rintro n (rfl | ⟨halign, hroom, hserves⟩)
    · exact zero_le _
    obtain ⟨k, rfl⟩ : ∃ k, n = k * blockSize := by
      obtain ⟨k, hk⟩ := (dvd_of_mod_eq_zero hmod).trans halign
      exact ⟨k, by rw [hk, mul_comm]⟩
    refine mul_le_mul_right _ (not_lt.1 fun hlt => ?_)
    rw [servesWindow_iff hb] at hserves
    -- A longer hit would end a run that misses a block.
    have hmax : k + (if drop then 1 else 0) ≤ maxLength / blockSize := by
      rw [le_div_iff_mul_le hb]
      cases drop with
      | false => exact hroom
      | true =>
        rw [if_pos rfl, add_mul, one_mul]
        exact hroom.trans hmul
    have hend : EndAligned blockSize alignmentTokens drop (k + if drop then 1 else 0) := by
      cases drop with
      | false | true => exact mod_eq_zero_of_dvd halign
    have hright : rows.length < k + if drop then 1 else 0 := by
      split at hlt <;> split <;> omega
    obtain ⟨j, hj, hjn, hnone⟩ := h.misses _ hright hmax hend
    have hsome : (p.cachedAt groupIds hashes j).isSome = true := by
      rcases lt_or_ge j k with hjk | hjk
      · exact hserves.1 j hjk (by omega)
      · cases drop with
        | false => simp only [Bool.false_eq_true, if_false] at hj; omega
        | true =>
          obtain rfl : j = k := by simp only [if_true] at hj; omega
          exact hserves.2 rfl
    rw [hnone] at hsome
    cases hsome

/-- The lookup returns the longest hit, less a unit where a short hit loses it. -/
lemma slidingWindowHit_longest (hb : 0 < blockSize) (halign : 0 < alignmentTokens)
    (hmod : alignmentTokens % blockSize = 0)
    (hresolve : resolveLookupHashes blockHashes p.hasher.hashBlockSize blockSize alignmentTokens
      false = .ok hashes) (hcover : maxLength / blockSize ≤ hashes.length) (groupIds : List ℕ)
    (hw : 1 < window ∨ drop = true) :
    ∃ rows n best, p.slidingWindowHit blockHashes maxLength groupIds blockSize window drop
        alignmentTokens = .ok (rows, n) ∧
      IsGreatest (p.windowHits groupIds hashes blockSize window alignmentTokens maxLength drop)
        best ∧
      n = if drop = true ∧ alignmentTokens ≠ blockSize ∧ best < window - 1 then
        best - alignmentTokens else best := by
  obtain ⟨rows, lo, run, hhit, -, hrun, hlo, hlength⟩ :=
    slidingWindowHit_ok hb hmod hresolve hcover groupIds window drop rfl
  refine ⟨rows, _, _, hhit, hrun.isGreatest hb hmod hw rfl hlo, ?_⟩
  cases drop with
  | false =>
    rw [hlength.keep rfl, if_neg fun h => Bool.false_ne_true h.1]
    rfl
  | true =>
    simp only [if_true, true_and]
    by_cases heq : alignmentTokens = blockSize
    · rw [hlength.dropLast rfl (.inl heq.symm), if_neg fun h => h.1 heq]
    · rcases lt_or_ge run.length (cdiv (window - 1) blockSize + 1) with hlt | hge
      · rw [hlength.dropUnit rfl (Ne.symm heq) hlt halign]
        split
        · rfl
        · rename_i hlong
          have hzero : run.length - 1 = 0 := by
            by_contra hpos
            refine hlong ⟨heq, not_le.1 fun hle => ?_⟩
            have := (cdiv_le_iff hb).2 hle
            omega
          rw [hzero, Nat.zero_mul, Nat.zero_sub]
      · rw [hlength.dropLast rfl (.inr hge), if_neg]
        rintro ⟨-, hshort⟩
        have hfull : cdiv (window - 1) blockSize ≤ run.length - 1 := by omega
        exact absurd ((cdiv_le_iff hb).1 hfull) (not_le.2 hshort)

/-- A pool in which the first five blocks of a request are cached. -/
lemma five_blocks_cached {r : Request FreeHash} (hr : r = textRequest ((List.range 20).map Int.ofNat)) :
    ∃ (pool p : BlockPool FreeHash) (rows chunkRows : List (List ℕ)),
      BlockPool.init 8 true freeHasher false = .ok pool ∧
      cacheFullBlocks r [1, 2, 3, 4, 5] 0 5 4 0 none pool = .ok () p ∧
      p.hasher.hashBlockSize = 4 ∧ p.keysOf p.nullBlock = [] ∧
      (∀ j < 5, (p.cachedAt [0] r.blockHashes j).isSome = true) ∧
      p.slidingWindowHit r.blockHashes 20 [0] 4 28 true 8 = .ok (rows, 8) ∧
      p.chunkedLocalHit r.blockHashes 20 [0] 4 8 false 4 = .ok (chunkRows, 20) := by
  obtain ⟨pool, hpool⟩ : ∃ p, BlockPool.init 8 true freeHasher false = .ok p := ⟨_, rfl⟩
  obtain ⟨⟨⟩, p, hcache, hsize, hnull, hall, ⟨⟨rows, -⟩, hrows, rfl⟩, ⟨chunkRows, -⟩, hchunkRows,
      rfl⟩ : ∃ u p, cacheFullBlocks r [1, 2, 3, 4, 5] 0 5 4 0 none pool = .ok u p ∧
        p.hasher.hashBlockSize = 4 ∧ p.keysOf p.nullBlock = [] ∧
        (∀ j ∈ List.range 5, (p.cachedAt [0] r.blockHashes j).isSome = true) ∧
        (∃ hit, p.slidingWindowHit r.blockHashes 20 [0] 4 28 true 8 = .ok hit ∧ hit.2 = 8) ∧
        ∃ hit, p.chunkedLocalHit r.blockHashes 20 [0] 4 8 false 4 = .ok hit ∧ hit.2 = 20 := by
    cases hpool
    rw [hr]
    decide +kernel
  exact ⟨pool, p, rows, chunkRows, hpool, hcache, hsize, hnull,
    fun j hj => hall j (mem_range.2 hj), hrows, hchunkRows⟩

/-- A computation that starts at `L` attends to its own chunk, from `L / chunk * chunk` on.  It can read
the hit in front of `L`: the block of each token of the chunk is cached and not null, and the blocks
without such a token are null. -/
def ChunkReadable (p : BlockPool H) (groupIds : List ℕ) (hashes : List H) (blockSize chunk : ℕ)
    (rows : List (List ℕ)) (L : ℕ) : Prop :=
  (∀ t < L, L / chunk * chunk ≤ t → ∃ row, rows[t / blockSize]? = some row ∧
    p.CachedUnder groupIds hashes (t / blockSize) row ∧ p.nullBlock ∉ row) ∧
  ∀ (j : ℕ) (row : List ℕ), rows[j]? = some row →
    (∀ t, t / blockSize = j → t < L / chunk * chunk) → row = groupIds.map fun _ => p.nullBlock

/-- What `ChunkedLocalAttentionManager.find_longest_cache_hit` returns is readable if and only if the
last block boundary in front of the chunk of `maxLength` is a chunk boundary as well, or the block
behind it is looked up and cached.  The first is the case if blocks divide chunks. -/
theorem chunked_local_hit_is_readable_iff (p : BlockPool H)
    (hnull : ∀ key, p.nullBlock ∉ p.cachedBlockHashToBlock.stored key) (blockHashes hashes : List H)
    (maxLength blockSize chunk alignmentTokens L : ℕ) (groupIds : List ℕ) (hgroups : groupIds ≠ [])
    (drop : Bool) (rows : List (List ℕ)) (hb : 0 < blockSize) (hchunk : 0 < chunk)
    (hresolve : resolveLookupHashes blockHashes p.hasher.hashBlockSize blockSize alignmentTokens
      false = .ok hashes)
    (h : p.chunkedLocalHit blockHashes maxLength groupIds blockSize chunk drop alignmentTokens =
      .ok (rows, L)) :
    p.ChunkReadable groupIds hashes blockSize chunk rows L ↔
      chunk ∣ maxLength / chunk * chunk / blockSize * blockSize ∨
      maxLength / chunk * chunk / blockSize < maxLength / blockSize ∧
        (p.cachedAt groupIds hashes (maxLength / chunk * chunk / blockSize)).isSome = true := by
  obtain ⟨rfl, hashes', hresolve', hrows, hlo, hlt⟩ := chunkedLocalHit_windowHit hb h
  obtain rfl : hashes' = hashes := Except.ok.inj (hresolve'.symm.trans hresolve)
  rw [← hlt]
  have hbehind := lt_mul_div_succ (maxLength / chunk * chunk) hb
  generalize hstart : maxLength / chunk * chunk / blockSize = lo at hrows hlo hbehind ⊢
  have hle : rows.length * blockSize ≤ maxLength :=
    (mul_le_mul_right _ hrows.length_le).trans (div_mul_le_self _ _)
  constructor
  · intro hread
    by_contra hnot
    obtain ⟨hndvd, hnlt⟩ := not_or.1 hnot
    obtain rfl : lo = rows.length := le_antisymm hlo (not_lt.1 hnlt)
    -- All blocks are null, and the last token is in the chunk.
    have hsplit := div_add_mod' (rows.length * blockSize) chunk
    obtain ⟨row, hrow, -, hmem⟩ := hread.1 (rows.length * blockSize - 1) (by omega) (by omega)
    have hin : (rows.length * blockSize - 1) / blockSize < rows.length :=
      (div_lt_iff_lt_mul hb).2 (by omega)
    obtain ⟨g, groups, rfl⟩ := exists_cons_of_ne_nil hgroups
    rw [hrows.null _ row hin hrow] at hmem
    exact hmem mem_cons_self
  · intro hcond
    rcases lt_or_ge lo rows.length with hmore | hall
    · -- The hit ends in the chunk of `maxLength`.
      have hend : maxLength / chunk * chunk ≤ rows.length * blockSize := by
        refine hbehind.le.trans ?_
        rw [mul_comm]
        exact mul_le_mul_right _ hmore
      have hsame : rows.length * blockSize / chunk = maxLength / chunk :=
        Nat.le_antisymm (Nat.div_le_div_right hle) ((Nat.le_div_iff_mul_le hchunk).2 hend)
      rw [ChunkReadable, hsame]
      refine ⟨fun t ht hfrom => ?_, fun j row hj hskipped => hrows.null j row ?_ hj⟩
      · have hin : t / blockSize < rows.length := (Nat.div_lt_iff_lt_mul hb).2 ht
        have hcached := hrows.cached _ _ (hstart ▸ Nat.div_le_div_right hfrom)
          (getElem?_eq_getElem hin)
        refine ⟨_, getElem?_eq_getElem hin, hcached, fun hmem => ?_⟩
        obtain ⟨hash, -, hrow⟩ := hcached
        obtain ⟨key, hkey⟩ := exists_stored_of_mem_row hrow hmem
        exact hnull key hkey
      · rw [← hstart, lt_div_iff_mul_lt hb]
        have hlast := hskipped (j * blockSize + (blockSize - 1)) (by
          rw [mul_comm, mul_add_div hb, div_eq_of_lt (by omega), add_zero])
        omega
    · -- Only null blocks, and the next token starts a chunk.
      obtain rfl : lo = rows.length := le_antisymm hlo hall
      have hdvd := hcond.resolve_right (lt_irrefl _)
      rw [ChunkReadable, Nat.div_mul_cancel hdvd]
      exact ⟨fun t ht hfrom => absurd hfrom (not_le.2 ht),
        fun j row hj _ => hrows.null j row (List.getElem?_eq_some_iff.1 hj).1 hj⟩

/-- Five cached blocks and chunks of two blocks. -/
theorem five_block_chunk_hit_is_readable : ∃ (pool p : BlockPool FreeHash) (rows : List (List ℕ)),
      BlockPool.init 8 true freeHasher false = .ok pool ∧
      cacheFullBlocks (textRequest ((List.range 20).map Int.ofNat)) [1, 2, 3, 4, 5] 0 5 4 0 none
        pool = .ok () p ∧
      p.chunkedLocalHit (textRequest ((List.range 20).map Int.ofNat)).blockHashes 20 [0] 4 8 false
        4 = .ok (rows, 20) ∧
      p.ChunkReadable [0] (textRequest ((List.range 20).map Int.ofNat)).blockHashes 4 8 rows 20 := by
  obtain ⟨pool, p, -, rows, hpool, hcache, hsize, hnull, -, -, hhit⟩ := five_blocks_cached rfl
  have hindex := (keeps_indexInv fun _ => keeps_cacheFullBlocks _ _ _ _ _ _ _).ok
    (indexInv_init hpool) hcache
  refine ⟨pool, p, rows, hpool, hcache, hhit, (chunked_local_hit_is_readable_iff p
    (fun key hmem => ?_) _ _ 20 4 8 4 20 [0] (by decide) false rows (by decide) (by decide)
    (by rw [hsize]; rfl) hhit).2 (.inl (by decide))⟩
  have hkey := (hindex.mem_stored_iff key _).1 hmem
  rw [hnull] at hkey
  cases hkey

/-- With blocks of four tokens and chunks of six, a prompt of eight tokens and an empty cache: the
second chunk starts in the second block, so the first block is null and four tokens are a hit.  The
next token is in the first chunk and attends to them. -/
theorem hit_in_front_of_part_block_is_unreadable :
    ∃ (pool : BlockPool FreeHash) (rows : List (List ℕ)),
      BlockPool.init 8 true freeHasher false = .ok pool ∧
      pool.chunkedLocalHit (textRequest ((List.range 8).map Int.ofNat)).blockHashes 7 [0] 4 6 false
        4 = .ok (rows, 4) ∧
      ¬ pool.ChunkReadable [0] (textRequest ((List.range 8).map Int.ofNat)).blockHashes 4 6 rows
        4 := by
  refine ⟨_, _, rfl, rfl, fun hread => ?_⟩
  obtain ⟨row, hrow, -, hmem⟩ := hread.1 0 (by decide) (by decide)
  cases hrow
  exact hmem mem_cons_self

end Lookup

end BlockPool

end Lvllm
