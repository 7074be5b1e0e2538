import Lvllm.KVCache.CacheHit
import Lvllm.KVCache.PoolRuns

/-!
# The rows of a lookup

What the parts of the lookups return: the hashes of whole blocks (`Resolved`), the run of cached
blocks from the left, a cached tail inside a block, and rows that are popped to an aligned length.
`CachedUnder` says that a row was found under the hash at an index.
-/

namespace Lvllm

open List Nat

variable {H : Type}

/-! ## Rounding up -/

variable {a b n alignmentTokens : ℕ} {rows : List (List ℕ)} {hashes : List H}

/-- Division rounded up is the least number of blocks that cover the tokens. -/
lemma cdiv_le_iff {k : ℕ} (hb : 0 < b) : cdiv a b ≤ k ↔ a ≤ k * b := by
  rw [cdiv, div_le_iff_le_mul_add_pred hb, mul_comm b k]
  omega

lemma cdiv_mono {a' : ℕ} (b : ℕ) (h : a ≤ a') : cdiv a b ≤ cdiv a' b :=
  Nat.div_le_div_right (by omega)

lemma cdiv_mul_self (hb : 0 < b) (k : ℕ) : cdiv (k * b) b = k := by
  refine le_antisymm ((cdiv_le_iff hb).2 le_rfl) ?_
  have := (cdiv_le_iff (a := k * b) hb).1 le_rfl
  exact le_of_mul_le_mul_right this hb

/-- The tokens up to a point inside block `k` take `k + 1` blocks. -/
lemma cdiv_eq_succ {k : ℕ} (hb : 0 < b) (hlo : k * b < a) (hhi : a ≤ (k + 1) * b) :
    cdiv a b = k + 1 := by
  refine le_antisymm ((cdiv_le_iff hb).2 hhi) ?_
  by_contra hlt
  have : cdiv a b ≤ k := by omega
  rw [cdiv_le_iff hb] at this
  omega

/-- A length that ends inside a block takes that block too. -/
lemma cdiv_of_mod_ne_zero (hb : 0 < b) (h : a % b ≠ 0) : cdiv a b = a / b + 1 := by
  have hdiv := div_add_mod a b
  have hlt := mod_lt a hb
  refine cdiv_eq_succ hb ?_ ?_
  · rw [mul_comm]
    omega
  · rw [add_mul, one_mul, mul_comm]
    omega

/-! ## Rows and columns -/

/-- A filter that drops nothing keeps the positions. -/
lemma getElem?_filterMap_of_isSome {α β : Type} {f : α → Option β} {l : List α}
    (h : ∀ a ∈ l, (f a).isSome) (j : ℕ) : (l.filterMap f)[j]? = l[j]?.bind f := by
  induction l generalizing j with
  | nil => simp
  | cons a l ih =>
    obtain ⟨b, hb⟩ := Option.isSome_iff_exists.1 (h a mem_cons_self)
    rw [filterMap_cons_some hb]
    cases j with
    | zero => simp [hb]
    | succ j => simpa using ih (fun a' ha' => h a' (mem_cons_of_mem a ha')) j

/-- The blocks of group number `c` are the entries of the rows at `c`. -/
lemma getElem?_columnsOf (hrows : ∀ row ∈ rows, row.length = n) {c : ℕ} (hc : c < n) :
    ∃ col, (columnsOf n rows)[c]? = some col ∧
      col.length = rows.length ∧ ∀ j : ℕ, col[j]? = rows[j]?.bind (·[c]?) := by
  have hsome : ∀ row ∈ rows, (row[c]?).isSome := fun row hrow => by
    simpa [hrows row hrow] using hc
  refine ⟨rows.filterMap (·[c]?), ?_, ?_, getElem?_filterMap_of_isSome hsome⟩
  · simp [columnsOf, hc]
  · rw [length_filterMap_eq_countP, countP_eq_length]
    exact hsome

/-! ## Hashes of blocks -/

/-- Every block of `k` hashes has a last hash. -/
lemma isSome_lastHash (hashes : List H) {k idx : ℕ} (hk : 0 < k)
    (hidx : idx ∈ List.range (hashes.length / k)) : (hashes[(idx + 1) * k - 1]?).isSome := by
  rw [mem_range, lt_iff_add_one_le, le_div_iff_mul_le hk] at hidx
  have hpos : 0 < (idx + 1) * k := mul_pos (succ_pos idx) hk
  rw [isSome_getElem?]
  omega

/-- The coarser view takes every `k`-th hash. -/
lemma getElem?_resolveBlockHashes {resolved : List H} {hashBlockSize blockSize : ℕ}
    (hb : 0 < blockSize) (hne : blockSize ≠ hashBlockSize)
    (h : resolveBlockHashes hashes hashBlockSize blockSize = .ok resolved) {t : ℕ} {hash : H}
    (ht : resolved[t]? = some hash) :
    blockSize % hashBlockSize = 0 ∧
      hashes[(t + 1) * (blockSize / hashBlockSize) - 1]? = some hash := by
  unfold resolveBlockHashes at h
  rw [if_neg hne] at h
  split at h
  · cases h
  · rename_i hmod
    rw [ne_eq, not_not] at hmod
    simp only [Except.ok.injEq] at h
    subst h
    have hk : 0 < blockSize / hashBlockSize := by
      rcases Nat.eq_zero_or_pos (blockSize / hashBlockSize) with h0 | h0
      · have := Nat.div_add_mod blockSize hashBlockSize
        rw [h0, hmod] at this
        omega
      · exact h0
    rw [getElem?_filterMap_of_isSome fun idx => isSome_lastHash hashes hk] at ht
    obtain ⟨idx, hidx, hget⟩ := Option.bind_eq_some_iff.1 ht
    obtain ⟨hlt, rfl⟩ := List.getElem?_eq_some_iff.1 hidx
    rw [getElem_range] at hget
    exact ⟨hmod, hget⟩

/-- The hash of block `t` in the view of a group is a hash of the request. -/
lemma resolveBlockHashes_index {resolved : List H} {bh : BlockHasher H} {blockSize : ℕ}
    (hb : 0 < blockSize)
    (h : resolveBlockHashes hashes bh.hashBlockSize blockSize = .ok resolved) {t : ℕ} {hash : H}
    (ht : resolved[t]? = some hash) :
    ∃ d, 0 < d ∧ hashes[d - 1]? = some hash ∧ d * bh.hashBlockSize = (t + 1) * blockSize := by
  by_cases heq : blockSize = bh.hashBlockSize
  · unfold resolveBlockHashes at h
    rw [if_pos heq, Except.ok.injEq] at h
    subst h
    exact ⟨t + 1, by omega, ht, by rw [heq]⟩
  · obtain ⟨hmod, hget⟩ := getElem?_resolveBlockHashes hb heq h ht
    have hdvd : bh.hashBlockSize ∣ blockSize := dvd_of_mod_eq_zero hmod
    have hk : 0 < blockSize / bh.hashBlockSize := div_pos (le_of_dvd hb hdvd) bh.hashBlockSize_pos
    refine ⟨(t + 1) * (blockSize / bh.hashBlockSize), Nat.mul_pos (by omega) hk, hget, ?_⟩
    rw [Nat.mul_assoc, Nat.div_mul_cancel hdvd]

/-- `resolved` are the hashes of whole blocks: every hash is the last one of its block. -/
structure Resolved (hashes : List H) (hashBlockSize blockSize : ℕ) (resolved : List H) : Prop where
  length_eq : resolved.length = hashes.length / (blockSize / hashBlockSize)
  get : ∀ (j : ℕ) (hash : H), resolved[j]? = some hash →
    hashes[(j + 1) * (blockSize / hashBlockSize) - 1]? = some hash

section Resolve

variable {hashes resolved : List H} {hashBlockSize blockSize : ℕ}

/-- Blocks that consist of hash units have hashes. -/
lemma resolveBlockHashes_ok (hashes : List H) (hb : 0 < blockSize)
    (hdvd : hashBlockSize ∣ blockSize) :
    ∃ resolved, resolveBlockHashes hashes hashBlockSize blockSize = .ok resolved ∧
      Resolved hashes hashBlockSize blockSize resolved := by
  by_cases heq : blockSize = hashBlockSize
  · refine ⟨hashes, by rw [resolveBlockHashes, if_pos heq], ?_, fun j hash hj => ?_⟩
    · rw [← heq, Nat.div_self hb, Nat.div_one]
    · rw [← heq, Nat.div_self hb, Nat.mul_one, Nat.add_sub_cancel]
      exact hj
  · have hres : resolveBlockHashes hashes hashBlockSize blockSize =
        .ok ((List.range (hashes.length / (blockSize / hashBlockSize))).filterMap fun idx =>
          hashes[(idx + 1) * (blockSize / hashBlockSize) - 1]?) := by
      rw [resolveBlockHashes, if_neg heq, if_neg (not_not.2 (mod_eq_zero_of_dvd hdvd))]
    refine ⟨_, hres, ?_, fun j hash hj => (getElem?_resolveBlockHashes hb heq hres hj).2⟩
    have hk : 0 < blockSize / hashBlockSize :=
      div_pos (le_of_dvd hb hdvd) (pos_of_dvd_of_pos hdvd hb)
    rw [length_filterMap_eq_countP, countP_eq_length.2, length_range]
    exact fun idx => isSome_lastHash hashes hk

/-- A lookup that may end inside a block uses the hashes as they are. -/
lemma resolveLookupHashes_fine (hf : alignmentTokens < blockSize ∧ blockSize % alignmentTokens = 0)
    (hashes : List H) :
    resolveLookupHashes hashes hashBlockSize blockSize alignmentTokens true = .ok hashes := by
  unfold resolveLookupHashes
  split
  · rfl
  · rw [if_pos (by simpa using hf)]

/-- Other lookups use the hashes of whole blocks. -/
lemma resolveLookupHashes_coarse {fine : Bool}
    (hf : fine = true → ¬ (alignmentTokens < blockSize ∧ blockSize % alignmentTokens = 0))
    (hashes : List H) :
    resolveLookupHashes hashes hashBlockSize blockSize alignmentTokens fine =
      resolveBlockHashes hashes hashBlockSize blockSize := by
  unfold resolveLookupHashes
  split
  · rename_i heq
    rw [resolveBlockHashes, if_pos heq]
  · rw [if_neg]
    intro hc
    rw [Bool.and_eq_true, decide_eq_true_eq] at hc
    exact hf hc.1 hc.2

/-- Hashes that reach as far as a length have one for each of its blocks. -/
lemma Resolved.le_length (h : Resolved hashes hashBlockSize blockSize resolved)
    (hdvd : hashBlockSize ∣ blockSize) {maxLength : ℕ}
    (hcover : maxLength / hashBlockSize ≤ hashes.length) :
    maxLength / blockSize ≤ resolved.length := by
  rw [h.length_eq]
  calc maxLength / blockSize
      = maxLength / hashBlockSize / (blockSize / hashBlockSize) := by
        rw [Nat.div_div_eq_div_mul, Nat.mul_div_cancel' hdvd]
    _ ≤ _ := Nat.div_le_div_right hcover

/-- Without the fine-grained view the hashes are those of the blocks. -/
lemma resolveLookupHashes_eq_ok {alignment : ℕ}
    (h : resolveLookupHashes hashes hashBlockSize blockSize alignment false = .ok resolved) :
    resolveBlockHashes hashes hashBlockSize blockSize = .ok resolved := by
  unfold resolveLookupHashes at h
  split at h
  · rename_i heq
    rwa [resolveBlockHashes, if_pos heq]
  · simpa using h

end Resolve

/-! ## Rows of cached blocks -/

namespace BlockPool

/-- The row is cached under the hash at an index. -/
def CachedUnder (p : BlockPool H) (groupIds : List ℕ) (hashes : List H) (idx : ℕ)
    (row : List ℕ) : Prop :=
  ∃ hash, hashes[idx]? = some hash ∧ p.getCachedBlock hash groupIds = some row

variable {p : BlockPool H} {groupIds : List ℕ} {hashes : List H} {blockSize : ℕ} {row : List ℕ}

/-- A row of cached blocks has a block for each group. -/
lemma CachedUnder.length_eq {idx : ℕ} (h : p.CachedUnder groupIds hashes idx row) :
    row.length = groupIds.length := by
  obtain ⟨hash, -, hrow⟩ := h
  exact (getCachedBlock_stored hrow).length_eq.symm

/-- The run from the left finds each row under the hash at its position. -/
lemma getElem?_cachedRun {j : ℕ} (h : (p.cachedRun groupIds hashes)[j]? = some row) :
    ∃ hash, hashes[j]? = some hash ∧ p.getCachedBlock hash groupIds = some row := by
  induction hashes generalizing j with
  | nil => simp [cachedRun] at h
  | cons hash hashes ih =>
    simp only [cachedRun] at h
    split at h
    · simp at h
    · rename_i row' hrow'
      cases j with
      | zero =>
        obtain rfl : row' = row := by simpa using h
        exact ⟨hash, rfl, hrow'⟩
      | succ j => exact ih (by simpa using h)

lemma length_cachedRun_le (p : BlockPool H) (groupIds : List ℕ) (hashes : List H) :
    (p.cachedRun groupIds hashes).length ≤ hashes.length := by
  induction hashes with
  | nil => simp [cachedRun]
  | cons hash hashes ih =>
    simp only [cachedRun]
    split
    · simp
    · simpa using ih

/-- The partial hit is a cached hash between the bounds. -/
lemma cachedTail_eq_some {stop idx : ℕ}
    (h : p.cachedTail groupIds hashes stop n = some (row, idx)) :
    stop ≤ idx ∧ idx < stop + n ∧
      ∃ hash, hashes[idx]? = some hash ∧ p.getCachedBlock hash groupIds = some row := by
  induction n with
  | zero => simp [cachedTail] at h
  | succ n ih =>
    simp only [cachedTail] at h
    split at h
    · rename_i row' hrow'
      obtain ⟨hash, hget, hcached⟩ := Option.bind_eq_some_iff.1 hrow'
      obtain ⟨rfl, rfl⟩ := h
      exact ⟨by omega, by omega, hash, hget, hcached⟩
    · obtain ⟨hlo, hhi, hrest⟩ := ih h
      exact ⟨hlo, by omega, hrest⟩

lemma alignRows_of_aligned (h : rows.length * blockSize % alignmentTokens = 0) :
    alignRows blockSize alignmentTokens n rows = rows := by
  cases n with
  | zero => rfl
  | succ n => rw [alignRows, if_neg fun hne => hne.2 h]

/-- The loop of chunked local attention finds each row under the hash at its position. -/
lemma chunkScan_spec {i : ℕ} (h : p.chunkScan groupIds hashes n i = .ok rows) :
    rows.length ≤ n ∧ ∀ (j : ℕ) (row : List ℕ), rows[j]? = some row →
      ∃ hash, hashes[i + j]? = some hash ∧ p.getCachedBlock hash groupIds = some row := by
  induction n generalizing i rows with
  | zero =>
    cases h
    exact ⟨le_rfl, by simp⟩
  | succ n ih =>
    simp only [chunkScan] at h
    split at h
    · cases h
    · rename_i hash hget
      split at h
      · cases h
        exact ⟨zero_le _, by simp⟩
      · rename_i row hrow
        obtain ⟨rest, hrest, rfl⟩ := except_map_eq_ok.1 h
        obtain ⟨hlen, hrows⟩ := ih hrest
        refine ⟨by simpa using hlen, fun j row' hj => ?_⟩
        cases j with
        | zero =>
          obtain rfl : row = row' := by simpa using hj
          exact ⟨hash, hget, hrow⟩
        | succ j =>
          have := hrows j row' (by simpa using hj)
          rwa [show i + 1 + j = i + (j + 1) by omega] at this

end BlockPool

end Lvllm
