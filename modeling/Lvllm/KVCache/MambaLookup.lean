import Lvllm.KVCache.Mamba
import Lvllm.KVCache.LookupRows

/-!
# What a Mamba lookup finds

A hit of a Mamba group is a single cached state: the block that holds it, behind null blocks for the
tokens before.  `StateRows` says where the state was found, and `mambaHit_spec` that the lookup finds
nothing else, ends on the alignment and within the length asked for.
-/

namespace Lvllm

open Nat

variable {H : Type}

namespace BlockPool

variable {p : BlockPool H} {groupIds : List ℕ} {hashes : List H} {blockSize alignmentTokens : ℕ}
  {rows : List (List ℕ)}

/-- The rows of a hit of `n` tokens: none, or null blocks and the state at `n`, which is cached under
the hash of the `unit` tokens before it. -/
def StateRows (p : BlockPool H) (groupIds : List ℕ) (hashes : List H) (blockSize unit : ℕ)
    (rows : List (List ℕ)) (n : ℕ) : Prop :=
  rows = [] ∧ n = 0 ∨
    ∃ idx hash row, hashes[idx]? = some hash ∧ p.getCachedBlock hash groupIds = some row ∧
      n = (idx + 1) * unit ∧ 0 < n ∧
      rows = List.replicate ((n - 1) / blockSize) (groupIds.map fun _ => p.nullBlock) ++ [row]

lemma mul_pred_div {a : ℕ} (ha : 0 < a) (i : ℕ) : ((i + 1) * a - 1) / a = i := by
  rw [Nat.add_mul, one_mul, Nat.add_sub_assoc ha, Nat.mul_comm, Nat.mul_add_div ha,
    Nat.div_eq_of_lt (Nat.sub_lt ha Nat.one_pos), Nat.add_zero]

/-- The scan from the right stops at the first state on the alignment. -/
lemma mambaScan_spec (hb : 0 < blockSize) {i n : ℕ}
    (h : p.mambaScan groupIds hashes blockSize alignmentTokens i = .ok (rows, n)) :
    StateRows p groupIds hashes blockSize blockSize rows n ∧ n ≤ i * blockSize ∧
      alignmentTokens ∣ n := by
  induction i with
  | zero =>
    cases h
    exact ⟨.inl ⟨rfl, rfl⟩, zero_le _, dvd_zero _⟩
  | succ i ih =>
    have hrest : p.mambaScan groupIds hashes blockSize alignmentTokens i = .ok (rows, n) →
        StateRows p groupIds hashes blockSize blockSize rows n ∧ n ≤ (i + 1) * blockSize ∧
          alignmentTokens ∣ n := fun h =>
      ⟨(ih h).1, (ih h).2.1.trans (mul_le_mul_right _ (le_succ i)), (ih h).2.2⟩
    simp only [mambaScan] at h
    cases hhash : hashes[i]? with
    | none => simp [hhash] at h
    | some hash =>
      simp only [hhash] at h
      cases hrow : p.getCachedBlock hash groupIds with
      | none =>
        simp only [hrow] at h
        exact hrest h
      | some row =>
        simp only [hrow] at h
        split at h
        · exact hrest h
        · rename_i halign
          obtain ⟨rfl, rfl⟩ := h
          have hpos : 0 < (i + 1) * blockSize := mul_pos (succ_pos i) hb
          refine ⟨.inr ⟨i, hash, row, hhash, hrow, rfl, hpos, ?_⟩, le_rfl, ?_⟩
          · rw [mul_pred_div hb]
          · by_cases heq : blockSize = alignmentTokens
            · exact heq ▸ dvd_mul_left _ _
            · exact dvd_of_mod_eq_zero (not_not.1 fun hne => halign ⟨heq, hne⟩)

/-- The lookup of a Mamba group finds one state, at hash granularity if the alignment is finer than a
block. -/
lemma mambaHit_spec (hb : 0 < blockSize) {blockHashes : List H} {maxLength n : ℕ}
    (h : p.mambaHit blockHashes maxLength groupIds blockSize alignmentTokens = .ok (rows, n)) :
    ∃ hashes, resolveLookupHashes blockHashes p.hasher.hashBlockSize blockSize alignmentTokens true =
        .ok hashes ∧
      StateRows p groupIds hashes blockSize
        (if alignmentTokens < blockSize ∧ blockSize % alignmentTokens = 0 then alignmentTokens
          else blockSize) rows n ∧ n ≤ maxLength ∧ alignmentTokens ∣ n := by
  obtain ⟨hashes, hresolve, h⟩ := except_bind_eq_ok.1 h
  refine ⟨hashes, hresolve, ?_⟩
  by_cases hfine : alignmentTokens < blockSize ∧ blockSize % alignmentTokens = 0
  · rw [if_pos hfine] at h ⊢
    have hpos : 0 < alignmentTokens := by
      rcases Nat.eq_zero_or_pos alignmentTokens with hzero | hpos
      · rw [hzero, Nat.mod_zero] at hfine
        omega
      · exact hpos
    cases htail : p.cachedTail groupIds hashes 0
        (min (maxLength / alignmentTokens) hashes.length) with
    | none =>
      simp only [htail, pure, Except.pure, Except.ok.injEq, Prod.mk.injEq] at h
      obtain ⟨rfl, rfl⟩ := h
      exact ⟨.inl ⟨rfl, rfl⟩, zero_le _, dvd_zero _⟩
    | some tail =>
      obtain ⟨row, idx⟩ := tail
      simp only [htail, pure, Except.pure, Except.ok.injEq, Prod.mk.injEq] at h
      obtain ⟨rfl, rfl⟩ := h
      obtain ⟨-, hlt, hash, hhash, hrow⟩ := cachedTail_eq_some htail
      have hdiv : ((idx + 1) * alignmentTokens - 1) / blockSize =
          idx / (blockSize / alignmentTokens) := by
        have hblock : alignmentTokens * (blockSize / alignmentTokens) = blockSize :=
          Nat.mul_div_cancel' (Nat.dvd_of_mod_eq_zero hfine.2)
        nth_rewrite 1 [← hblock]
        rw [← Nat.div_div_eq_div_mul, mul_pred_div hpos]
      refine ⟨.inr ⟨idx, hash, row, hhash, hrow, rfl, Nat.mul_pos (Nat.succ_pos idx) hpos, ?_⟩,
        ?_, Nat.dvd_mul_left _ _⟩
      · rw [hdiv]
      · exact (Nat.mul_le_mul_right _ (by omega)).trans (Nat.div_mul_le_self _ _)
  · rw [if_neg hfine] at h ⊢
    obtain ⟨hrows, hle, hdvd⟩ := mambaScan_spec hb h
    exact ⟨hrows, hle.trans (Nat.div_mul_le_self _ _), hdvd⟩

end BlockPool

end Lvllm
