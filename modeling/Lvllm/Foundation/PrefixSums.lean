import Mathlib.Algebra.GroupWithZero.Nat
import Mathlib.Algebra.Order.BigOperators.Group.List

/-!
# Prefix sums and searches in them

Lengths laid end to end put the `j`-th piece at `prefixSum l j`.  Searching a position in these offsets
counts how many of them satisfy a test that fails from some index on; `lt_countP_range` says which
indices are below that count, and every fact about a search follows from it.
-/

namespace Lvllm

open List

/-- The sum of the first `j` entries. -/
def prefixSum (l : List ℕ) (j : ℕ) : ℕ := (l.take j).sum

@[simp] lemma prefixSum_zero (l : List ℕ) : prefixSum l 0 = 0 := by simp [prefixSum]

lemma prefixSum_length (l : List ℕ) : prefixSum l l.length = l.sum := by simp [prefixSum]

lemma prefixSum_succ {l : List ℕ} {j x : ℕ} (h : l[j]? = some x) :
    prefixSum l (j + 1) = prefixSum l j + x := by
  simp [prefixSum, take_add_one, h]

lemma prefixSum_mono (l : List ℕ) : Monotone (prefixSum l) := by
  refine monotone_nat_of_le_succ fun j => ?_
  simp [prefixSum, take_add_one]

/-- The indices below the number of hits of a test are the ones that pass it, if the test passes on
an initial part only. -/
lemma lt_countP_range {p : ℕ → Bool} (hp : ∀ i j, i ≤ j → p j = true → p i = true) (m j : ℕ) :
    j < (List.range m).countP p ↔ j < m ∧ p j = true := by
  induction m with
  | zero => simp
  | succ m ih =>
    rw [range_succ, countP_append, countP_singleton]
    by_cases hm : p m = true
    · -- the test passes everywhere below, so that all of them are counted
      have hall : (List.range m).countP p = m := by
        rw [countP_eq_length.2 fun i hi => hp i m (mem_range.1 hi).le hm, length_range]
      rw [hall, if_pos hm]
      exact ⟨fun h => ⟨h, hp j m (by omega) hm⟩, And.left⟩
    · rw [if_neg hm, Nat.add_zero, ih]
      refine and_congr_left fun hj => ?_
      have hne : j ≠ m := fun heq => hm (heq ▸ hj)
      omega

end Lvllm
