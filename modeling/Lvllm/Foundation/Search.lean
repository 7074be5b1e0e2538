import Mathlib.Data.List.Basic

/-!
# Searching a text

`findFrom` is the search for the first occurrence of a text in another from a position on, and
`occursAt` what it searches for.
-/

namespace Lvllm

variable {α : Type*} [DecidableEq α]

/-- `sub` occurs in a text at position `i`. -/
def occursAt (sub text : List α) (i : ℕ) : Bool := decide (i ≤ text.length ∧ sub <+: text.drop i)

/-- `text.find(sub, start)`. -/
def findFrom (sub text : List α) (start : ℕ) : Option ℕ :=
  (List.range (text.length + 1)).find? fun i => decide (start ≤ i) && occursAt sub text i

/-- What is found is the first occurrence. -/
lemma findFrom_eq_some {sub text : List α} {start i : ℕ} (h : findFrom sub text start = some i) :
    start ≤ i ∧ occursAt sub text i = true ∧
      ∀ j, start ≤ j → j < i → occursAt sub text j = false := by
  unfold findFrom at h
  obtain ⟨hi, -, hbefore⟩ := List.find?_range_eq_some.1 h
  rw [Bool.and_eq_true, decide_eq_true_eq] at hi
  refine ⟨hi.1, hi.2, fun j hj hji => ?_⟩
  have hnot := hbefore j hji
  rw [Bool.not_eq_true', Bool.and_eq_false_iff] at hnot
  exact hnot.resolve_left fun hfalse => of_decide_eq_false hfalse hj

/-- If nothing is found there is no occurrence. -/
lemma findFrom_eq_none {sub text : List α} {start : ℕ} (h : findFrom sub text start = none) :
    ∀ j, start ≤ j → occursAt sub text j = false := by
  intro j hj
  by_contra hocc
  rw [Bool.not_eq_false] at hocc
  refine List.find?_eq_none.1 h j
    (List.mem_range.2 (Nat.lt_succ_of_le (of_decide_eq_true hocc).1)) ?_
  rw [Bool.and_eq_true, decide_eq_true_eq]
  exact ⟨hj, hocc⟩

end Lvllm
