import Mathlib.Data.List.Perm.Basic

/-!
# Binary heaps in a list

The algorithms of Python's `heapq` on a list and a comparison `lt`.  They are followed move by
move, since a heap whose elements change their keys while they are in it is not ordered any more,
and what is popped then depends on the moves.

Whatever the comparison, pushing adds the element, popping takes the element at the front, and
nothing else comes or goes.
-/

namespace Lvllm.Heapq

open List

variable {α : Type*} (lt : α → α → Bool)

/-- `_siftdown`: the element at `pos` moves towards the root, past every parent it is less than and
not past `startPos`.  Each round at least halves the position, which bounds the rounds. -/
def siftDown (startPos : ℕ) : ℕ → ℕ → List α → List α
  | 0, _, heap => heap
  | fuel + 1, pos, heap =>
    if startPos < pos then
      let parentPos := (pos - 1) / 2
      match heap[pos]?, heap[parentPos]? with
      | some item, some parent =>
        if lt item parent then siftDown startPos fuel parentPos (heap.swap pos parentPos) else heap
      | _, _ => heap
    else heap

/-- The child of `pos` that is not greater than the other. -/
def smallerChild (heap : List α) (pos : ℕ) : ℕ :=
  let childPos := 2 * pos + 1
  match heap[childPos]?, heap[childPos + 1]? with
  | some left, some right => if lt left right then childPos else childPos + 1
  | _, _ => childPos

/-- The loop of `_siftup`: the smaller children move up, from `pos` to a leaf. -/
def toLeaf : ℕ → ℕ → List α → ℕ × List α
  | 0, pos, heap => (pos, heap)
  | fuel + 1, pos, heap =>
    if 2 * pos + 1 < heap.length then
      let childPos := smallerChild lt heap pos
      toLeaf fuel childPos (heap.swap pos childPos)
    else (pos, heap)

/-- `_siftup`. -/
def siftUp (pos : ℕ) (heap : List α) : List α :=
  let (leaf, heap) := toLeaf lt heap.length pos heap
  siftDown lt pos leaf leaf heap

/-- `heappush`. -/
def heappush (heap : List α) (item : α) : List α :=
  siftDown lt 0 heap.length heap.length (heap ++ [item])

/-- `heappop`; there is nothing to pop from an empty heap. -/
def heappop : List α → Option (α × List α)
  | [] => none
  | item :: rest =>
    match rest.getLast? with
    | none => some (item, [])
    | some last => some (item, siftUp lt 0 (last :: rest.dropLast))

/-- `heapify`. -/
def heapify (heap : List α) : List α :=
  (List.range (heap.length / 2)).reverse.foldl (fun heap pos => siftUp lt pos heap) heap

/-- The elements in the order in which they are popped. -/
def drain : ℕ → List α → List α
  | 0, _ => []
  | fuel + 1, heap =>
    match heappop lt heap with
    | none => []
    | some (item, rest) => item :: drain fuel rest

/-! ## Nothing comes or goes -/

lemma siftDown_perm (startPos fuel pos : ℕ) (heap : List α) :
    (siftDown lt startPos fuel pos heap).Perm heap := by
  induction fuel generalizing pos heap with
  | zero => exact .refl _
  | succ fuel ih =>
    unfold siftDown
    split
    · dsimp only
      split
      · split
        · exact (ih _ _).trans (swap_perm _ _ _)
        · exact .refl _
      · exact .refl _
    · exact .refl _

lemma toLeaf_perm (fuel pos : ℕ) (heap : List α) : (toLeaf lt fuel pos heap).2.Perm heap := by
  induction fuel generalizing pos heap with
  | zero => exact .refl _
  | succ fuel ih =>
    unfold toLeaf
    split
    · exact (ih _ _).trans (swap_perm _ _ _)
    · exact .refl _

lemma siftUp_perm (pos : ℕ) (heap : List α) : (siftUp lt pos heap).Perm heap :=
  (siftDown_perm lt _ _ _ _).trans (toLeaf_perm lt _ _ _)

lemma heappush_perm (heap : List α) (item : α) : (heappush lt heap item).Perm (item :: heap) :=
  (siftDown_perm lt _ _ _ _).trans (perm_append_singleton item heap)

/-- Popping takes the element at the front. -/
lemma heappop_cons (item : α) (rest : List α) :
    ∃ rest', heappop lt (item :: rest) = some (item, rest') ∧ rest'.Perm rest := by
  cases hlast : rest.getLast? with
  | none =>
    obtain rfl := getLast?_eq_none_iff.1 hlast
    exact ⟨[], rfl, .refl _⟩
  | some last =>
    refine ⟨siftUp lt 0 (last :: rest.dropLast), ?_, (siftUp_perm lt _ _).trans ?_⟩
    · simp only [heappop, hlast]
    · obtain ⟨init, rfl⟩ := getLast?_eq_some_iff.1 hlast
      rw [dropLast_concat]
      exact (perm_append_singleton last init).symm

lemma heapify_perm (heap : List α) : (heapify lt heap).Perm heap := by
  unfold heapify
  generalize (List.range (heap.length / 2)).reverse = positions
  induction positions generalizing heap with
  | nil => exact .refl _
  | cons pos positions ih => exact (ih _).trans (siftUp_perm lt pos heap)

lemma drain_perm {fuel : ℕ} {heap : List α} (hfuel : heap.length ≤ fuel) :
    (drain lt fuel heap).Perm heap := by
  induction fuel generalizing heap with
  | zero =>
    obtain rfl := eq_nil_of_length_eq_zero (Nat.le_zero.1 hfuel)
    exact .refl _
  | succ fuel ih =>
    cases heap with
    | nil => exact .refl _
    | cons item rest =>
      obtain ⟨rest', hpop, hperm⟩ := heappop_cons lt item rest
      unfold drain
      rw [hpop]
      refine ((ih ?_).trans hperm).cons item
      rw [hperm.length_eq]
      simpa using hfuel

end Lvllm.Heapq
