import Mathlib.Data.List.Basic
import Mathlib.Data.List.Induction

/-!
# Chained digests

A sequence of blocks is fingerprinted by folding a digest function over it: the digest of a
block depends on the block and on the digest of everything before it.  `digests f d xs` lists
the intermediate digests, one per block, and `xs.foldl f d` is the last of them.

The two facts every user of a hash chain needs are here.  Digests may be computed piecewise
(`digests_append`), and when the digest function is collision free and never returns to the
seed, a digest determines the whole sequence below it (`foldl_injective`).
-/

namespace Lvllm

variable {δ β : Type*} {f : δ → β → δ}

/-- The digests of a block sequence, one per block, chained from the seed `d`. -/
def digests (f : δ → β → δ) : δ → List β → List δ
  | _, [] => []
  | d, b :: bs => f d b :: digests f (f d b) bs

@[simp] lemma digests_nil (d : δ) : digests f d [] = [] := rfl

@[simp] lemma digests_cons (d : δ) (b : β) (bs : List β) :
    digests f d (b :: bs) = f d b :: digests f (f d b) bs := rfl

@[simp] lemma length_digests (d : δ) (xs : List β) : (digests f d xs).length = xs.length := by
  induction xs generalizing d with
  | nil => rfl
  | cons x xs ih => simp [ih]

/-- A chain may be computed in two pieces, the second seeded with the digest the first ends in. -/
lemma digests_append (d : δ) (xs ys : List β) :
    digests f d (xs ++ ys) = digests f d xs ++ digests f (xs.foldl f d) ys := by
  induction xs generalizing d with
  | nil => rfl
  | cons x xs ih => simp [ih]

/-- The digest at index `i` is the fold over the first `i + 1` blocks. -/
lemma getElem?_digests (d : δ) (xs : List β) {i : ℕ} (hi : i < xs.length) :
    (digests f d xs)[i]? = some ((xs.take (i + 1)).foldl f d) := by
  induction xs generalizing d i with
  | nil => simp at hi
  | cons x xs ih =>
    cases i with
    | zero => simp
    | succ i => simpa using ih (f d x) (by simpa using hi)

/-- The last digest of a chain is the fold over all its blocks. -/
lemma getLast?_digests (d : δ) (xs : List β) :
    (digests f d xs).getLast? = if xs = [] then none else some (xs.foldl f d) := by
  cases xs using List.reverseRecOn with
  | nil => simp
  | append_singleton xs x => simp [digests_append]

/-- A collision-free digest function that never returns to the seed determines the whole
sequence of blocks from its last digest. -/
theorem foldl_injective {d : δ} (hf : ∀ a b a' b', f a b = f a' b' → a = a' ∧ b = b')
    (hd : ∀ a b, f a b ≠ d) : Function.Injective fun xs : List β => xs.foldl f d := by
  intro xs
  induction xs using List.reverseRecOn with
  | nil =>
    intro ys h
    cases ys using List.reverseRecOn with
    | nil => rfl
    | append_singleton ys y => exact absurd (by simpa using h.symm) (hd (ys.foldl f d) y)
  | append_singleton xs x ih =>
    intro ys h
    cases ys using List.reverseRecOn with
    | nil => exact absurd (by simpa using h) (hd (xs.foldl f d) x)
    | append_singleton ys y =>
      obtain ⟨hxs, rfl⟩ := hf _ _ _ _ (by simpa using h)
      rw [ih hxs]

end Lvllm
