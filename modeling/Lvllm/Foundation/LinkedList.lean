import Mathlib.Data.List.Chain
import Mathlib.Data.List.Nodup

/-!
# Doubly linked lists

An intrusive doubly linked list is a pair of pointer maps, `next` and `prev`, over the nodes.
`Linked l a b` says that `a` and `b` point to each other; a list of nodes is threaded through the
pointers when it is a chain for that relation, `xs.IsChain l.Linked`.

The pointer operations of list code are `link` (make two nodes neighbours), `clear` (forget a
node's neighbours), `thread` (link a run of nodes one after the other) and `detach` (walk along
`next`, clearing the nodes passed).  Each comes with the chain it produces and with what it
leaves unchanged.
-/

namespace Lvllm

open List

/-- The pointer maps of a doubly linked list with nodes in `N`. -/
structure Links (N : Type*) where
  /-- The successor of a node. -/
  next : N → Option N
  /-- The predecessor of a node. -/
  prev : N → Option N

namespace Links

variable {N : Type*} {l l' : Links N} {a b c : N} {xs ys : List N}

/-- The two nodes point to each other. -/
def Linked (l : Links N) (a b : N) : Prop := l.next a = some b ∧ l.prev b = some a

/-- A chain survives changes to the successor of its last node and the predecessor of its
first. -/
lemma isChain_congr (hnext : ∀ a ∈ xs.dropLast, l'.next a = l.next a)
    (hprev : ∀ a ∈ xs.tail, l'.prev a = l.prev a) (h : xs.IsChain l.Linked) :
    xs.IsChain l'.Linked := by
  induction xs with
  | nil => exact .nil
  | cons a xs ih =>
    cases xs with
    | nil => exact .singleton a
    | cons b xs =>
      rw [isChain_cons_cons] at h ⊢
      refine ⟨⟨?_, ?_⟩, ih ?_ ?_ h.2⟩
      · rw [hnext a (by simp)]
        exact h.1.1
      · rw [hprev b (by simp)]
        exact h.1.2
      · intro c hc
        exact hnext c (by simp [hc])
      · intro c hc
        exact hprev c (by simpa using Or.inr hc)

/-- A chain all of whose nodes keep their pointers is a chain. -/
lemma isChain_congr_of_mem (h' : ∀ a ∈ xs, l'.next a = l.next a ∧ l'.prev a = l.prev a)
    (h : xs.IsChain l.Linked) : xs.IsChain l'.Linked :=
  isChain_congr (fun a ha => (h' a (dropLast_subset _ ha)).1)
    (fun a ha => (h' a (mem_of_mem_tail ha)).2) h

variable [DecidableEq N]

/-- Make `a` and `b` neighbours. -/
def link (l : Links N) (a b : N) : Links N where
  next := Function.update l.next a (some b)
  prev := Function.update l.prev b (some a)

/-- Forget the neighbours of `a`. -/
def clear (l : Links N) (a : N) : Links N where
  next := Function.update l.next a none
  prev := Function.update l.prev a none

@[simp] lemma link_next_self : (l.link a b).next a = some b := by simp [link]

@[simp] lemma link_prev_self : (l.link a b).prev b = some a := by simp [link]

lemma link_next_of_ne (h : c ≠ a) : (l.link a b).next c = l.next c := by simp [link, h]

lemma link_prev_of_ne (h : c ≠ b) : (l.link a b).prev c = l.prev c := by simp [link, h]

@[simp] lemma clear_next_self : (l.clear a).next a = none := by simp [clear]

@[simp] lemma clear_prev_self : (l.clear a).prev a = none := by simp [clear]

lemma clear_next_of_ne (h : c ≠ a) : (l.clear a).next c = l.next c := by simp [clear, h]

lemma clear_prev_of_ne (h : c ≠ a) : (l.clear a).prev c = l.prev c := by simp [clear, h]

/-- Linking the end of one chain to the start of another makes one chain. -/
lemma isChain_link (hxs : (xs ++ [a]).IsChain l.Linked) (hys : (b :: ys).IsChain l.Linked)
    (hnd : (xs ++ a :: b :: ys).Nodup) : (xs ++ a :: b :: ys).IsChain (l.link a b).Linked := by
  have hne : ∀ c ∈ xs ++ [a], ∀ d ∈ b :: ys, c ≠ d := by
    have : (xs ++ [a] ++ b :: ys).Nodup := by simpa using hnd
    exact (nodup_append.1 this).2.2
  have hxa : a ∉ xs := by
    intro ha
    exact (nodup_append.1 hnd).2.2 a ha a (by simp) rfl
  have hyb : b ∉ ys := by
    have := (nodup_append.1 hnd).2.1
    exact (nodup_cons.1 (nodup_cons.1 this).2).1
  rw [isChain_append_cons_cons]
  refine ⟨isChain_congr ?_ ?_ hxs, ⟨by simp, by simp⟩, isChain_congr ?_ ?_ hys⟩
  · intro c hc
    rw [dropLast_concat] at hc
    exact link_next_of_ne (by rintro rfl; exact hxa hc)
  · intro c hc
    exact link_prev_of_ne (hne c (mem_of_mem_tail hc) b (by simp))
  · intro c hc
    exact link_next_of_ne (hne a (by simp) c (dropLast_subset _ hc)).symm
  · intro c hc
    exact link_prev_of_ne (by rintro rfl; exact hyb hc)

/-- Clearing a node leaves chains without it alone. -/
lemma isChain_clear (ha : a ∉ xs) (h : xs.IsChain l.Linked) : xs.IsChain (l.clear a).Linked := by
  refine isChain_congr_of_mem (fun c hc => ?_) h
  have hca : c ≠ a := by
    rintro rfl
    exact ha hc
  exact ⟨clear_next_of_ne hca, clear_prev_of_ne hca⟩

/-- Taking a node out of a chain: its neighbours are linked and its own pointers cleared. -/
lemma isChain_unlink (h : (xs ++ a :: b :: c :: ys).IsChain l.Linked)
    (hnd : (xs ++ a :: b :: c :: ys).Nodup) :
    (xs ++ a :: c :: ys).IsChain ((l.link a c).clear b).Linked := by
  have hsub : List.Sublist (xs ++ a :: c :: ys) (xs ++ a :: b :: c :: ys) :=
    (List.Sublist.refl xs).append (.cons_cons a (.cons b (.refl _)))
  have hb : b ∉ xs ++ a :: c :: ys := by
    simp only [nodup_append, nodup_cons, mem_cons, not_or] at hnd
    simp only [mem_append, mem_cons, not_or]
    exact ⟨fun h => hnd.2.2 b h b (Or.inr (Or.inl rfl)) rfl, Ne.symm hnd.2.1.1.1,
      hnd.2.1.2.1.1, hnd.2.1.2.1.2⟩
  rw [isChain_append_cons_cons] at h
  refine isChain_clear hb (isChain_link h.1 ?_ (hnd.sublist hsub))
  exact (isChain_cons_cons.1 h.2.2).2

/-! ## Runs of nodes -/

/-- Link the nodes of a list one after the other, behind `a`. -/
def thread (l : Links N) : N → List N → Links N
  | _, [] => l
  | a, b :: xs => (l.link a b).thread b xs

lemma thread_next_of_not_mem (hc : c ∉ a :: xs) : (l.thread a xs).next c = l.next c := by
  induction xs generalizing l a with
  | nil => rfl
  | cons b xs ih =>
    rw [thread, ih (by simp_all), link_next_of_ne (by simp_all)]

lemma thread_prev_of_not_mem (hc : c ∉ xs) : (l.thread a xs).prev c = l.prev c := by
  induction xs generalizing l a with
  | nil => rfl
  | cons b xs ih =>
    rw [thread, ih (by simp_all), link_prev_of_ne (by simp_all)]

/-- A threaded run continues the chain it starts from. -/
lemma isChain_thread (h : (ys ++ [a]).IsChain l.Linked) (hnd : (ys ++ a :: xs).Nodup) :
    (ys ++ a :: xs).IsChain (l.thread a xs).Linked := by
  induction xs generalizing l a ys with
  | nil => exact h
  | cons b xs ih =>
    have hnd' : (ys ++ [a] ++ b :: xs).Nodup := by simpa using hnd
    have hlink : (ys ++ [a] ++ [b]).IsChain (l.link a b).Linked := by
      have hb : [b].IsChain l.Linked := .singleton b
      have := isChain_link h hb
        (hnd.sublist ((List.Sublist.refl ys).append (.cons_cons a (.cons_cons b (nil_sublist xs)))))
      simpa using this
    rw [thread, append_cons]
    exact ih hlink hnd'

/-- Walk `n` nodes along `next`, clearing the nodes passed.  The result is the nodes passed, the
new pointers and the node reached; there is none if the walk leaves the list. -/
def detach (l : Links N) : ℕ → Option N → Option (List N × Links N × Option N)
  | 0, curr => some ([], l, curr)
  | _ + 1, none => none
  | n + 1, some a =>
    match (l.clear a).detach n (l.next a) with
    | none => none
    | some (ret, l', curr) => some (a :: ret, l', curr)

/-- Walking over the first part of a chain passes exactly its nodes and leaves the rest a
chain; other nodes keep their pointers. -/
lemma detach_chain (h : (xs ++ b :: ys).IsChain l.Linked) (hnd : (xs ++ b :: ys).Nodup) :
    ∃ l', l.detach xs.length (xs ++ b :: ys).head? = some (xs, l', some b) ∧
      (b :: ys).IsChain l'.Linked ∧
      (∀ c ∈ xs, l'.next c = none ∧ l'.prev c = none) ∧
      ∀ c ∉ xs, l'.next c = l.next c ∧ l'.prev c = l.prev c := by
  induction xs generalizing l with
  | nil => exact ⟨l, rfl, h, by simp, by simp⟩
  | cons a xs ih =>
    obtain ⟨ha, hnd'⟩ := nodup_cons.1 hnd
    have htail : (xs ++ b :: ys).IsChain (l.clear a).Linked := isChain_clear ha h.tail
    have hnext : l.next a = (xs ++ b :: ys).head? := by
      cases xs with
      | nil | cons _ _ => exact (isChain_cons_cons.1 h).1.1
    obtain ⟨l', hdetach, hchain, hcleared, hframe⟩ := ih htail hnd'
    refine ⟨l', ?_, hchain, ?_, ?_⟩
    · simp only [cons_append, head?_cons, length_cons, detach, hnext, hdetach]
    · intro c hc
      rcases mem_cons.1 hc with rfl | hc
      · obtain ⟨h1, h2⟩ := hframe c (fun hmem => ha (by simp [hmem]))
        rw [h1, h2]
        exact ⟨clear_next_self, clear_prev_self⟩
      · exact hcleared c hc
    · intro c hc
      obtain ⟨hca, hcx⟩ := not_or.1 (mem_cons.not.1 hc)
      obtain ⟨h1, h2⟩ := hframe c hcx
      rw [h1, h2]
      exact ⟨clear_next_of_ne hca, clear_prev_of_ne hca⟩

end Links

end Lvllm
