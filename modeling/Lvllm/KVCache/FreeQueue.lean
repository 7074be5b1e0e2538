import Lvllm.Foundation.LinkedList
import Lvllm.Foundation.StateExcept
import Lvllm.Request.Request
import Mathlib.Data.List.Range

/-!
# The queue of free blocks

`FreeKVCacheBlockQueue` (`vllm/v1/core/kv_cache_utils.py`) threads the free blocks on a doubly
linked list between a fake head and a fake tail, using the `prev_free_block` and
`next_free_block` attributes of the blocks themselves.  Blocks are named by their ids; the
attributes of all blocks and of the two fakes are one pair of pointer maps.

`Holds q L` says that the queue holds the blocks `L`, in this order.  Every operation has one
specification lemma in terms of `Holds`; nothing later looks at the pointers.
-/

namespace Lvllm

open List

/-- A node of the free list: one of the two fakes, or a block. -/
inductive FreeNode where
  | head
  | tail
  | block (id : ℕ)
  deriving DecidableEq, Repr

/-- The id of the block a node is. -/
def FreeNode.blockId? : FreeNode → Option ℕ
  | .block id => some id
  | _ => none

/-- `FreeKVCacheBlockQueue`. -/
structure FreeKVCacheBlockQueue where
  /-- The number of blocks in the queue. -/
  numFreeBlocks : ℕ
  /-- The `next_free_block` and `prev_free_block` attributes. -/
  links : Links FreeNode

namespace FreeKVCacheBlockQueue

/-- Code that works on the queue. -/
abbrev QueueM := EStateM PyErr FreeKVCacheBlockQueue

/-- `FreeKVCacheBlockQueue.__init__` on the blocks `0, …, n - 1`. -/
def init (n : ℕ) : FreeKVCacheBlockQueue where
  numFreeBlocks := n
  links :=
    { next := fun
        | .head => if 0 < n then some (.block 0) else some .tail
        | .tail => none
        | .block i => if i + 1 < n then some (.block (i + 1)) else if i < n then some .tail else none
      prev := fun
        | .head => none
        | .tail => if 0 < n then some (.block (n - 1)) else some .head
        | .block i => if i = 0 then (if 0 < n then some .head else none)
          else if i < n then some (.block (i - 1)) else none }

/-- `popleft`. -/
def popleft : QueueM FreeNode := do
  let q ← get
  match q.links.next .head with
  | none | some .tail =>
    if q.numFreeBlocks = 0 then throw (.valueError "No free blocks available")
    else throw .assertionError
  | some first =>
    match q.links.next first with
    | none =>
      throw (.runtimeError
        "Invalid block found in popleft() which doesn't have a valid next_free_block")
    | some second =>
      set { q with
        links := (q.links.link .head second).clear first
        numFreeBlocks := q.numFreeBlocks - 1 }
      pure first

/-- `popleft_n`.  When the walk leaves the list, which the counter rules out, the assertion in
its loop fails. -/
def popleftN (n : ℕ) : QueueM (List FreeNode) := do
  if n = 0 then pure []
  else
    let q ← get
    if q.numFreeBlocks < n then throw .assertionError
    else
      match q.links.detach n (q.links.next .head) with
      | none => throw .assertionError
      | some (ret, links, curr) =>
        let links := match curr with
          | none => links
          | some curr => links.link .head curr
        set { q with links := links, numFreeBlocks := q.numFreeBlocks - n }
        pure ret

/-- `remove`. -/
def remove (b : ℕ) : QueueM Unit := do
  let q ← get
  match q.links.prev (.block b), q.links.next (.block b) with
  | some p, some n =>
    set { q with
      links := (q.links.link p n).clear (.block b)
      numFreeBlocks := q.numFreeBlocks - 1 }
  | _, _ => throw (.runtimeError "remove() called on an invalid block")

/-- `append`. -/
def append (b : ℕ) : QueueM Unit := do
  let q ← get
  match q.links.prev .tail with
  | none => throw (.runtimeError "prev_free_block of fake_free_list_tail should always exist")
  | some last =>
    set { q with
      links := (q.links.link last (.block b)).link (.block b) .tail
      numFreeBlocks := q.numFreeBlocks + 1 }

/-- The last node of a run linked behind `a`. -/
def lastOf (a : FreeNode) (blocks : List ℕ) : FreeNode :=
  (blocks.map FreeNode.block).getLastD a

/-- `prepend_n`. -/
def prependN (blocks : List ℕ) : QueueM Unit := do
  if blocks.length = 0 then pure ()
  else
    let q ← get
    match q.links.next .head with
    | none => throw .assertionError
    | some first =>
      set { q with
        links := (q.links.thread .head (blocks.map .block)).link (lastOf .head blocks) first
        numFreeBlocks := q.numFreeBlocks + blocks.length }

/-- `append_n`. -/
def appendN (blocks : List ℕ) : QueueM Unit := do
  if blocks.length = 0 then pure ()
  else
    let q ← get
    match q.links.prev .tail with
    | none => throw .assertionError
    | some last =>
      set { q with
        links := (q.links.thread last (blocks.map .block)).link (lastOf last blocks) .tail
        numFreeBlocks := q.numFreeBlocks + blocks.length }

/-- The `while` loop of `get_all_free_blocks`; `fuel` bounds the number of rounds. -/
def collect (q : FreeKVCacheBlockQueue) : ℕ → FreeNode → List FreeNode
  | 0, _ => []
  | fuel + 1, curr =>
    match q.links.next curr with
    | none => []
    | some next => curr :: collect q fuel next

/-- `get_all_free_blocks`; the walk visits one node more than there are blocks. -/
def getAllFreeBlocks : QueueM (List FreeNode) := do
  let q ← get
  match q.links.next .head with
  | none => throw (.runtimeError "next_free_block of fake_free_list_head should always exist")
  | some first => pure (q.collect (q.numFreeBlocks + 1) first)

/-! ## What a queue holds -/

/-- All nodes of a queue that holds `L`. -/
def nodes (L : List ℕ) : List FreeNode := .head :: (L.map .block ++ [.tail])

lemma nodup_nodes {L : List ℕ} (h : L.Nodup) : (nodes L).Nodup := by
  have hmap : (L.map FreeNode.block).Nodup := h.map (fun _ _ h => FreeNode.block.inj h)
  simp only [nodes, nodup_cons, mem_append, mem_map, mem_singleton, nodup_append, hmap]
  simp

/-- The queue holds the blocks `L`, in this order. -/
structure Holds (q : FreeKVCacheBlockQueue) (L : List ℕ) : Prop where
  /-- The blocks are threaded between the fake head and the fake tail. -/
  chain : (nodes L).IsChain q.links.Linked
  /-- No block occurs twice. -/
  nodup : L.Nodup
  /-- The counter is the number of blocks. -/
  numFreeBlocks_eq : q.numFreeBlocks = L.length
  /-- Nothing precedes the fake head. -/
  head_prev : q.links.prev .head = none
  /-- Nothing follows the fake tail. -/
  tail_next : q.links.next .tail = none
  /-- Other blocks are unlinked. -/
  outside : ∀ b ∉ L, q.links.next (.block b) = none ∧ q.links.prev (.block b) = none

variable {q : FreeKVCacheBlockQueue} {A B L bs : List ℕ} {b : ℕ} {X : List FreeNode} {p : FreeNode}
  {Y : List FreeNode} {n : FreeNode}

lemma head_not_mem_map : FreeNode.head ∉ L.map FreeNode.block := by simp

lemma tail_not_mem_map : FreeNode.tail ∉ L.map FreeNode.block := by simp

lemma block_mem_map : FreeNode.block b ∈ L.map FreeNode.block ↔ b ∈ L := by simp

/-- The nodes before a position: the fake head and the blocks before it. -/
lemma exists_last (A : List ℕ) :
    ∃ X p, FreeNode.head :: A.map .block = X ++ [p] ∧ (A = [] → X = [] ∧ p = .head) := by
  cases A using List.reverseRecOn with
  | nil => exact ⟨[], .head, rfl, fun _ => ⟨rfl, rfl⟩⟩
  | append_singleton A a => exact ⟨.head :: A.map .block, .block a, by simp, by simp⟩

/-- The nodes from a position on: the blocks from there and the fake tail. -/
lemma exists_first (B : List ℕ) : ∃ n Y, B.map FreeNode.block ++ [.tail] = n :: Y := by
  cases B with
  | nil => exact ⟨.tail, [], rfl⟩
  | cons b B => exact ⟨.block b, B.map .block ++ [.tail], rfl⟩

lemma tail_ne_last (hX : FreeNode.head :: A.map .block = X ++ [p]) : .tail ≠ p := by
  rintro rfl
  have hp : FreeNode.tail ∈ FreeNode.head :: A.map .block := by simp [hX]
  simp at hp

lemma block_ne_last (hX : FreeNode.head :: A.map .block = X ++ [p]) (hb : b ∉ A) : .block b ≠ p := by
  rintro rfl
  have hp : FreeNode.block b ∈ FreeNode.head :: A.map .block := by simp [hX]
  simp [hb] at hp

lemma head_ne_first (hY : B.map FreeNode.block ++ [.tail] = n :: Y) : .head ≠ n := by
  rintro rfl
  have hn : FreeNode.head ∈ B.map FreeNode.block ++ [.tail] := by simp [hY]
  simp at hn

lemma block_ne_first (hY : B.map FreeNode.block ++ [.tail] = n :: Y) (hb : b ∉ B) :
    .block b ≠ n := by
  rintro rfl
  have hn : FreeNode.block b ∈ B.map FreeNode.block ++ [.tail] := by simp [hY]
  simp [hb] at hn

/-- The nodes of blocks `bs` between two parts of the queue. -/
lemma nodes_split (bs : List ℕ)
    (hX : FreeNode.head :: A.map .block = X ++ [p]) (hY : B.map FreeNode.block ++ [.tail] = n :: Y) :
    nodes (A ++ (bs ++ B)) = X ++ p :: (bs.map .block ++ n :: Y) := by
  simp only [nodes, map_append, append_assoc, hY]
  rw [← cons_append, hX]
  simp

lemma Holds.unlink (h : q.Holds (A ++ b :: B)) :
    ∃ p n, q.links.prev (.block b) = some p ∧ q.links.next (.block b) = some n ∧
      (A = [] → p = .head) ∧
      Holds { q with
        links := (q.links.link p n).clear (.block b)
        numFreeBlocks := q.numFreeBlocks - 1 } (A ++ B) := by
  obtain ⟨X, p, hX, hA⟩ := exists_last A
  obtain ⟨n, Y, hY⟩ := exists_first B
  have hnodes : nodes (A ++ b :: B) = X ++ p :: .block b :: n :: Y := nodes_split [b] hX hY
  have hnodes' : nodes (A ++ B) = X ++ p :: n :: Y := nodes_split [] hX hY
  have hnd := nodup_nodes h.nodup
  have hchain := h.chain
  rw [hnodes] at hnd hchain
  have hlinks := isChain_append_cons_cons.1 hchain
  have hpb : q.links.Linked p (.block b) := hlinks.2.1
  have hbn : q.links.Linked (.block b) n := (isChain_cons_cons.1 hlinks.2.2).1
  refine ⟨p, n, hpb.2, hbn.1, fun hnil => (hA hnil).2, ?_, ?_, ?_, ?_, ?_, ?_⟩
  · rw [hnodes']
    exact Links.isChain_unlink hchain hnd
  · exact h.nodup.sublist ((List.Sublist.refl A).append (.cons b (.refl B)))
  · have := h.numFreeBlocks_eq
    simp only [length_append, length_cons] at this ⊢
    omega
  · rw [Links.clear_prev_of_ne (by simp), Links.link_prev_of_ne (head_ne_first hY)]
    exact h.head_prev
  · rw [Links.clear_next_of_ne (by simp), Links.link_next_of_ne (tail_ne_last hX)]
    exact h.tail_next
  · intro c hc
    by_cases hcb : c = b
    · subst hcb
      exact ⟨Links.clear_next_self, Links.clear_prev_self⟩
    · rw [mem_append, not_or] at hc
      have hne : FreeNode.block c ≠ .block b := by simpa using hcb
      rw [Links.clear_next_of_ne hne, Links.clear_prev_of_ne hne,
        Links.link_next_of_ne (block_ne_last hX hc.1), Links.link_prev_of_ne (block_ne_first hY hc.2)]
      exact h.outside c (by simp [hc, hcb])

/-- Putting a run of blocks into the queue, between two neighbours. -/
lemma Holds.splice (h : q.Holds (A ++ B)) (hnd : (A ++ (bs ++ B)).Nodup)
    (hX : FreeNode.head :: A.map .block = X ++ [p])
    (hY : B.map FreeNode.block ++ [.tail] = n :: Y) :
    Holds { q with
      links := (q.links.thread p (bs.map .block)).link (lastOf p bs) n
      numFreeBlocks := q.numFreeBlocks + bs.length } (A ++ (bs ++ B)) := by
  have hnodes : nodes (A ++ B) = (X ++ [p]) ++ n :: Y := by
    rw [append_assoc]
    exact nodes_split [] hX hY
  have hnodes' : nodes (A ++ (bs ++ B)) = (X ++ p :: bs.map .block) ++ n :: Y := by
    rw [append_assoc]
    exact nodes_split bs hX hY
  obtain ⟨Z, hZ⟩ : ∃ Z, X ++ p :: bs.map FreeNode.block = Z ++ [lastOf p bs] := by
    unfold lastOf
    cases hbs : bs.map FreeNode.block using List.reverseRecOn with
    | nil => exact ⟨X, by simp⟩
    | append_singleton cs c => exact ⟨X ++ p :: cs, by simp⟩
  have hndn := nodup_nodes hnd
  rw [hnodes'] at hndn
  have hdisj := (nodup_append.1 hndn).2.2
  have hchain := h.chain
  rw [hnodes] at hchain
  set l1 := q.links.thread p (bs.map .block) with hl1
  have hleft : (X ++ p :: bs.map .block).IsChain l1.Linked :=
    Links.isChain_thread hchain.left_of_append (nodup_append.1 hndn).1
  have hright : (n :: Y).IsChain l1.Linked := by
    refine Links.isChain_congr_of_mem (fun c hc => ⟨?_, ?_⟩) hchain.right_of_append
    · exact Links.thread_next_of_not_mem fun hmem =>
        hdisj c (mem_append_right X hmem) c hc rfl
    · exact Links.thread_prev_of_not_mem fun hmem =>
        hdisj c (mem_append_right X (mem_cons_of_mem p hmem)) c hc rfl
  have hlast : lastOf p bs = p ∨ ∃ a ∈ bs, lastOf p bs = .block a := by
    have hmem : lastOf p bs ∈ p :: bs.map FreeNode.block := by
      exact getLastD_mem_cons ..
    simpa [eq_comm] using hmem
  refine ⟨?_, hnd, ?_, ?_, ?_, ?_⟩
  · rw [hZ] at hleft hndn hnodes'
    rw [hnodes', append_assoc]
    exact Links.isChain_link hleft hright (by simpa using hndn)
  · have := h.numFreeBlocks_eq
    simp only [length_append] at this ⊢
    omega
  · rw [Links.link_prev_of_ne (head_ne_first hY), hl1, Links.thread_prev_of_not_mem (by simp)]
    exact h.head_prev
  · have hp := tail_ne_last hX
    have hlast' : FreeNode.tail ≠ lastOf p bs := by
      rcases hlast with heq | ⟨a, -, heq⟩ <;> rw [heq]
      · exact hp
      · simp
    rw [Links.link_next_of_ne hlast', hl1, Links.thread_next_of_not_mem (by simp [hp])]
    exact h.tail_next
  · intro c hc
    simp only [mem_append, not_or] at hc
    obtain ⟨hcA, hcbs, hcB⟩ := hc
    have hcp := block_ne_last hX hcA
    have hcl : FreeNode.block c ≠ lastOf p bs := by
      rcases hlast with heq | ⟨a, ha, heq⟩ <;> rw [heq]
      · exact hcp
      · rintro ⟨⟩
        exact hcbs ha
    have hcmem : FreeNode.block c ∉ bs.map FreeNode.block := by simpa using hcbs
    rw [Links.link_next_of_ne hcl, Links.link_prev_of_ne (block_ne_first hY hcB), hl1,
      Links.thread_next_of_not_mem (by simp [hcp, hcmem]), Links.thread_prev_of_not_mem hcmem]
    exact h.outside c (by simp [hcA, hcB])

/-! ## The operations -/

/-- The initial queue holds all blocks in order. -/
lemma init_holds (n : ℕ) : (init n).Holds (List.range n) := by
  refine ⟨?_, nodup_range, by simp [init], rfl, rfl, ?_⟩
  · cases n with
    | zero => simp [nodes, init, Links.Linked]
    | succ n =>
      have hblocks : ((List.range (n + 1)).map FreeNode.block).IsChain
          (init (n + 1)).links.Linked := by
        rw [isChain_map, isChain_range]
        intro m hm
        simp [init, Links.Linked]
        omega
      refine List.IsChain.cons (hblocks.append (.singleton _) ?_) ?_
      · intro x hx y hy
        obtain rfl : x = .block n := by simpa [range_succ, eq_comm] using hx
        obtain rfl : y = .tail := by simpa [eq_comm] using hy
        simp [init, Links.Linked]
      · intro y hy
        obtain rfl : y = .block 0 := by simpa [range_succ_eq_map, eq_comm] using hy
        simp [init, Links.Linked]
  · intro b hb
    have hbn : n ≤ b := by simpa using hb
    refine ⟨?_, ?_⟩
    · simp only [init]
      rw [if_neg (show ¬ b + 1 < n by omega), if_neg (show ¬ b < n by omega)]
    · simp only [init]
      split
      · rw [if_neg (show ¬ 0 < n by omega)]
      · rw [if_neg (show ¬ b < n by omega)]

lemma Holds.next_head (h : q.Holds L) :
    q.links.next .head = (L.map FreeNode.block ++ [FreeNode.tail]).head? := by
  have hchain := h.chain
  cases L with
  | nil | cons _ _ => exact (isChain_cons_cons.1 hchain).1.1

lemma Holds.prev_tail (h : q.Holds L)
    (hX : FreeNode.head :: L.map .block = X ++ [p]) : q.links.prev .tail = some p := by
  have hchain := h.chain
  rw [nodes, ← cons_append, hX, append_assoc, singleton_append, isChain_append_cons_cons] at hchain
  exact hchain.2.1.2

lemma popleft_spec (h : q.Holds (b :: L)) : ∃ q', popleft q = .ok (.block b) q' ∧ q'.Holds L := by
  obtain ⟨p, n, -, hnext, hp, hholds⟩ := Holds.unlink (A := []) h
  obtain rfl := hp rfl
  refine ⟨_, ?_, hholds⟩
  have hhead : q.links.next .head = some (.block b) := h.next_head
  simp [popleft, bind_apply, hhead, hnext]

/-- `popleft_n` returns the first `n` blocks. -/
lemma popleftN_spec (h : q.Holds L) {n : ℕ} (hn : n ≤ L.length) :
    ∃ q', popleftN n q = .ok ((L.take n).map .block) q' ∧ q'.Holds (L.drop n) := by
  by_cases hn0 : n = 0
  · subst hn0
    exact ⟨q, by simp [popleftN], h⟩
  · obtain ⟨c, Y, hY⟩ := exists_first (L.drop n)
    have hsplit : L.map FreeNode.block ++ [.tail] = (L.take n).map .block ++ c :: Y := by
      rw [← hY, ← append_assoc, ← map_append, take_append_drop]
    have hndn := nodup_nodes h.nodup
    have hchain := h.chain
    rw [nodes, hsplit] at hndn hchain
    obtain ⟨hhead, hnd⟩ := nodup_cons.1 hndn
    obtain ⟨l', hdetach, hrest, hcleared, hframe⟩ := Links.detach_chain hchain.tail hnd
    have hlen : ((L.take n).map FreeNode.block).length = n := by simp [hn]
    rw [hlen, ← hsplit, ← h.next_head] at hdetach
    have hnum : ¬ q.numFreeBlocks < n := by rw [h.numFreeBlocks_eq]; omega
    refine ⟨_, by simp [popleftN, hn0, bind_apply, hnum, hdetach]; rfl, ?_⟩
    refine ⟨?_, h.nodup.sublist (drop_sublist n L), ?_, ?_, ?_, ?_⟩
    · have hsingle : ([] ++ [FreeNode.head]).IsChain l'.Linked := .singleton _
      rw [nodes, hY]
      refine Links.isChain_link hsingle hrest ?_
      rw [nil_append, nodup_cons]
      exact ⟨fun hmem => hhead (mem_append_right _ hmem), (nodup_append.1 hnd).2.1⟩
    · have := h.numFreeBlocks_eq
      simp only [length_drop]
      omega
    · rw [Links.link_prev_of_ne (head_ne_first hY), (hframe .head head_not_mem_map).2]
      exact h.head_prev
    · rw [Links.link_next_of_ne (by simp), (hframe .tail tail_not_mem_map).1]
      exact h.tail_next
    · intro b hb
      rw [Links.link_next_of_ne (by simp), Links.link_prev_of_ne (block_ne_first hY hb)]
      by_cases hbt : b ∈ L.take n
      · exact hcleared (.block b) (block_mem_map.2 hbt)
      · have hframe := hframe (.block b) (block_mem_map.not.2 hbt)
        rw [hframe.1, hframe.2]
        refine h.outside b fun hbL => ?_
        rw [← take_append_drop n L, mem_append] at hbL
        exact hbL.elim hbt hb

/-- `remove` takes a block of the queue out of it. -/
lemma remove_spec (h : q.Holds L) (hb : b ∈ L) :
    ∃ q', remove b q = .ok () q' ∧ q'.Holds (L.erase b) := by
  obtain ⟨A, B, rfl⟩ := append_of_mem hb
  obtain ⟨p, n, hprev, hnext, -, hholds⟩ := h.unlink
  refine ⟨_, by simp [remove, bind_apply, hprev, hnext]; rfl, ?_⟩
  have hbA : b ∉ A := by
    intro hbA
    exact (nodup_append.1 h.nodup).2.2 b hbA b (by simp) rfl
  rw [erase_append_right _ hbA, erase_cons_head]
  exact hholds

/-- `prepend_n` puts blocks in front of the queue. -/
lemma prependN_spec (h : q.Holds L) (hnd : (bs ++ L).Nodup) :
    ∃ q', prependN bs q = .ok () q' ∧ q'.Holds (bs ++ L) := by
  by_cases hbs : bs = []
  · subst hbs
    exact ⟨q, by simp [prependN], h⟩
  · obtain ⟨n, Y, hY⟩ := exists_first L
    have hnext : q.links.next .head = some n := by rw [h.next_head, hY]; rfl
    have hholds := Holds.splice (A := []) (B := L) (X := []) (p := .head) h hnd rfl hY
    refine ⟨_, ?_, hholds⟩
    simp [prependN, bind_apply, hbs, hnext]

/-- Putting a run of blocks behind the last node of the queue. -/
lemma Holds.splice_tail (h : q.Holds L) (hnd : (L ++ bs).Nodup) :
    ∃ p, q.links.prev .tail = some p ∧ Holds { q with
      links := (q.links.thread p (bs.map .block)).link (lastOf p bs) .tail
      numFreeBlocks := q.numFreeBlocks + bs.length } (L ++ bs) := by
  obtain ⟨X, p, hX, -⟩ := exists_last L
  have hholds := Holds.splice (A := L) (B := []) (n := .tail) (Y := []) (by simpa using h)
    (by simpa using hnd) hX rfl
  exact ⟨p, h.prev_tail hX, by simpa using hholds⟩

/-- `append_n` puts blocks at the end of the queue. -/
lemma appendN_spec (h : q.Holds L) (hnd : (L ++ bs).Nodup) :
    ∃ q', appendN bs q = .ok () q' ∧ q'.Holds (L ++ bs) := by
  by_cases hbs : bs = []
  · subst hbs
    exact ⟨q, by simp [appendN], by simpa using h⟩
  · obtain ⟨p, hprev, hholds⟩ := h.splice_tail hnd
    exact ⟨_, by simp [appendN, bind_apply, hbs, hprev], hholds⟩

/-- `append` puts one block at the end of the queue. -/
lemma append_spec (h : q.Holds L) (hb : b ∉ L) :
    ∃ q', append b q = .ok () q' ∧ q'.Holds (L ++ [b]) := by
  have hnd : (L ++ [b]).Nodup := concat_eq_append ▸ h.nodup.concat hb
  obtain ⟨p, hprev, hholds⟩ := h.splice_tail hnd
  exact ⟨_, by simp [append, bind_apply, hprev, Links.thread, lastOf], hholds⟩

/-- The walk from a node of a chain to the fake tail collects the nodes before the tail. -/
lemma collect_eq (htail : q.links.next .tail = none) {x : FreeNode}
    (h : (x :: (X ++ [.tail])).IsChain q.links.Linked) {fuel : ℕ} (hfuel : X.length < fuel) :
    q.collect (fuel + 1) x = x :: X := by
  induction X generalizing x fuel with
  | nil =>
    obtain ⟨fuel, rfl⟩ : ∃ k, fuel = k + 1 := ⟨fuel - 1, by simp at hfuel; omega⟩
    have hx : q.links.next x = some .tail := (isChain_cons_cons.1 h).1.1
    simp [collect, hx, htail]
  | cons y X ih =>
    obtain ⟨fuel, rfl⟩ : ∃ k, fuel = k + 1 := ⟨fuel - 1, by simp at hfuel; omega⟩
    have hx := (isChain_cons_cons.1 h).1.1
    rw [collect, hx]
    exact congrArg _ (ih (isChain_cons_cons.1 h).2 (by simpa using hfuel))

/-- `get_all_free_blocks` lists the blocks of the queue. -/
lemma getAllFreeBlocks_spec (h : q.Holds L) : getAllFreeBlocks q = .ok (L.map .block) q := by
  have hhead := h.next_head
  cases L with
  | nil => simp [getAllFreeBlocks, bind_apply, hhead, collect, h.tail_next]
  | cons b L =>
    have hcollect : q.collect (q.numFreeBlocks + 1) (.block b) = .block b :: L.map .block := by
      refine collect_eq h.tail_next h.chain.tail ?_
      rw [h.numFreeBlocks_eq]
      simp
    simp [getAllFreeBlocks, bind_apply, hhead, hcollect]

end FreeKVCacheBlockQueue

end Lvllm
