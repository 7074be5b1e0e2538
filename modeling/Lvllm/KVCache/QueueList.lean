import Lvllm.KVCache.FreeQueue

/-!
# The queue of free blocks is a list

Along any calls of its operations `FreeKVCacheBlockQueue` spells, forwards from the fake head and
backwards from the fake tail, the list that the same operations on lists lead to.
-/

namespace Lvllm

namespace FreeKVCacheBlockQueue

open List Option

/-- The blocks met by following a pointer map until there is no block; `fuel` bounds the number of
rounds. -/
def walk (follow : FreeNode → Option FreeNode) : ℕ → Option FreeNode → List ℕ
  | fuel + 1, some (.block b) => b :: walk follow fuel (follow (.block b))
  | _, _ => []

/-- `iter_blocks_after`. -/
def iterBlocksAfter (q : FreeKVCacheBlockQueue) (cursor : Option ℕ) : List ℕ :=
  walk q.links.next (q.numFreeBlocks + 1) (q.links.next (cursor.elim .head .block))

/-- `FreeKVCacheBlockQueue.__init__` on any blocks: between the fakes of an empty queue, neighbours
are linked, the first block to the fake head and the last one to the fake tail. -/
def ofBlocks (blocks : List ℕ) : FreeKVCacheBlockQueue where
  numFreeBlocks := blocks.length
  links := ((init 0).links.thread .head (blocks.map .block)).link (lastOf .head blocks) .tail

/-- The calls that change a queue. -/
inductive QueueOp where
  | popleft
  | popleftN (n : ℕ)
  | remove (b : ℕ)
  | append (b : ℕ)
  | appendN (bs : List ℕ)
  | prependN (bs : List ℕ)

/-- A call, with the blocks it returns. -/
def QueueOp.call : QueueOp → QueueM (List FreeNode)
  | .popleft => do return [← FreeKVCacheBlockQueue.popleft]
  | .popleftN n => FreeKVCacheBlockQueue.popleftN n
  | .remove b => do
    FreeKVCacheBlockQueue.remove b
    return []
  | .append b => do
    FreeKVCacheBlockQueue.append b
    return []
  | .appendN bs => do
    FreeKVCacheBlockQueue.appendN bs
    return []
  | .prependN bs => do
    FreeKVCacheBlockQueue.prependN bs
    return []

/-- The operation on a list, where it may be called: the blocks it returns and those it leaves. -/
def QueueOp.onList : QueueOp → StateT (List ℕ) Option (List ℕ)
  | .popleft => fun
    | [] => none
    | b :: L => some ([b], L)
  | .popleftN n => fun L => if n ≤ L.length then some (L.take n, L.drop n) else none
  | .remove b => fun L => if b ∈ L then some ([], L.erase b) else none
  | .append b => fun L => if b ∈ L then none else some ([], L ++ [b])
  | .appendN bs => fun L => if (L ++ bs).Nodup then some ([], L ++ bs) else none
  | .prependN bs => fun L => if (bs ++ L).Nodup then some ([], bs ++ L) else none

variable {q : FreeKVCacheBlockQueue} {L blocks : List ℕ}

/-- Following a map along a chain of blocks meets them all. -/
lemma walk_eq {follow : FreeNode → Option FreeNode} {x e : FreeNode} (he : ∀ b, e ≠ .block b)
    (h : (x :: (L.map .block ++ [e])).IsChain fun a b => follow a = some b) {fuel : ℕ}
    (hfuel : L.length < fuel) : walk follow fuel (follow x) = L := by
  obtain ⟨fuel, rfl⟩ : ∃ k, fuel = k + 1 := ⟨fuel - 1, by omega⟩
  induction L generalizing x fuel with
  | nil =>
    rw [show follow x = some e from (isChain_cons_cons.1 h).1]
    cases e with
    | block b => exact absurd rfl (he b)
    | head | tail => rfl
  | cons b L ih =>
    obtain ⟨fuel, rfl⟩ : ∃ k, fuel = k + 1 := ⟨fuel - 1, by simp at hfuel; omega⟩
    rw [show follow x = some (.block b) from (isChain_cons_cons.1 h).1, walk,
      ih (isChain_cons_cons.1 h).2 fuel (by simpa using hfuel)]

lemma ofBlocks_holds (hnd : blocks.Nodup) : (ofBlocks blocks).Holds blocks := by
  have hempty : (init 0).Holds ([] ++ []) := init_holds 0
  have hholds := hempty.splice (X := []) (Y := []) (n := .tail) (by simpa using hnd) rfl rfl
  simpa [ofBlocks, init] using hholds

/-- A call does to the queue what the operation does to its list. -/
lemma QueueOp.call_spec (op : QueueOp) (h : q.Holds L) {out L' : List ℕ}
    (hop : op.onList L = some (out, L')) :
    ∃ q', op.call q = .ok (out.map .block) q' ∧ q'.Holds L' := by
  cases op with
  | popleft =>
    cases L with
    | nil => cases hop
    | cons b L =>
      cases hop
      obtain ⟨q', hrun, hq'⟩ := popleft_spec h
      exact ⟨q', by rw [call, bind_ok hrun]; rfl, hq'⟩
  | popleftN n =>
    obtain ⟨hn, heq⟩ := ite_none_right_eq_some.1 hop
    cases heq
    exact popleftN_spec h hn
  | remove b =>
    obtain ⟨hb, heq⟩ := ite_none_right_eq_some.1 hop
    cases heq
    obtain ⟨q', hrun, hq'⟩ := remove_spec h hb
    exact ⟨q', by rw [call, bind_ok hrun]; rfl, hq'⟩
  | append b =>
    obtain ⟨hb, heq⟩ := ite_none_left_eq_some.1 hop
    cases heq
    obtain ⟨q', hrun, hq'⟩ := append_spec h hb
    exact ⟨q', by rw [call, bind_ok hrun]; rfl, hq'⟩
  | appendN bs =>
    obtain ⟨hnd, heq⟩ := ite_none_right_eq_some.1 hop
    cases heq
    obtain ⟨q', hrun, hq'⟩ := appendN_spec h hnd
    exact ⟨q', by rw [call, bind_ok hrun]; rfl, hq'⟩
  | prependN bs =>
    obtain ⟨hnd, heq⟩ := ite_none_right_eq_some.1 hop
    cases heq
    obtain ⟨q', hrun, hq'⟩ := prependN_spec h hnd
    exact ⟨q', by rw [call, bind_ok hrun]; rfl, hq'⟩

lemma calls_spec (ops : List QueueOp) (h : q.Holds L) {outs : List (List ℕ)} {L' : List ℕ}
    (hops : ops.mapM QueueOp.onList L = some (outs, L')) :
    ∃ q', ops.mapM QueueOp.call q = .ok (outs.map (·.map .block)) q' ∧ q'.Holds L' := by
  induction ops generalizing q L outs with
  | nil =>
    cases hops
    exact ⟨q, rfl, h⟩
  | cons op ops ih =>
    rw [mapM_cons] at hops
    obtain ⟨⟨out, L1⟩, hop, hops⟩ := bind_eq_some_iff.1 hops
    obtain ⟨⟨outs1, L2⟩, hrest, heq⟩ := bind_eq_some_iff.1 hops
    cases heq
    obtain ⟨q1, hcall, hq1⟩ := op.call_spec h hop
    obtain ⟨q2, hcalls, hq2⟩ := ih hq1 hrest
    exact ⟨q2, by rw [mapM_cons, bind_ok hcall, bind_ok hcalls]; rfl, hq2⟩

/-- The blocks behind a part of the queue are those behind its last node. -/
lemma Holds.walk_next {A B : List ℕ} (h : q.Holds (A ++ B)) {X : List FreeNode} {p : FreeNode}
    (hX : FreeNode.head :: A.map .block = X ++ [p]) :
    walk q.links.next (q.numFreeBlocks + 1) (q.links.next p) = B := by
  have hchain := h.chain
  rw [nodes, map_append, append_assoc, ← cons_append, hX, append_assoc] at hchain
  refine walk_eq (e := .tail) (by simp) (hchain.right_of_append.imp fun _ _ h => h.1) ?_
  rw [h.numFreeBlocks_eq, length_append]
  omega

/-- For any blocks and any calls that are allowed on their list: the calls return what the
operations on the list return, and the links spell the list that these lead to. -/
theorem free_queue_refines_list (hnd : blocks.Nodup) (ops : List QueueOp) {outs : List (List ℕ)}
    (hops : ops.mapM QueueOp.onList blocks = some (outs, L)) :
    ∃ q, ops.mapM QueueOp.call (ofBlocks blocks) = .ok (outs.map (·.map .block)) q ∧
      walk q.links.next (q.numFreeBlocks + 1) (q.links.next .head) = L ∧
      walk q.links.prev (q.numFreeBlocks + 1) (q.links.prev .tail) = L.reverse ∧
      q.numFreeBlocks = L.length ∧
      (∀ b ∉ L, q.links.next (.block b) = none ∧ q.links.prev (.block b) = none) ∧
      getAllFreeBlocks q = .ok (L.map .block) q ∧ q.iterBlocksAfter none = L ∧
      ∀ A b B, L = A ++ b :: B → q.iterBlocksAfter (some b) = B := by
  obtain ⟨q, hcalls, h⟩ := calls_spec ops (ofBlocks_holds hnd) hops
  have hforward : walk q.links.next (q.numFreeBlocks + 1) (q.links.next .head) = L :=
    Holds.walk_next (A := []) (X := []) h rfl
  refine ⟨q, hcalls, hforward, ?_, h.numFreeBlocks_eq, h.outside, getAllFreeBlocks_spec h, hforward,
    fun A b B hL => ?_⟩
  · have hchain : (nodes L).reverse.IsChain fun a b => q.links.prev a = some b :=
      isChain_reverse.2 (h.chain.imp fun _ _ h => h.2)
    have hnodes : (nodes L).reverse = .tail :: (L.reverse.map .block ++ [.head]) := by simp [nodes]
    rw [hnodes] at hchain
    refine walk_eq (by simp) hchain ?_
    rw [length_reverse, h.numFreeBlocks_eq]
    omega
  · subst hL
    exact Holds.walk_next (A := A ++ [b]) (X := .head :: A.map .block) (by simpa using h) (by simp)

/-- Of three blocks one is popped, one removed, and both are put back. -/
theorem free_queue_of_three_blocks : [7, 5, 9].Nodup ∧
    ∃ q, [QueueOp.popleft, .remove 9, .appendN [9, 7]].mapM QueueOp.call (ofBlocks [7, 5, 9]) =
        .ok [[.block 7], [], []] q ∧ q.iterBlocksAfter none = [5, 9, 7] := by
  have hnd : [7, 5, 9].Nodup := by decide
  have hops : [QueueOp.popleft, .remove 9, .appendN [9, 7]].mapM QueueOp.onList [7, 5, 9] =
      some ([[7], [], []], [5, 9, 7]) := by decide
  obtain ⟨q, hcalls, -, -, -, -, -, hiter, -⟩ := free_queue_refines_list hnd _ hops
  exact ⟨hnd, q, hcalls, hiter⟩

end FreeKVCacheBlockQueue

end Lvllm
