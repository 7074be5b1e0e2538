import Lvllm.Foundation.Dict
import Lvllm.Foundation.StateExcept
import Lvllm.Request.Request
import Mathlib.Data.Rat.Floor

/-!
# Cache policies of the CPU offload pool

`CPUOffloadingManager` leaves the order of its blocks and the choice of what to evict to a cache
policy.  The two built-in policies are modelled: `LRUCachePolicy` keeps the idle blocks in the order
of their last use, and `ARCCachePolicy` keeps two recency lists, two ghost lists and an adaptive
target.  `CachePolicy` is the policy that the factory chooses by name.

A block is an object that the manager and the policy share, so a write to one of its fields is an
operation of the policy here (`setRefCnt`).  The target of the adaptive policy is a float; `round` is
the rounding of the float operations, and nothing that is proved depends on it.
-/

namespace Lvllm

/-! ## Blocks -/

/-- The value of a 32-bit signed field after `x` is written to it. -/
def int32 (x : ℤ) : ℤ := x.bmod (2 ^ 32)

lemma int32_eq {x : ℤ} (hlow : -(2 ^ 31) ≤ x) (hhigh : x < 2 ^ 31) : int32 x = x := by
  rw [int32, Int.bmod_eq_of_le]
  · exact hlow
  · exact hhigh

/-- `BlockStatus`: the number of transfers that read a block, or `-1` while it is not ready, and the
slot of the CPU buffer that it stands in. -/
structure BlockStatus where
  refCnt : ℤ
  blockId : ℕ
  deriving DecidableEq, Repr

namespace BlockStatus

/-- `BlockStatus.__init__`: a new block is not ready. -/
def new (blockId : ℕ) : BlockStatus where
  refCnt := -1
  blockId := blockId

/-- `BlockStatus.is_ready` -/
def isReady (b : BlockStatus) : Bool := 0 ≤ b.refCnt

end BlockStatus

variable {Key : Type} [DecidableEq Key]

/-- `del d[key]` -/
def del {V : Type} (d : Dict Key V) (key : Key) : Except PyErr (Dict Key V) :=
  if d.contains key then .ok (d.erase key) else .error .keyError

lemma del_of_get? {V : Type} {d : Dict Key V} {key : Key} {v : V} (h : d.get? key = some v) :
    del d key = .ok (d.erase key) := by
  rw [del, Dict.contains, h]
  rfl

/-! ## The policy of least recent use -/

/-- `LRUCachePolicy` -/
structure LRUCachePolicy (Key : Type) where
  cacheCapacity : ℕ
  /-- The blocks with `ref_cnt` 0, in the order of their last use. -/
  evictableBlocks : Dict Key Unit
  blocks : Dict Key BlockStatus

namespace LRUCachePolicy

/-- `LRUCachePolicy.__init__` -/
def init (cacheCapacity : ℕ) : LRUCachePolicy Key where
  cacheCapacity := cacheCapacity
  evictableBlocks := .empty
  blocks := .empty

/-- `LRUCachePolicy.get` -/
def get (p : LRUCachePolicy Key) (key : Key) : Option BlockStatus := p.blocks.get? key

variable (p : LRUCachePolicy Key)

/-- `LRUCachePolicy.insert` -/
def insert (key : Key) (block : BlockStatus) : LRUCachePolicy Key :=
  { p with
    blocks := p.blocks.set key block
    evictableBlocks :=
      if block.refCnt = 0 then p.evictableBlocks.set key () else p.evictableBlocks }

/-- `LRUCachePolicy.remove` -/
def remove (key : Key) : Except PyErr (LRUCachePolicy Key) := do
  let blocks ← del p.blocks key
  pure { p with blocks := blocks, evictableBlocks := p.evictableBlocks.erase key }

/-- `LRUCachePolicy.touch`: active blocks are left alone, they come to the end when they become
idle. -/
def touch (keys : List Key) : LRUCachePolicy Key :=
  keys.reverse.foldl (fun p key =>
    if p.evictableBlocks.contains key then
      { p with evictableBlocks := p.evictableBlocks.moveToEnd key }
    else p) p

/-- `LRUCachePolicy.clear` -/
def clear : LRUCachePolicy Key :=
  { p with evictableBlocks := .empty, blocks := .empty }

/-- The scan of `evict`: the first `n` idle blocks that are not protected. -/
def candidates (p : LRUCachePolicy Key) (protectedKeys : List Key) :
    ℕ → List Key → Except PyErr (List (Key × BlockStatus))
  | 0, _ => .ok []
  | _ + 1, [] => .ok []
  | n + 1, key :: keys =>
    if key ∈ protectedKeys then p.candidates protectedKeys (n + 1) keys
    else
      match p.blocks.get? key with
      | none => .error .keyError
      | some block =>
        if block.refCnt = 0 then do
          let more ← p.candidates protectedKeys n keys
          pure ((key, block) :: more)
        else .error .assertionError

/-- The deletions of `evict`. -/
def delAll : List (Key × BlockStatus) → LRUCachePolicy Key → Except PyErr (LRUCachePolicy Key)
  | [], p => .ok p
  | (key, _) :: rest, p => do
    let evictableBlocks ← del p.evictableBlocks key
    let blocks ← del p.blocks key
    delAll rest { p with evictableBlocks := evictableBlocks, blocks := blocks }

/-- `LRUCachePolicy.evict` -/
def evict (n : ℕ) (protectedKeys : List Key) :
    Except PyErr (Option (List (Key × BlockStatus)) × LRUCachePolicy Key) :=
  if n = 0 then .ok (some [], p)
  else do
    let candidates ← p.candidates protectedKeys n p.evictableBlocks.keys
    if candidates.length < n then pure (none, p)
    else do
      let p ← delAll candidates p
      pure (some candidates, p)

/-- `LRUCachePolicy.mark_evictable` -/
def markEvictable (key : Key) : LRUCachePolicy Key :=
  { p with evictableBlocks := p.evictableBlocks.set key () }

/-- `LRUCachePolicy.mark_non_evictable` -/
def markNonEvictable (key : Key) : Except PyErr (LRUCachePolicy Key) := do
  let evictableBlocks ← del p.evictableBlocks key
  pure { p with evictableBlocks := evictableBlocks }

/-- A write to the `ref_cnt` of a block. -/
def setRefCnt (key : Key) (refCnt : ℤ) : LRUCachePolicy Key :=
  match p.blocks.get? key with
  | none => p
  | some block => { p with blocks := p.blocks.set key { block with refCnt := refCnt } }

end LRUCachePolicy

/-! ## The adaptive policy -/

/-- `ARCCachePolicy` -/
structure ARCCachePolicy (Key : Type) where
  cacheCapacity : ℕ
  targetT1Size : ℚ
  /-- Blocks that were accessed once. -/
  t1 : Dict Key BlockStatus
  /-- Blocks that were accessed again. -/
  t2 : Dict Key BlockStatus
  /-- Keys that were evicted from `t1`. -/
  b1 : Dict Key Unit
  /-- Keys that were evicted from `t2`. -/
  b2 : Dict Key Unit
  /-- The rounding of the float operations. -/
  round : ℚ → ℚ

namespace ARCCachePolicy

/-- `ARCCachePolicy.__init__` -/
def init (cacheCapacity : ℕ) (round : ℚ → ℚ) : ARCCachePolicy Key where
  cacheCapacity := cacheCapacity
  targetT1Size := 0
  t1 := .empty
  t2 := .empty
  b1 := .empty
  b2 := .empty
  round := round

/-- `ARCCachePolicy.get` -/
def get (p : ARCCachePolicy Key) (key : Key) : Option BlockStatus :=
  (p.t1.get? key).or (p.t2.get? key)

/-- `ARCCachePolicy.insert` -/
def insert (p : ARCCachePolicy Key) (key : Key) (block : BlockStatus) : ARCCachePolicy Key :=
  { p with t1 := p.t1.set key block, b1 := p.b1.erase key, b2 := p.b2.erase key }

/-- `ARCCachePolicy.remove` -/
def remove (p : ARCCachePolicy Key) (key : Key) : ARCCachePolicy Key :=
  if p.t1.contains key then { p with t1 := p.t1.erase key } else { p with t2 := p.t2.erase key }

/-- One key of `touch`. -/
def touchOne (p : ARCCachePolicy Key) (key : Key) : ARCCachePolicy Key :=
  match p.t1.get? key with
  | some block =>
    -- A block that is just being stored was not used twice: it stays in `t1`.
    if block.isReady = false then { p with t1 := p.t1.moveToEnd key }
    else { p with t1 := p.t1.erase key, t2 := p.t2.set key block }
  | none =>
    if p.t2.contains key then { p with t2 := p.t2.moveToEnd key }
    else if p.b1.contains key then
      let delta := max 1 (p.round (p.b2.size / p.b1.size))
      { p with
        targetT1Size := min (p.round (p.targetT1Size + delta)) p.cacheCapacity
        b1 := p.b1.moveToEnd key }
    else if p.b2.contains key then
      let delta := max 1 (p.round (p.b1.size / p.b2.size))
      { p with
        targetT1Size := max (p.round (p.targetT1Size - delta)) 0
        b2 := p.b2.moveToEnd key }
    else p

/-- `ARCCachePolicy.touch` -/
def touch (p : ARCCachePolicy Key) (keys : List Key) : ARCCachePolicy Key :=
  keys.reverse.foldl touchOne p

/-- `ARCCachePolicy.clear` -/
def clear (p : ARCCachePolicy Key) : ARCCachePolicy Key :=
  { p with t1 := .empty, t2 := .empty, b1 := .empty, b2 := .empty, targetT1Size := 0 }

/-- `next_candidate`: the next idle block of an iterator that is not protected, and what is left of
the iterator. -/
def nextCandidate (protectedKeys : List Key) :
    List (Key × BlockStatus) → Option (Key × BlockStatus) × List (Key × BlockStatus)
  | [] => (none, [])
  | (key, block) :: rest =>
    if block.refCnt = 0 ∧ key ∉ protectedKeys then (some (key, block), rest)
    else nextCandidate protectedKeys rest

/-- The selection of `evict`: `n` candidates, each with whether it comes from `t1`.  The two lists
are what is left of the iterators. -/
def select (protectedKeys : List Key) (target : ℤ) :
    ℕ → List (Key × BlockStatus) → List (Key × BlockStatus) → ℤ →
      Option (List ((Key × BlockStatus) × Bool))
  | 0, _, _, _ => some []
  | n + 1, t1, t2, virtualT1Size =>
    match if target ≤ virtualT1Size then nextCandidate protectedKeys t1 else (none, t1) with
    | (some entry, t1) => do
      let more ← select protectedKeys target n t1 t2 (virtualT1Size - 1)
      pure ((entry, true) :: more)
    | (none, t1) =>
      match nextCandidate protectedKeys t2 with
      | (none, _) => none
      | (some entry, t2) => do
        let more ← select protectedKeys target n t1 t2 virtualT1Size
        pure ((entry, false) :: more)

/-- The deletions of `evict`. -/
def delAll : List ((Key × BlockStatus) × Bool) → ARCCachePolicy Key →
    Except PyErr (ARCCachePolicy Key)
  | [], p => .ok p
  | ((key, _), true) :: rest, p => do
    let t1 ← del p.t1 key
    delAll rest { p with t1 := t1, b1 := p.b1.set key () }
  | ((key, _), false) :: rest, p => do
    let t2 ← del p.t2 key
    delAll rest { p with t2 := t2, b2 := p.b2.set key () }

/-- `ARCCachePolicy.evict` -/
def evict (p : ARCCachePolicy Key) (n : ℕ) (protectedKeys : List Key) :
    Except PyErr (Option (List (Key × BlockStatus)) × ARCCachePolicy Key) :=
  if n = 0 then .ok (some [], p)
  else
    match select protectedKeys ⌊p.targetT1Size⌋ n p.t1.entries p.t2.entries p.t1.size with
    | none => .ok (none, p)
    | some candidates => do
      let p ← delAll candidates p
      pure (some (candidates.map Prod.fst),
        { p with
          b1 := p.b1.dropFirst (p.b1.size - p.cacheCapacity)
          b2 := p.b2.dropFirst (p.b2.size - p.cacheCapacity) })

/-- A write to the `ref_cnt` of a block. -/
def setRefCnt (p : ARCCachePolicy Key) (key : Key) (refCnt : ℤ) : ARCCachePolicy Key :=
  match p.t1.get? key with
  | some block => { p with t1 := p.t1.set key { block with refCnt := refCnt } }
  | none =>
    match p.t2.get? key with
    | some block => { p with t2 := p.t2.set key { block with refCnt := refCnt } }
    | none => p

end ARCCachePolicy

/-! ## The policy of a pool -/

/-- The names of the built-in policies. -/
inductive CachePolicyName where
  | lru
  | arc
  deriving DecidableEq, Repr

/-- A policy that the factory returns. -/
inductive CachePolicy (Key : Type) where
  | lru (p : LRUCachePolicy Key)
  | arc (p : ARCCachePolicy Key)

namespace CachePolicy

/-- `CachePolicyFactory.get_cache_policy_cls` for the built-in policies. -/
def ofName (name : CachePolicyName) (cacheCapacity : ℕ) (round : ℚ → ℚ) : CachePolicy Key :=
  match name with
  | .lru => .lru (.init cacheCapacity)
  | .arc => .arc (.init cacheCapacity round)

/-- `CachePolicy.get` -/
def get : CachePolicy Key → Key → Option BlockStatus
  | .lru p, key => p.get key
  | .arc p, key => p.get key

/-- `CachePolicy.insert` -/
def insert : CachePolicy Key → Key → BlockStatus → CachePolicy Key
  | .lru p, key, block => .lru (p.insert key block)
  | .arc p, key, block => .arc (p.insert key block)

/-- `CachePolicy.remove` -/
def remove : CachePolicy Key → Key → Except PyErr (CachePolicy Key)
  | .lru p, key => CachePolicy.lru <$> p.remove key
  | .arc p, key => .ok (.arc (p.remove key))

/-- `CachePolicy.touch` -/
def touch : CachePolicy Key → List Key → CachePolicy Key
  | .lru p, keys => .lru (p.touch keys)
  | .arc p, keys => .arc (p.touch keys)

/-- `CachePolicy.clear` -/
def clear : CachePolicy Key → CachePolicy Key
  | .lru p => .lru p.clear
  | .arc p => .arc p.clear

/-- `CachePolicy.evict` -/
def evict : CachePolicy Key → ℕ → List Key →
    Except PyErr (Option (List (Key × BlockStatus)) × CachePolicy Key)
  | .lru p, n, protectedKeys => (Prod.map id CachePolicy.lru) <$> p.evict n protectedKeys
  | .arc p, n, protectedKeys => (Prod.map id CachePolicy.arc) <$> p.evict n protectedKeys

/-- `CachePolicy.mark_evictable` -/
def markEvictable : CachePolicy Key → Key → CachePolicy Key
  | .lru p, key => .lru (p.markEvictable key)
  | .arc p, _ => .arc p

/-- `CachePolicy.mark_non_evictable` -/
def markNonEvictable : CachePolicy Key → Key → Except PyErr (CachePolicy Key)
  | .lru p, key => CachePolicy.lru <$> p.markNonEvictable key
  | .arc p, _ => .ok (.arc p)

/-- A write to the `ref_cnt` of a block. -/
def setRefCnt : CachePolicy Key → Key → ℤ → CachePolicy Key
  | .lru p, key, refCnt => .lru (p.setRefCnt key refCnt)
  | .arc p, key, refCnt => .arc (p.setRefCnt key refCnt)

/-- The blocks of a policy with their keys. -/
def contents : CachePolicy Key → List (Key × BlockStatus)
  | .lru p => p.blocks.entries
  | .arc p => p.t1.entries ++ p.t2.entries

end CachePolicy

end Lvllm
