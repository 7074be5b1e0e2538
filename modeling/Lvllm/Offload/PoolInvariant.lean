import Lvllm.Foundation.Run
import Lvllm.Offload.Manager
import Lvllm.Offload.PolicyLaws

/-!
# The books of the CPU offload pool

`PoolInv m loads` ties the counters, the free list and the policy of a pool together: every slot that
was ever handed out is in use by one block or free, the two counters count the idle and the pending
blocks, and the readers of a block are the loads in flight.  Each operation keeps the books and does
not raise, and what it does to the keys that can be read is what it tells in its events.
-/

namespace Lvllm

open List BlockStatus CachePolicy

variable {Key : Type} [DecidableEq Key]

/-! ## The blocks of a policy as a list -/

variable {block block' : BlockStatus} {keys : List Key}

namespace CachePolicy

variable {p p' : CachePolicy Key}

/-- `get` reads the list of blocks, in any order. -/
lemma Ok.get_of_perm (h : p.Ok) {es : List (Key × BlockStatus)} (hperm : p.contents.Perm es)
    (key : Key) : p.get key = Dict.lookupIn key es := by
  refine Option.ext fun block => ?_
  rw [h.get_eq_some, Dict.lookupIn_eq_some ((hperm.map _).nodup_iff.1 h.nodup_keys), hperm.mem_iff]

/-- The other keys do not notice that a block is replaced. -/
lemma Swapped.get {key : Key} (hswap : Swapped p p' key block block') (h : p.Ok) (h' : p'.Ok)
    (key' : Key) :
    p'.get key' = if key = key' then some block' else p.get key' := by
  obtain ⟨rest, hperm, hperm'⟩ := hswap
  rw [h'.get_of_perm hperm', h.get_of_perm hperm, Dict.lookupIn, Dict.lookupIn]
  split
  · rfl
  · rfl

end CachePolicy

namespace CPUOffloadingManager

/-- The number of blocks with a given `ref_cnt`. -/
def numWith (m : CPUOffloadingManager Key) (refCnt : ℤ) : ℕ :=
  m.policy.contents.countP fun e => e.2.refCnt = refCnt

/-- The slots that are in use. -/
def usedIds (m : CPUOffloadingManager Key) : List ℕ := m.policy.contents.map fun e => e.2.blockId

/-- The number of readers of a block. -/
def readers : Option BlockStatus → ℤ
  | none => 0
  | some block => max block.refCnt 0

/-- The books of a pool while the loads of `loads` are in flight. -/
structure PoolInv (m : CPUOffloadingManager Key) (loads : List Key) : Prop where
  policy : m.policy.Ok
  /-- Every slot that was handed out is used once or free. -/
  ids : (m.usedIds ++ m.freeList).Perm (List.range m.numAllocatedBlocks)
  allocated : m.numAllocatedBlocks ≤ m.numBlocks
  evictable : m.numEvictableCacheBlocks = m.numWith 0
  pending : m.numWritePendingBlocks = m.numWith (-1)
  refs : ∀ e ∈ m.policy.contents, -1 ≤ e.2.refCnt
  /-- The readers of a block are the loads in flight. -/
  reads : ∀ key, (loads.count key : ℤ) = readers (m.policy.get key)
  /-- There are not too many of them for the field that counts them. -/
  bounded : ∀ key, loads.count key < 2 ^ 31
  tracker : m.counts ≠ none → 2 ≤ m.storeThreshold

/-- What an operation leaves alone that tells nothing: the events and the settings. -/
structure Quiet (m m' : CPUOffloadingManager Key) : Prop where
  numBlocks : m'.numBlocks = m.numBlocks
  events : m'.events = m.events
  storeThreshold : m'.storeThreshold = m.storeThreshold
  maxTrackerSize : m'.maxTrackerSize = m.maxTrackerSize

omit [DecidableEq Key] in
lemma Quiet.refl (m : CPUOffloadingManager Key) : Quiet m m := ⟨rfl, rfl, rfl, rfl⟩

variable {m m' : CPUOffloadingManager Key}

omit [DecidableEq Key] in
lemma Quiet.trans {m₁ m₂ : CPUOffloadingManager Key} (h : Quiet m m₁) (h' : Quiet m₁ m₂) :
    Quiet m m₂ :=
  ⟨h'.numBlocks.trans h.numBlocks, h'.events.trans h.events,
    h'.storeThreshold.trans h.storeThreshold, h'.maxTrackerSize.trans h.maxTrackerSize⟩

/-- The keys that can be read after events are replayed, from those that could be read before. -/
def replayFrom (keys : List Key) (events : List (OffloadingEvent Key)) : List Key :=
  events.foldl (fun keys e =>
    if e.removed then keys.filter (· ∉ e.keys) else keys ++ e.keys) keys

/-- The events of an operation tell what it does to the keys that can be read. -/
structure Told (m m' : CPUOffloadingManager Key) (new : List (OffloadingEvent Key)) : Prop where
  numBlocks : m'.numBlocks = m.numBlocks
  storeThreshold : m'.storeThreshold = m.storeThreshold
  maxTrackerSize : m'.maxTrackerSize = m.maxTrackerSize
  events : m'.events = m.events.map (· ++ new)
  ready : ∀ keys : List Key, (∀ key, key ∈ keys ↔ m.lookup key = .hit) →
    ∀ key, key ∈ replayFrom keys new ↔ m'.lookup key = .hit

/-- An operation that tells nothing changes nothing of what can be read. -/
lemma Quiet.told (h : Quiet m m') (hlookup : ∀ key, m'.lookup key = .hit ↔ m.lookup key = .hit) :
    Told m m' [] := by
  refine { h with events := ?_, ready := ?_ }
  · rw [h.events]
    cases m.events with
    | none => rfl
    | some events => rw [Option.map_some, append_nil]
  · intro keys hkeys key
    exact (hkeys key).trans (hlookup key).symm

/-- What is told about some keys. -/
def telling (keys : List Key) (removed : Bool) : List (OffloadingEvent Key) :=
  if keys.isEmpty then [] else [{ keys := keys, removed := removed }]

omit [DecidableEq Key] in
lemma emit_eq (m : CPUOffloadingManager Key) (keys : List Key) (removed : Bool) :
    m.emit keys removed = { m with events := m.events.map (· ++ telling keys removed) } := by
  unfold emit telling
  split
  · cases hevents : m.events with
    | none =>
      rw [Option.map_none, ← hevents]
    | some events =>
      rw [Option.map_some, append_nil, ← hevents]
  · rfl

/-! ## One block changes -/

section Swap

variable {m : CPUOffloadingManager Key} {p' : CachePolicy Key} {key : Key}
  {block block' : BlockStatus}

omit [DecidableEq Key] in
/-- Replacing a block moves it from one count to another. -/
lemma countP_swap (hswap : CachePolicy.Swapped m.policy p' key block block') (refCnt : ℤ) :
    p'.contents.countP (fun e => e.2.refCnt = refCnt) + (if block.refCnt = refCnt then 1 else 0) =
      m.numWith refCnt + (if block'.refCnt = refCnt then 1 else 0) := by
  obtain ⟨rest, hperm, hperm'⟩ := hswap
  rw [numWith, hperm.countP_eq, hperm'.countP_eq, countP_cons, countP_cons]
  simp only [decide_eq_true_eq]
  omega

omit [DecidableEq Key] in
/-- A block whose readers are counted anew keeps its slot. -/
lemma usedIds_swap {refCnt : ℤ}
    (hswap : CachePolicy.Swapped m.policy p' key block { block with refCnt := refCnt }) :
    (p'.contents.map fun e => e.2.blockId).Perm m.usedIds := by
  obtain ⟨rest, hperm, hperm'⟩ := hswap
  exact (hperm'.map _).trans (hperm.map fun e => e.2.blockId).symm

/-- The books after the readers of a block are counted anew. -/
lemma PoolInv.swap {loads loads' : List Key} {refCnt e w : ℤ} (h : PoolInv m loads)
    (hswap : CachePolicy.Swapped m.policy p' key block { block with refCnt := refCnt }) (hok : p'.Ok)
    (hevictable : e + (if block.refCnt = 0 then 1 else 0) =
      m.numEvictableCacheBlocks + if refCnt = 0 then 1 else 0)
    (hpending : w + (if block.refCnt = -1 then 1 else 0) =
      m.numWritePendingBlocks + if refCnt = -1 then 1 else 0) (href : -1 ≤ refCnt)
    (hreads : (loads'.count key : ℤ) = max refCnt 0) (hbound : loads'.count key < 2 ^ 31)
    (hothers : ∀ key', key' ≠ key → loads'.count key' = loads.count key') :
    PoolInv { m with policy := p', numEvictableCacheBlocks := e, numWritePendingBlocks := w }
      loads' := by
  refine ⟨hok, ((usedIds_swap hswap).append_right _).trans h.ids, h.allocated, ?_, ?_, ?_, ?_, ?_,
    h.tracker⟩
  · have hcount := countP_swap hswap 0
    have hold := h.evictable
    show e = (p'.contents.countP _ : ℕ)
    push_cast [← @Nat.cast_inj ℤ] at hcount
    linarith
  · have hcount := countP_swap hswap (-1)
    have hold := h.pending
    show w = (p'.contents.countP _ : ℕ)
    push_cast [← @Nat.cast_inj ℤ] at hcount
    linarith
  · obtain ⟨rest, hperm, hperm'⟩ := hswap
    intro e he
    rcases mem_cons.1 (hperm'.mem_iff.1 he) with rfl | he
    · exact href
    · exact h.refs e (hperm.mem_iff.2 (mem_cons_of_mem _ he))
  · intro key'
    rw [hswap.get h.policy hok]
    split
    · rename_i heq
      rw [← heq]
      exact hreads
    · rename_i hne
      rw [hothers key' (Ne.symm hne)]
      exact h.reads key'
  · intro key'
    by_cases heq : key' = key
    · rw [heq]
      exact hbound
    · rw [hothers key' heq]
      exact h.bounded key'

/-- A block that can be read has as many readers as loads in flight. -/
lemma PoolInv.readers_eq {loads : List Key} (h : PoolInv m loads)
    (hget : m.policy.get key = some block) (hready : 0 ≤ block.refCnt) :
    (loads.count key : ℤ) = block.refCnt := by
  rw [h.reads key, hget, readers, max_eq_left hready]

/-- A block that cannot be read is pending. -/
lemma PoolInv.pending_of_not_ready {loads : List Key} (h : PoolInv m loads)
    (hget : m.policy.get key = some block) (hready : ¬ block.isReady = true) :
    block.refCnt = -1 := by
  have hlow : -1 ≤ block.refCnt := h.refs _ (h.policy.get_eq_some.1 hget)
  simp only [isReady, decide_eq_true_eq] at hready
  omega

lemma lookup_eq_hit :
    m.lookup key = .hit ↔ ∃ block, m.policy.get key = some block ∧ 0 ≤ block.refCnt := by
  unfold lookup
  cases m.policy.get key with
  | none => simp
  | some block =>
    by_cases hready : 0 ≤ block.refCnt
    · simp [isReady, hready]
    · simp [isReady, hready]

end Swap

/-! ## Loads -/

section Loads

variable {m : CPUOffloadingManager Key} {loads : List Key} {key : Key}

/-- Replacing a block that can be read by one that can be read does not change what can be read. -/
lemma lookup_of_swapped (hswap : CachePolicy.Swapped m.policy m'.policy key block block')
    (hok : m.policy.Ok) (hok' : m'.policy.Ok) (hready : block.isReady = block'.isReady) (key' : Key) :
    m'.lookup key' = m.lookup key' := by
  have hget : m.policy.get key = some block := by
    obtain ⟨rest, hperm, -⟩ := hswap
    rw [hok.get_of_perm hperm, Dict.lookupIn, if_pos rfl]
  unfold lookup
  rw [hswap.get hok hok']
  by_cases heq : key = key'
  · rw [if_pos heq, ← heq, hget]
    dsimp only
    rw [hready]
  · rw [if_neg heq]

section

variable (h : PoolInv m loads)

include h

lemma takeIdle_spec (hget : m.policy.get key = some block) (hidle : block.refCnt = 0) :
    ∃ p, m.policy.markNonEvictable key = .ok p ∧ p.get key = some block ∧
      p.contents = m.policy.contents ∧ (∀ refCnt, refCnt ≠ 0 → (p.setRefCnt key refCnt).Ok) ∧
      takeIdle key m = .ok ⟨⟩
        { m with policy := p, numEvictableCacheBlocks := m.numEvictableCacheBlocks - 1 } := by
  obtain ⟨p, hmark, hp, hcontents, hok⟩ := h.policy.acquire hget hidle
  refine ⟨p, hmark, hp, hcontents, hok, ?_⟩
  have hpos : 0 < m.numWith 0 := by
    refine countP_pos_iff.2 ⟨(key, block), h.policy.get_eq_some.1 hget, ?_⟩
    simpa using hidle
  have hnonneg : ¬ m.numEvictableCacheBlocks - 1 < 0 := by
    rw [h.evictable]
    omega
  rw [takeIdle, bind_get, hmark]
  dsimp only [liftExcept]
  rw [bind_ok (pure_apply p m), bind_ok (set_apply m _), if_neg hnonneg]
  rfl

/-- A block that can be read gets one more reader. -/
lemma prepareLoadOne_spec (hhit : m.lookup key = .hit) (hbound : loads.count key + 1 < 2 ^ 31) :
    ∃ id m', prepareLoadOne key m = .ok id m' ∧ PoolInv m' (loads ++ [key]) ∧ Quiet m m' ∧
      ∀ key', m'.lookup key' = m.lookup key' := by
  obtain ⟨block, hget, hready⟩ := lookup_eq_hit.1 hhit
  have hcount := h.readers_eq hget hready
  have hint : int32 (block.refCnt + 1) = block.refCnt + 1 := by
    refine int32_eq ?_ ?_
    · omega
    · rw [← hcount]
      exact_mod_cast hbound
  have hne : block.refCnt + 1 ≠ 0 := by omega
  have hreads : ((loads ++ [key]).count key : ℤ) = max (block.refCnt + 1) 0 := by
    rw [count_append, count_singleton_self, max_eq_left (by omega)]
    omega
  have hcount' : (loads ++ [key]).count key < 2 ^ 31 := by
    rw [count_append, count_singleton_self]
    exact hbound
  have hothers : ∀ key', key' ≠ key → (loads ++ [key]).count key' = loads.count key' := by
    intro key' hne'
    rw [count_append, count_singleton, if_neg (by simpa using Ne.symm hne'), Nat.add_zero]
  have hisReady : block.isReady = true := decide_eq_true hready
  -- An idle block leaves the idle list first.
  obtain ⟨p, e, hrun, hswap, hok, hevictable⟩ : ∃ p e, prepareLoadOne key m = .ok block.blockId
        { m with policy := p, numEvictableCacheBlocks := e } ∧
      CachePolicy.Swapped m.policy p key block { block with refCnt := block.refCnt + 1 } ∧ p.Ok ∧
      e + (if block.refCnt = 0 then 1 else 0) = m.numEvictableCacheBlocks := by
    rw [prepareLoadOne, bind_get, hget]
    dsimp only
    rw [if_pos hisReady, hint]
    by_cases hidle : block.refCnt = 0
    · obtain ⟨p, -, hp, hcontents, hok, htake⟩ := takeIdle_spec h hget hidle
      rw [if_pos hidle, bind_ok htake, bind_modify]
      obtain ⟨rest, hperm, hperm'⟩ := swapped_setRefCnt hp (block.refCnt + 1)
      exact ⟨_, _, rfl, ⟨rest, hcontents ▸ hperm, hperm'⟩, hok _ hne, by simp [hidle]⟩
    · rw [if_neg hidle, bind_ok (pure_apply _ m), bind_modify]
      exact ⟨_, _, rfl, swapped_setRefCnt hget _, h.policy.hold hget hidle hne, by simp [hidle]⟩
  refine ⟨block.blockId, _, hrun, ?_, ⟨rfl, rfl, rfl, rfl⟩, lookup_of_swapped hswap h.policy hok ?_⟩
  · refine h.swap hswap hok ?_ ?_ (by omega) hreads hcount' hothers
    · rw [if_neg hne, hevictable, add_zero]
    · rw [if_neg (by omega), if_neg (by omega)]
  · simp only [isReady, decide_eq_decide]
    omega

lemma prepareLoad_spec (keys : List Key) (hhit : ∀ key ∈ keys, m.lookup key = .hit)
    (hbound : ∀ key ∈ keys, (loads ++ keys).count key < 2 ^ 31) :
    ∃ ids m', prepareLoad keys m = .ok ids m' ∧ PoolInv m' (loads ++ keys) ∧ Quiet m m' ∧
      ∀ key', m'.lookup key' = m.lookup key' := by
  induction keys generalizing m loads with
  | nil =>
    rw [append_nil]
    exact ⟨[], m, rfl, h, .refl m, fun _ => rfl⟩
  | cons key keys ih =>
    have hfirst : loads.count key + 1 < 2 ^ 31 := by
      have := hbound key mem_cons_self
      rw [count_append, count_cons_self] at this
      omega
    obtain ⟨id, m₁, hone, hinv, hquiet, hlookup⟩ :=
      prepareLoadOne_spec h (hhit key mem_cons_self) hfirst
    have happend : loads ++ [key] ++ keys = loads ++ key :: keys := by
      rw [append_assoc, singleton_append]
    obtain ⟨ids, m₂, hrest, hinv', hquiet', hlookup'⟩ := ih hinv
      (fun key' hmem => (hlookup key').trans (hhit key' (mem_cons_of_mem _ hmem)))
      (fun key' hmem => happend ▸ hbound key' (mem_cons_of_mem _ hmem))
    rw [happend] at hinv'
    refine ⟨id :: ids, m₂, ?_, hinv', hquiet.trans hquiet',
      fun key' => (hlookup' key').trans (hlookup key')⟩
    have hrest' : keys.mapM prepareLoadOne m₁ = .ok ids m₂ := hrest
    rw [prepareLoad, mapM_cons, bind_ok hone, bind_ok hrest']
    rfl

lemma completeLoadOne_spec (hmem : key ∈ loads) :
    ∃ m', completeLoadOne key m = .ok ⟨⟩ m' ∧ PoolInv m' (loads.erase key) ∧ Quiet m m' ∧
      ∀ key', m'.lookup key' = m.lookup key' := by
  have hpos : 0 < loads.count key := count_pos_iff.2 hmem
  have hreads := h.reads key
  have hbound := h.bounded key
  cases hget : m.policy.get key with
  | none =>
    rw [hget, readers] at hreads
    omega
  | some block =>
    rw [hget, readers] at hreads
    have href : 0 < block.refCnt := by omega
    have hint : int32 (block.refCnt - 1) = block.refCnt - 1 := by
      refine int32_eq ?_ ?_
      · omega
      · omega
    have hself : ((loads.erase key).count key : ℤ) = max (block.refCnt - 1) 0 := by
      rw [count_erase_self, max_eq_left (by omega)]
      omega
    have hself' : (loads.erase key).count key < 2 ^ 31 := by
      omega
    have hothers : ∀ key', key' ≠ key → (loads.erase key).count key' = loads.count key' :=
      fun key' hne => count_erase_of_ne hne
    have hswap := swapped_setRefCnt hget (block.refCnt - 1)
    have hisReady : block.isReady = decide (0 ≤ block.refCnt - 1) := by
      simp only [isReady, decide_eq_decide]
      omega
    -- A block without readers joins the idle list.
    obtain ⟨p, e, hrun, hswap', hok, hevictable⟩ : ∃ p e, completeLoadOne key m = .ok ⟨⟩
          { m with policy := p, numEvictableCacheBlocks := e } ∧
        CachePolicy.Swapped m.policy p key block { block with refCnt := block.refCnt - 1 } ∧ p.Ok ∧
        e = m.numEvictableCacheBlocks + if block.refCnt - 1 = 0 then 1 else 0 := by
      rw [completeLoadOne, bind_get, hget]
      dsimp only
      rw [if_pos href, hint]
      by_cases hlast : block.refCnt - 1 = 0
      · obtain ⟨hok, hcontents⟩ := h.policy.release hget
        rw [← hlast] at hok hcontents
        obtain ⟨rest, hperm, hperm'⟩ := hswap
        rw [if_pos hlast]
        exact ⟨_, _, rfl, ⟨rest, hperm, hcontents ▸ hperm'⟩, hok, by rw [if_pos hlast]⟩
      · rw [if_neg hlast]
        exact ⟨_, _, rfl, hswap, h.policy.hold hget (by omega) hlast,
          by rw [if_neg hlast, add_zero]⟩
    refine ⟨_, hrun, ?_, ⟨rfl, rfl, rfl, rfl⟩, lookup_of_swapped hswap' h.policy hok hisReady⟩
    refine h.swap hswap' hok ?_ ?_ (by omega) hself hself' hothers
    · rw [if_neg (by omega), hevictable, add_zero]
    · rw [if_neg (by omega), if_neg (by omega)]

/-- The completion of loads that are in flight. -/
lemma completeLoad_spec (keys : List Key) (hsub : keys.Subperm loads) :
    ∃ m', completeLoad keys m = .ok ⟨⟩ m' ∧ PoolInv m' (loads.diff keys) ∧ Quiet m m' ∧
      ∀ key', m'.lookup key' = m.lookup key' := by
  induction keys generalizing m loads with
  | nil => exact ⟨m, rfl, h, .refl m, fun _ => rfl⟩
  | cons key keys ih =>
    have hmem : key ∈ loads := hsub.subset mem_cons_self
    obtain ⟨m₁, hone, hinv, hquiet, hlookup⟩ := completeLoadOne_spec h hmem
    have hsub' : keys.Subperm (loads.erase key) := by
      have herase := hsub.erase key
      rwa [erase_cons_head] at herase
    obtain ⟨m₂, hrest, hinv', hquiet', hlookup'⟩ := ih hinv hsub'
    exact ⟨m₂, forM_cons_ok hone hrest, diff_cons loads keys key ▸ hinv',
      hquiet.trans hquiet', fun key' => (hlookup' key').trans (hlookup key')⟩

end

end Loads

/-! ## Stores -/

section Stores

variable {m : CPUOffloadingManager Key} {loads : List Key}

/-- Counting an offer raises only when nothing may be counted. -/
lemma recordAccess_spec (maxTrackerSize : ℤ) (counts : Dict Key ℕ) (key : Key) :
    (∃ counts', recordAccess maxTrackerSize counts key = .ok counts') ∨
      recordAccess maxTrackerSize counts key = .error .keyError ∧ maxTrackerSize ≤ 0 := by
  unfold recordAccess
  cases counts.get? key with
  | some n => exact .inl ⟨_, rfl⟩
  | none =>
    dsimp only
    split
    · rename_i hfull
      split
      · rename_i hempty
        rw [hempty] at hfull
        exact .inr ⟨rfl, hfull⟩
      · exact .inl ⟨_, rfl⟩
    · exact .inl ⟨_, rfl⟩

lemma recordAccesses_spec (maxTrackerSize : ℤ) (counts : Dict Key ℕ) (keys : List Key) :
    (∃ counts', keys.foldlM (recordAccess maxTrackerSize) counts = .ok counts') ∨
      keys.foldlM (recordAccess maxTrackerSize) counts = .error .keyError ∧ maxTrackerSize ≤ 0 := by
  induction keys generalizing counts with
  | nil => exact .inl ⟨counts, rfl⟩
  | cons key keys ih =>
    rw [foldlM_cons]
    rcases recordAccess_spec maxTrackerSize counts key with ⟨counts', heq⟩ | ⟨heq, hsize⟩
    · rw [heq]
      exact ih counts'
    · rw [heq]
      exact .inr ⟨rfl, hsize⟩

/-- The store filter keeps some of the keys. -/
lemma admitted_spec (m : CPUOffloadingManager Key) (keys : List Key) :
    (∃ keys' counts, admitted keys m = .ok keys' { m with counts := counts } ∧
        keys'.Sublist keys ∧ (counts ≠ none → m.counts ≠ none)) ∨
      m.counts ≠ none ∧ m.maxTrackerSize ≤ 0 ∧ ∃ m', admitted keys m = .error .keyError m' := by
  rw [admitted, bind_get]
  cases hcounts : m.counts with
  | none =>
    exact .inl ⟨keys, m.counts, rfl, .refl _, fun hne => absurd hcounts hne⟩
  | some counts =>
    dsimp only
    rcases recordAccesses_spec m.maxTrackerSize counts keys with ⟨counts', heq⟩ | ⟨heq, hsize⟩
    · rw [heq]
      exact .inl ⟨_, some counts', rfl, filter_sublist, fun _ => Option.some_ne_none _⟩
    · rw [heq]
      exact .inr ⟨Option.some_ne_none _, hsize, m, rfl⟩

omit [DecidableEq Key] in
lemma foldl_freeBlock (m : CPUOffloadingManager Key) (evicted : List (Key × BlockStatus)) :
    evicted.foldl (fun m e => m.freeBlock e.2) m =
      { m with freeList := m.freeList ++ evicted.map fun e => e.2.blockId } := by
  induction evicted generalizing m with
  | nil => simp
  | cons e evicted ih =>
    rw [foldl_cons, ih]
    simp [freeBlock]

omit [DecidableEq Key] in
/-- Counting blocks in front of which blocks with one `ref_cnt` stand. -/
lemma countP_entries {entries : List (Key × BlockStatus)} {refCnt : ℤ} (r : ℤ)
    (h : ∀ e ∈ entries, e.2.refCnt = refCnt) (rest : List (Key × BlockStatus)) :
    (entries ++ rest).countP (fun e => e.2.refCnt = r) =
      (if refCnt = r then entries.length else 0) + rest.countP fun e => e.2.refCnt = r := by
  rw [countP_append]
  congr 1
  split
  · rename_i heq
    exact countP_eq_length.2 fun e he => decide_eq_true ((h e he).trans heq)
  · rename_i hne
    exact countP_eq_zero.2 fun e he => by simpa [h e he] using hne

/-- The books after blocks without readers are taken out and their slots freed. -/
lemma PoolInv.takenOut (h : PoolInv m loads) {p' : CachePolicy Key} {e w : ℤ}
    (taken : List (Key × BlockStatus)) (refCnt : ℤ) (hok : p'.Ok)
    (hperm : m.policy.contents.Perm (taken ++ p'.contents)) (hlow : refCnt ≤ 0)
    (htaken : ∀ e ∈ taken, e.2.refCnt = refCnt)
    (hevictable : m.numEvictableCacheBlocks = e + if refCnt = 0 then taken.length else 0)
    (hpending : m.numWritePendingBlocks = w + if refCnt = -1 then taken.length else 0) :
    PoolInv { m with
        policy := p'
        numEvictableCacheBlocks := e
        numWritePendingBlocks := w
        freeList := m.freeList ++ taken.map fun e => e.2.blockId } loads ∧
      ∀ key, p'.get key = if key ∈ taken.map Prod.fst then none else m.policy.get key := by
  have hget : ∀ key, p'.get key = if key ∈ taken.map Prod.fst then none else m.policy.get key := by
    intro key
    have hnodup := (hperm.map Prod.fst).nodup_iff.1 h.policy.nodup_keys
    rw [map_append, nodup_append] at hnodup
    split
    · rename_i hmem
      cases hget : p'.get key with
      | none => rfl
      | some block =>
        have hmem' := mem_map_of_mem (f := Prod.fst) (hok.get_eq_some.1 hget)
        exact absurd rfl (hnodup.2.2 key hmem key hmem')
    · rename_i hnot
      refine Option.ext fun block => ?_
      rw [hok.get_eq_some, h.policy.get_eq_some, hperm.mem_iff, mem_append]
      refine ⟨.inr, ?_⟩
      rintro (hmem | hmem)
      · exact absurd (mem_map_of_mem hmem) hnot
      · exact hmem
  have hcount := fun r => (hperm.countP_eq _).trans (countP_entries r htaken p'.contents)
  refine ⟨⟨hok, ?_, h.allocated, ?_, ?_, ?_, ?_, h.bounded, h.tracker⟩, hget⟩
  · have hids := hperm.map fun e => e.2.blockId
    rw [map_append] at hids
    refine List.Perm.trans ?_ ((hids.symm.append_right _).trans h.ids)
    rw [← append_assoc, append_assoc (taken.map _)]
    exact perm_append_comm
  · have := h.evictable.trans (congrArg _ (hcount 0))
    show e = (p'.contents.countP _ : ℕ)
    omega
  · have := h.pending.trans (congrArg _ (hcount (-1)))
    show w = (p'.contents.countP _ : ℕ)
    omega
  · intro e he
    exact h.refs e (hperm.mem_iff.2 (mem_append_right _ he))
  · intro key
    rw [hget]
    split
    · rename_i hmem
      obtain ⟨e, he, rfl⟩ := mem_map.1 hmem
      have hgot : m.policy.get e.1 = some e.2 :=
        h.policy.get_eq_some.2 (hperm.mem_iff.2 (mem_append_left _ he))
      rw [h.reads, hgot]
      show max e.2.refCnt 0 = 0
      rw [htaken e he]
      exact max_eq_right hlow
    · exact h.reads key

/-- Room is made by evicting idle blocks, or there is no room. -/
lemma makeRoom_spec (h : PoolInv m loads) (n : ℕ) (protectedKeys : List Key) :
    makeRoom n protectedKeys m = .ok none m ∨
      ∃ (evicted : List (Key × BlockStatus)) (m' : CPUOffloadingManager Key),
        makeRoom n protectedKeys m = .ok (some (evicted.map Prod.fst)) m' ∧
        PoolInv m' loads ∧ Quiet m m' ∧ n ≤ m'.getNumFreeBlocks ∧
        (∀ e ∈ evicted, m.policy.get e.1 = some e.2 ∧ e.2.refCnt = 0) ∧
        ∀ key, m'.policy.get key =
          if key ∈ evicted.map Prod.fst then none else m.policy.get key := by
  rw [makeRoom, bind_get]
  by_cases hroom : 0 < n - m.getNumFreeBlocks
  · rw [if_pos hroom]
    by_cases hfew : m.numEvictableCacheBlocks < n - m.getNumFreeBlocks
    · rw [if_pos hfew]
      exact .inl rfl
    · rw [if_neg hfew]
      rcases h.policy.evict (n - m.getNumFreeBlocks).toNat protectedKeys with
        heq | ⟨evicted, p', heq, hok, hlen, hperm, hall⟩
      · rw [heq]
        exact .inl rfl
      · have hlen' : (evicted.length : ℤ) = n - m.getNumFreeBlocks := by omega
        have hnonneg : ¬ m.numEvictableCacheBlocks - evicted.length < 0 := by omega
        obtain ⟨hinv, hget⟩ := h.takenOut (e := m.numEvictableCacheBlocks - evicted.length)
          (w := m.numWritePendingBlocks) evicted 0 hok hperm le_rfl (fun e he => (hall e he).1)
          (by simp) (by simp)
        refine .inr ⟨evicted, _, ?_, hinv, ⟨rfl, rfl, rfl, rfl⟩, ?_, ?_, hget⟩
        · rw [heq]
          dsimp only [liftExcept]
          rw [bind_ok (pure_apply _ m)]
          dsimp only
          rw [bind_ok (set_apply m _), if_neg hnonneg, bind_modify, foldl_freeBlock]
          rfl
        · dsimp only [getNumFreeBlocks] at hlen' ⊢
          rw [length_append, length_map]
          omega
        · intro e he
          exact ⟨h.policy.get_eq_some.2 (hperm.mem_iff.2 (mem_append_left _ he)), (hall e he).1⟩
  · rw [if_neg hroom]
    refine .inr ⟨[], m, rfl, h, .refl m, by omega, nofun, ?_⟩
    intro key
    rw [map_nil, if_neg not_mem_nil]

omit [DecidableEq Key] in
/-- Slots are handed out while there are free ones. -/
lemma allocateBlocks_spec {n : ℕ} (hids : (m.usedIds ++ m.freeList).Perm
      (List.range m.numAllocatedBlocks)) (hallocated : m.numAllocatedBlocks ≤ m.numBlocks)
    (hroom : n ≤ m.getNumFreeBlocks) :
    ∃ ids freeList numAllocatedBlocks, allocateBlocks n m = .ok (ids.map new)
        { m with numAllocatedBlocks := numAllocatedBlocks, freeList := freeList } ∧
      ids.length = n ∧ numAllocatedBlocks ≤ m.numBlocks ∧
      (ids ++ m.usedIds ++ freeList).Perm (List.range numAllocatedBlocks) := by
  obtain ⟨numFresh, hfresh⟩ : ∃ k : ℕ, min (n : ℤ) (m.numBlocks - m.numAllocatedBlocks) = k :=
    ⟨min n (m.numBlocks - m.numAllocatedBlocks), by omega⟩
  obtain ⟨numReused, hreused⟩ : ∃ k : ℕ, (n : ℤ) - numFresh = k := ⟨n - numFresh, by omega⟩
  have henough : (numReused : ℤ) ≤ m.freeList.length := by
    unfold getNumFreeBlocks at hroom
    omega
  refine ⟨(List.range numFresh).map (m.numAllocatedBlocks + ·) ++
      m.freeList.reverse.take numReused, m.freeList.take (m.freeList.length - numReused),
    m.numAllocatedBlocks + numFresh, ?_, ?_, by omega, ?_⟩
  · rw [allocateBlocks, bind_get]
    rw [hfresh, hreused, if_pos henough]
    rfl
  · rw [length_append, length_map, length_range, length_take, length_reverse]
    omega
  · have hfree : (m.freeList.reverse.take numReused ++
        m.freeList.take (m.freeList.length - numReused)).Perm m.freeList := by
      rw [take_reverse]
      refine (reverse_perm _ |>.append_right _).trans ?_
      refine perm_append_comm.trans ?_
      rw [take_append_drop]
    rw [range_add, append_assoc, append_assoc]
    refine perm_append_comm.trans (List.Perm.append_right _ ?_)
    refine List.Perm.trans ?_ hids
    rw [← append_assoc]
    refine (perm_append_comm.append_right _).trans ?_
    rw [append_assoc]
    exact hfree.append_left _

/-- New blocks join the others one by one. -/
lemma insertAll_spec {p : CachePolicy Key} (h : p.Ok) (entries : List (Key × BlockStatus))
    (hnodup : (entries.map Prod.fst).Nodup)
    (hentries : ∀ e ∈ entries, p.get e.1 = none ∧ e.2.refCnt = -1) :
    (entries.foldl (fun p e => p.insert e.1 e.2) p).Ok ∧
      (entries.foldl (fun p e => p.insert e.1 e.2) p).contents.Perm (entries ++ p.contents) := by
  induction entries generalizing p with
  | nil => exact ⟨h, .refl _⟩
  | cons e entries ih =>
    obtain ⟨hnotin, hrest⟩ := nodup_cons.1 hnodup
    obtain ⟨hnone, href⟩ := hentries e mem_cons_self
    obtain ⟨hok, hperm⟩ := h.insert hnone (show e.2.refCnt ≠ 0 by omega)
    obtain ⟨hok', hperm'⟩ := ih hok hrest fun e' he' => by
      obtain ⟨hnone', href'⟩ := hentries e' (mem_cons_of_mem _ he')
      refine ⟨?_, href'⟩
      have hne : e.1 ≠ e'.1 := fun heq => hnotin (mem_map.2 ⟨e', he', heq.symm⟩)
      rw [hok.get_of_perm hperm, Dict.lookupIn, if_neg hne, ← h.get_of_perm (.refl _)]
      exact hnone'
    refine ⟨hok', hperm'.trans ?_⟩
    exact (hperm.append_left _).trans perm_middle

/-- The books after new blocks are inserted in slots that were handed out for them. -/
lemma PoolInv.inserted (h : PoolInv m loads) {ids freeList : List ℕ} {numAllocatedBlocks : ℕ}
    (hlen : ids.length = keys.length) (hnodup : keys.Nodup)
    (hnone : ∀ key ∈ keys, m.policy.get key = none)
    (hids : (ids ++ m.usedIds ++ freeList).Perm (List.range numAllocatedBlocks))
    (hallocated : numAllocatedBlocks ≤ m.numBlocks)
    (hm' : m' = { m with
      numAllocatedBlocks := numAllocatedBlocks
      freeList := freeList
      policy := (keys.zip (ids.map new)).foldl (fun p e => p.insert e.1 e.2) m.policy
      numWritePendingBlocks := m.numWritePendingBlocks + keys.length }) :
    PoolInv m' loads ∧ ∀ key, m'.lookup key = .hit ↔ m.lookup key = .hit := by
  have hfst : (keys.zip (ids.map new)).map Prod.fst = keys :=
    map_fst_zip (by rw [length_map]; omega)
  have hsnd : (keys.zip (ids.map new)).map Prod.snd = ids.map new :=
    map_snd_zip (by rw [length_map]; omega)
  have hnew : ∀ e ∈ keys.zip (ids.map new), m.policy.get e.1 = none ∧ e.2.refCnt = -1 := by
    intro e he
    have hkey : e.1 ∈ keys := hfst ▸ mem_map_of_mem he
    have hblock : e.2 ∈ ids.map new := hsnd ▸ mem_map_of_mem he
    obtain ⟨id, -, heq⟩ := mem_map.1 hblock
    refine ⟨hnone _ hkey, ?_⟩
    rw [← heq]
    rfl
  obtain ⟨hok, hperm⟩ := insertAll_spec h.policy (keys.zip (ids.map new)) (hfst.symm ▸ hnodup) hnew
  have hlength : (keys.zip (ids.map new)).length = keys.length := by
    rw [← length_map Prod.fst, hfst]
  set p' := (keys.zip (ids.map new)).foldl (fun p e => p.insert e.1 e.2) m.policy
  subst hm'
  have hcount := fun r => (hperm.countP_eq _).trans
    (countP_entries r (fun e he => (hnew e he).2) m.policy.contents)
  rw [hlength] at hcount
  have hget : ∀ key block, p'.get key = some block ↔
      (key, block) ∈ keys.zip (ids.map new) ∨ m.policy.get key = some block := by
    intro key block
    rw [hok.get_eq_some, hperm.mem_iff, mem_append, h.policy.get_eq_some]
  refine ⟨⟨hok, ?_, hallocated, ?_, ?_, ?_, ?_, h.bounded, h.tracker⟩, ?_⟩
  · refine List.Perm.trans (List.Perm.append_right _ ?_) hids
    have hmap := hperm.map fun e => e.2.blockId
    rw [map_append] at hmap
    have hnewIds : (keys.zip (ids.map new)).map (fun e => e.2.blockId) = ids := by
      have := congrArg (List.map blockId) hsnd
      rw [map_map, map_map] at this
      refine this.trans ?_
      exact map_id ids
    rw [hnewIds] at hmap
    exact hmap
  · have hzero := hcount 0
    rw [if_neg (by omega), Nat.zero_add] at hzero
    exact h.evictable.trans (congrArg _ hzero.symm)
  · have hone := hcount (-1)
    rw [if_pos rfl] at hone
    have hold : m.numWritePendingBlocks = (m.policy.contents.countP _ : ℕ) := h.pending
    show m.numWritePendingBlocks + (keys.length : ℤ) = (p'.contents.countP _ : ℕ)
    omega
  · intro e he
    rcases mem_append.1 (hperm.mem_iff.1 he) with he | he
    · rw [(hnew e he).2]
    · exact h.refs e he
  · intro key
    rw [h.reads key]
    cases hold : m.policy.get key with
    | some block => rw [(hget key block).2 (.inr hold)]
    | none =>
      cases hnow : p'.get key with
      | none => rfl
      | some block =>
        rcases (hget key block).1 hnow with hmem | hmem
        · show 0 = max block.refCnt 0
          rw [(hnew _ hmem).2]
          rfl
        · rw [hold] at hmem
          cases hmem
  · intro key
    rw [lookup_eq_hit, lookup_eq_hit]
    constructor
    · rintro ⟨block, hblock, hready⟩
      rcases (hget key block).1 hblock with hmem | hmem
      · rw [(hnew _ hmem).2] at hready
        omega
      · exact ⟨block, hmem, hready⟩
    · rintro ⟨block, hblock, hready⟩
      exact ⟨block, (hget key block).2 (.inr hblock), hready⟩

/-- Telling something does not change the books. -/
lemma PoolInv.emit (h : PoolInv m loads) (keys : List Key) (removed : Bool) :
    PoolInv (m.emit keys removed) loads := by
  rw [emit_eq]
  exact { h with }

/-- The keys that can be read after some were evicted. -/
lemma told_evicted {evicted : List Key} (hquiet : Quiet m m')
    (hlookup : ∀ key, m'.lookup key = .hit ↔ m.lookup key = .hit ∧ key ∉ evicted) :
    Told m (m'.emit evicted true) (telling evicted true) := by
  rw [emit_eq]
  refine { hquiet with events := by rw [hquiet.events], ready := fun keys hkeys key => ?_ }
  show _ ↔ m'.lookup key = .hit
  rw [hlookup, ← hkeys]
  cases evicted with
  | nil | cons _ _ => simp [replayFrom, telling]

section

variable (h : PoolInv m loads)

include h

/-- A store is prepared, or nothing may be counted. -/
lemma prepareStore_spec (hnodup : keys.Nodup) :
    (∃ out m' new, prepareStore keys m = .ok out m' ∧ PoolInv m' loads ∧ Told m m' new ∧
        ∀ o ∈ out, ∀ key ∈ o.evictedKeys,
          ∃ block, m.policy.get key = some block ∧ block.refCnt = 0) ∨
      2 ≤ m.storeThreshold ∧ m.maxTrackerSize ≤ 0 ∧
        ∃ m', prepareStore keys m = .error .keyError m' := by
  rcases admitted_spec m keys with ⟨keys', counts, hadmitted, hsub, hcounts⟩ |
    ⟨hcounts, hsize, m', hadmitted⟩
  · refine .inl ?_
    set m₁ : CPUOffloadingManager Key := { m with counts := counts }
    have h1 : PoolInv m₁ loads := { h with tracker := fun hne => h.tracker (hcounts hne) }
    have hlookup : ∀ key, m₁.lookup key = m.lookup key := fun _ => rfl
    have hquiet : Quiet m m₁ := ⟨rfl, rfl, rfl, rfl⟩
    rw [prepareStore, bind_ok hadmitted, bind_get]
    set keysToStore := keys'.filter fun key => (m₁.policy.get key).isNone with hstore
    split
    · refine ⟨_, m₁, [], rfl, h1, hquiet.told fun key => by rw [hlookup], ?_⟩
      intro o ho key hkey
      cases ho
      cases hkey
    · have hstoreNodup : keysToStore.Nodup := by
        rw [hstore]
        exact (hnodup.sublist hsub).filter _
      have hstoreNone : ∀ key ∈ keysToStore, m₁.policy.get key = none := by
        intro key hkey
        rw [hstore] at hkey
        exact Option.isNone_iff_eq_none.1 (mem_filter.1 hkey).2
      rcases makeRoom_spec h1 keysToStore.length keys' with hroom |
        ⟨evicted, m₂, hroom, h2, hquiet2, hfree, hevicted, hget⟩
      · rw [bind_ok hroom]
        refine ⟨none, m₁, [], rfl, h1, hquiet.told fun key => by rw [hlookup], ?_⟩
        exact nofun
      · rw [bind_ok hroom]
        dsimp only
        rw [bind_modify]
        have hlookup2 : ∀ key, m₂.lookup key = .hit ↔
            m.lookup key = .hit ∧ key ∉ evicted.map Prod.fst := by
          intro key
          rw [← hlookup, lookup_eq_hit, hget key]
          split
          · rename_i hmem
            simp [hmem]
          · rename_i hnot
            rw [lookup_eq_hit]
            simp [hnot]
        have htold := told_evicted (hquiet.trans hquiet2) hlookup2
        have h3 := h2.emit (evicted.map Prod.fst) true
        have hfree3 : keysToStore.length ≤
            (m₂.emit (evicted.map Prod.fst) true).getNumFreeBlocks := by
          rw [emit_eq]
          exact hfree
        have hnone3 : ∀ key ∈ keysToStore,
            (m₂.emit (evicted.map Prod.fst) true).policy.get key = none := by
          intro key hkey
          rw [emit_eq]
          rw [hget key, hstoreNone key hkey, ite_self]
        set m3 := m₂.emit (evicted.map Prod.fst) true
        obtain ⟨ids, freeList, numAllocatedBlocks, hallocate, hlen, hle, hids⟩ :=
          allocateBlocks_spec h3.ids h3.allocated hfree3
        obtain ⟨hinv, hready⟩ := h3.inserted hlen hstoreNodup hnone3 hids hle rfl
        have hlen' : (ids.map new).length = keysToStore.length := by
          rw [length_map, hlen]
        rw [bind_ok hallocate, if_pos hlen', bind_modify]
        refine ⟨_, _, _, rfl, hinv, { htold with ready := ?_ }, ?_⟩
        · intro keys0 hkeys0 key
          rw [htold.ready keys0 hkeys0 key]
          exact (hready key).symm
        · intro o ho key hkey
          cases ho
          obtain ⟨e, he, rfl⟩ := mem_map.1 hkey
          exact ⟨e.2, hevicted e he⟩
  · refine .inr ⟨h.tracker hcounts, hsize, m', ?_⟩
    rw [prepareStore, bind_error hadmitted]

lemma storeSucceeded_spec (key : Key) :
    ∃ stored m', storeSucceeded key m = .ok stored m' ∧ PoolInv m' loads ∧ Quiet m m' ∧
      ∀ key', m'.lookup key' = .hit ↔ m.lookup key' = .hit ∨ stored = true ∧ key' = key := by
  rw [storeSucceeded, bind_get]
  cases hget : m.policy.get key with
  | none => exact ⟨false, m, rfl, h, .refl m, fun _ => by simp⟩
  | some block =>
    dsimp only
    by_cases hready : block.isReady = true
    · rw [if_pos hready]
      exact ⟨false, m, rfl, h, .refl m, fun _ => by simp⟩
    · rw [if_neg hready]
      have href := h.pending_of_not_ready hget hready
      obtain ⟨hok, hcontents⟩ := h.policy.release hget
      have hswap : CachePolicy.Swapped m.policy ((m.policy.setRefCnt key 0).markEvictable key) key
          block { block with refCnt := 0 } := by
        obtain ⟨rest, hperm, hperm'⟩ := swapped_setRefCnt hget 0
        exact ⟨rest, hperm, hcontents ▸ hperm'⟩
      have hreads := h.reads key
      rw [hget, readers, href] at hreads
      refine ⟨true, _, rfl, ?_, ⟨rfl, rfl, rfl, rfl⟩, ?_⟩
      · exact h.swap hswap hok (by omega) (by omega) (by omega) hreads (h.bounded key)
          fun _ _ => rfl
      · intro key'
        rw [lookup_eq_hit, lookup_eq_hit]
        rw [hswap.get h.policy hok]
        by_cases heq : key = key'
        · simp [heq]
        · rw [if_neg heq]
          simp [Ne.symm heq]

lemma storesSucceeded_spec (keys : List Key) :
    ∃ stored m', storesSucceeded keys m = .ok stored m' ∧ PoolInv m' loads ∧ Quiet m m' ∧
      ∀ key, m'.lookup key = .hit ↔ m.lookup key = .hit ∨ key ∈ stored := by
  induction keys generalizing m with
  | nil => exact ⟨[], m, rfl, h, .refl m, fun _ => by simp⟩
  | cons key keys ih =>
    obtain ⟨stored, m₁, hone, h1, hquiet1, hready1⟩ := storeSucceeded_spec h key
    obtain ⟨more, m₂, hrest, h2, hquiet2, hready2⟩ := ih h1
    refine ⟨if stored then key :: more else more, m₂, ?_, h2, hquiet1.trans hquiet2, ?_⟩
    · rw [storesSucceeded, bind_ok hone, bind_ok hrest]
      rfl
    · intro key'
      rw [hready2, hready1]
      cases stored with
      | true => simp [or_assoc]
      | false => simp

lemma storeFailed_spec (key : Key) :
    ∃ m', storeFailed key m = .ok ⟨⟩ m' ∧ PoolInv m' loads ∧ Quiet m m' ∧
      ∀ key', m'.lookup key' = .hit ↔ m.lookup key' = .hit := by
  rw [storeFailed, bind_get]
  cases hget : m.policy.get key with
  | none => exact ⟨m, rfl, h, .refl m, fun _ => Iff.rfl⟩
  | some block =>
    dsimp only
    by_cases hready : block.isReady = true
    · rw [if_pos hready]
      exact ⟨m, rfl, h, .refl m, fun _ => Iff.rfl⟩
    · rw [if_neg hready]
      have href := h.pending_of_not_ready hget hready
      obtain ⟨p', hremove, hok, hperm⟩ := h.policy.remove hget
      rw [bind_modify, hremove]
      obtain ⟨hinv, hget'⟩ := h.takenOut (e := m.numEvictableCacheBlocks)
        (w := m.numWritePendingBlocks - 1) [(key, block)] (-1) hok hperm (by decide)
        (by simp [href]) (by simp) (by simp)
      refine ⟨_, rfl, hinv, ⟨rfl, rfl, rfl, rfl⟩, fun key' => ?_⟩
      rw [lookup_eq_hit, lookup_eq_hit]
      show (∃ b, p'.get key' = some b ∧ 0 ≤ b.refCnt) ↔ _
      rw [hget' key']
      by_cases heq : key' = key
      · simp [heq, hget, href]
      · simp [heq]

lemma storesFailed_spec (keys : List Key) :
    ∃ m', keys.forM storeFailed m = .ok ⟨⟩ m' ∧ PoolInv m' loads ∧ Quiet m m' ∧
      ∀ key', m'.lookup key' = .hit ↔ m.lookup key' = .hit := by
  induction keys generalizing m with
  | nil => exact ⟨m, rfl, h, .refl m, fun _ => Iff.rfl⟩
  | cons key keys ih =>
    obtain ⟨m₁, hone, h1, hquiet1, hready1⟩ := storeFailed_spec h key
    obtain ⟨m₂, hrest, h2, hquiet2, hready2⟩ := ih h1
    exact ⟨m₂, forM_cons_ok hone hrest, h2, hquiet1.trans hquiet2, fun key' =>
      (hready2 key').trans (hready1 key')⟩

lemma completeStore_spec (keys : List Key) (success : Bool) :
    ∃ m' new, completeStore keys success m = .ok ⟨⟩ m' ∧ PoolInv m' loads ∧ Told m m' new := by
  unfold completeStore
  cases success with
  | true =>
    obtain ⟨stored, m₁, hstored, h1, hquiet, hready⟩ := storesSucceeded_spec h keys
    rw [if_pos rfl, bind_ok hstored, modify_apply]
    refine ⟨_, telling stored false, rfl, h1.emit stored false, ?_⟩
    rw [emit_eq]
    refine { hquiet with events := by rw [hquiet.events], ready := fun keys0 hkeys0 key => ?_ }
    show _ ↔ m₁.lookup key = .hit
    rw [hready, ← hkeys0]
    cases stored with
    | nil | cons _ _ => simp [replayFrom, telling]
  | false =>
    obtain ⟨m₁, hfailed, h1, hquiet, hready⟩ := storesFailed_spec h keys
    exact ⟨m₁, [], hfailed, h1, hquiet.told hready⟩

end

end Stores

/-! ## A new pool, `touch` and `reset_cache` -/

variable {m : CPUOffloadingManager Key} {loads : List Key}

/-- A pool without blocks that hands out none. -/
lemma poolInv_of_contents_eq_nil (hok : m.policy.Ok) (hcontents : m.policy.contents = [])
    (hfree : m.freeList = []) (hallocated : m.numAllocatedBlocks = 0)
    (hevictable : m.numEvictableCacheBlocks = 0) (hpending : m.numWritePendingBlocks = 0)
    (htracker : m.counts ≠ none → 2 ≤ m.storeThreshold) :
    PoolInv m [] ∧ ∀ key, m.lookup key = .miss := by
  have hget : ∀ key, m.policy.get key = none := by
    intro key
    rw [hok.get_of_perm (.refl _), hcontents]
    rfl
  refine ⟨⟨hok, ?_, ?_, ?_, ?_, ?_, ?_, ?_, htracker⟩, ?_⟩
  · rw [usedIds, hcontents, hfree, hallocated]
    exact .refl _
  · rw [hallocated]
    exact Nat.zero_le _
  · rw [numWith, hcontents, hevictable]
    rfl
  · rw [numWith, hcontents, hpending]
    rfl
  · rw [hcontents]
    exact nofun
  · intro key
    rw [hget]
    rfl
  · intro key
    norm_num
  · intro key
    rw [lookup, hget]

lemma poolInv_init (numBlocks : ℕ) (cachePolicy : CachePolicyName) (enableEvents : Bool)
    (storeThreshold maxTrackerSize : ℤ) (round : ℚ → ℚ) :
    PoolInv (init numBlocks cachePolicy enableEvents storeThreshold maxTrackerSize round :
        CPUOffloadingManager Key) [] ∧
      ∀ key, (init numBlocks cachePolicy enableEvents storeThreshold maxTrackerSize round :
        CPUOffloadingManager Key).lookup key = .miss := by
  obtain ⟨hok, hcontents⟩ : (ofName cachePolicy numBlocks round : CachePolicy Key).Ok ∧ _ :=
    ok_ofName cachePolicy numBlocks round
  refine poolInv_of_contents_eq_nil hok hcontents rfl rfl rfl rfl ?_
  intro hcounts
  by_contra hlow
  exact hcounts (if_neg hlow)

lemma PoolInv.reset (h : PoolInv m loads) :
    PoolInv m.resetCache [] ∧ ∀ key, m.resetCache.lookup key = .miss := by
  obtain ⟨hok, hcontents⟩ := ok_clear m.policy
  exact poolInv_of_contents_eq_nil hok hcontents rfl rfl rfl rfl h.tracker

/-- `touch` changes the order of the blocks only. -/
lemma PoolInv.touch (h : PoolInv m loads) (keys : List Key) :
    PoolInv (m.touch keys) loads ∧ ∀ key, (m.touch keys).lookup key = m.lookup key := by
  obtain ⟨hok, hperm⟩ := h.policy.touch keys
  have hget : ∀ key, (m.policy.touch keys).get key = m.policy.get key := by
    intro key
    rw [hok.get_of_perm hperm, h.policy.get_of_perm (.refl _)]
  refine ⟨⟨hok, ?_, h.allocated, ?_, ?_, ?_, ?_, h.bounded, h.tracker⟩, ?_⟩
  · exact ((hperm.map _).append_right _).trans h.ids
  · exact h.evictable.trans (congrArg _ (hperm.countP_eq _).symm)
  · exact h.pending.trans (congrArg _ (hperm.countP_eq _).symm)
  · exact fun e he => h.refs e (hperm.mem_iff.1 he)
  · intro key
    show _ = readers ((m.policy.touch keys).get key)
    rw [hget]
    exact h.reads key
  · intro key
    rw [lookup, CPUOffloadingManager.touch, hget, lookup]

end CPUOffloadingManager

end Lvllm
