import Lvllm.Offload.PoolInvariant
import Mathlib.Data.List.Perm.Subperm

/-!
# Runs of the CPU offload pool

A run is a sequence of calls.  Beside the pool it keeps the loads in flight and the events since the
last reset.  The calls have to match: a load is of blocks that were looked up, a completion is of
loads in flight, and one store names a key once.  `offload_pool_books` is what holds in every state
that such calls lead to, with either policy; `mismatched_calls` shows what the conditions are for.
-/

namespace Lvllm

open List

variable {Key : Type} [DecidableEq Key]

/-- The calls of the pool. -/
inductive PoolOp (Key : Type) where
  | lookup (key : Key)
  | prepareLoad (keys : List Key)
  | completeLoad (keys : List Key)
  | prepareStore (keys : List Key)
  | completeStore (keys : List Key) (success : Bool)
  | touch (keys : List Key)
  | resetCache
  | takeEvents
  deriving DecidableEq, Repr

/-- The code of a call. -/
def PoolOp.call : PoolOp Key → OffloadM Key PUnit
  | .lookup _ => pure ⟨⟩
  | .prepareLoad keys => (fun _ => ⟨⟩) <$> CPUOffloadingManager.prepareLoad keys
  | .completeLoad keys => CPUOffloadingManager.completeLoad keys
  | .prepareStore keys => (fun _ => ⟨⟩) <$> CPUOffloadingManager.prepareStore keys
  | .completeStore keys success => CPUOffloadingManager.completeStore keys success
  | .touch keys => modify (·.touch keys)
  | .resetCache => modify CPUOffloadingManager.resetCache
  | .takeEvents => (fun _ => ⟨⟩) <$> CPUOffloadingManager.takeEvents

/-- A pool with the loads in flight and the events since the last reset. -/
structure PoolRun (Key : Type) where
  manager : CPUOffloadingManager Key
  loads : List Key
  emitted : List (OffloadingEvent Key)

namespace PoolRun

open CPUOffloadingManager

/-- A new pool. -/
def new (numBlocks : ℕ) (cachePolicy : CachePolicyName) (enableEvents : Bool)
    (storeThreshold maxTrackerSize : ℤ) (round : ℚ → ℚ) : PoolRun Key where
  manager := .init numBlocks cachePolicy enableEvents storeThreshold maxTrackerSize round
  loads := []
  emitted := []

/-- A run starts with a new pool. -/
def Initial (r : PoolRun Key) : Prop :=
  ∃ numBlocks cachePolicy enableEvents storeThreshold maxTrackerSize round,
    r = new numBlocks cachePolicy enableEvents storeThreshold maxTrackerSize round

/-- The loads in flight behind a call. -/
def loadsAfter (loads : List Key) : PoolOp Key → List Key
  | .prepareLoad keys => loads ++ keys
  | .completeLoad keys => loads.diff keys
  | .resetCache => []
  | _ => loads

/-- The events since the last reset, behind a call that leads to `m`. -/
def emittedAfter (r : PoolRun Key) (m : CPUOffloadingManager Key) :
    PoolOp Key → List (OffloadingEvent Key)
  | .resetCache => []
  | .takeEvents => r.emitted
  | _ => r.emitted ++ (m.events.getD []).drop (r.manager.events.getD []).length

/-- A call that returns. -/
def step (r : PoolRun Key) (op : PoolOp Key) : Option (PoolRun Key) :=
  match op.call r.manager with
  | .ok _ m => some { manager := m, loads := loadsAfter r.loads op, emitted := r.emittedAfter m op }
  | .error _ _ => none

/-- A call that matches the earlier ones: loads are of blocks that can be read, completions are of
loads in flight, a store names a key once, and the readers of a block can be counted. -/
def Matches (r : PoolRun Key) : PoolOp Key → Prop
  | .prepareLoad keys => ∀ key ∈ keys,
      r.manager.lookup key = .hit ∧ (r.loads ++ keys).count key < 2 ^ 31
  | .completeLoad keys => keys.Subperm r.loads
  | .prepareStore keys => keys.Nodup
  | _ => True

instance decidableMatches (r : PoolRun Key) (op : PoolOp Key) : Decidable (r.Matches op) :=
  match op with
  | .prepareLoad keys => inferInstanceAs (Decidable (∀ key ∈ keys,
      r.manager.lookup key = .hit ∧ (r.loads ++ keys).count key < 2 ^ 31))
  | .completeLoad keys => inferInstanceAs (Decidable (keys.Subperm r.loads))
  | .prepareStore keys => inferInstanceAs (Decidable keys.Nodup)
  | .lookup _ | .completeStore _ _ | .touch _ | .resetCache | .takeEvents =>
    inferInstanceAs (Decidable True)

/-- The states that matching calls lead to. -/
def Reachable (r : PoolRun Key) : Prop := Reached Initial step Matches r

/-- What holds of a run: the books, and that the events tell what can be read. -/
structure RunInv (r : PoolRun Key) : Prop where
  books : PoolInv r.manager r.loads
  told : r.manager.events ≠ none →
    ∀ key, key ∈ replayFrom [] r.emitted ↔ r.manager.lookup key = .hit

variable {r : PoolRun Key}

lemma runInv_init (h : Initial r) : RunInv r := by
  obtain ⟨numBlocks, cachePolicy, enableEvents, storeThreshold, maxTrackerSize, round, rfl⟩ := h
  obtain ⟨hbooks, hlookup⟩ : PoolInv (init numBlocks cachePolicy enableEvents storeThreshold
      maxTrackerSize round : CPUOffloadingManager Key) [] ∧ _ := poolInv_init ..
  refine ⟨hbooks, ?_⟩
  intro _ key
  rw [new, hlookup]
  simp [replayFrom]

/-- A call that keeps the books and tells what it does. -/
lemma RunInv.of_told (h : RunInv r) {m : CPUOffloadingManager Key} {loads : List Key}
    {new : List (OffloadingEvent Key)} (hbooks : PoolInv m loads) (htold : Told r.manager m new) :
    RunInv ⟨m, loads, r.emitted ++ (m.events.getD []).drop (r.manager.events.getD []).length⟩ := by
  refine ⟨hbooks, ?_⟩
  intro hevents
  cases hold : r.manager.events with
  | none =>
    rw [htold.events, hold] at hevents
    exact absurd rfl hevents
  | some events =>
    have hnew : (m.events.getD []).drop (Option.getD (some events) []).length = new := by
      rw [htold.events, hold]
      exact drop_left
    intro key
    rw [hnew, replayFrom, foldl_append]
    exact htold.ready _ (h.told (by rw [hold]; exact Option.some_ne_none _)) key

/-- A matching call returns and keeps what holds of the run. -/
lemma RunInv.step (h : RunInv r) {op : PoolOp Key} (hmatch : r.Matches op) :
    (∃ r', r.step op = some r' ∧ RunInv r') ∨
      2 ≤ r.manager.storeThreshold ∧ r.manager.maxTrackerSize ≤ 0 ∧
        ∃ m, op.call r.manager = .error .keyError m := by
  cases op with
  | lookup key =>
    exact .inl ⟨_, rfl, h.of_told h.books ((Quiet.refl _).told fun _ => Iff.rfl)⟩
  | prepareLoad keys =>
    obtain ⟨ids, m, hcall, hbooks, hquiet, hlookup⟩ := prepareLoad_spec h.books keys
      (fun key hmem => (hmatch key hmem).1) (fun key hmem => (hmatch key hmem).2)
    refine .inl ⟨_, ?_, h.of_told hbooks (hquiet.told fun key => by rw [hlookup])⟩
    rw [PoolRun.step, PoolOp.call, map_apply, hcall]
    rfl
  | completeLoad keys =>
    obtain ⟨m, hcall, hbooks, hquiet, hlookup⟩ := completeLoad_spec h.books keys hmatch
    refine .inl ⟨_, ?_, h.of_told hbooks (hquiet.told fun key => by rw [hlookup])⟩
    rw [PoolRun.step, PoolOp.call, hcall]
    rfl
  | prepareStore keys =>
    rcases prepareStore_spec h.books hmatch with ⟨out, m, new, hcall, hbooks, htold, -⟩ |
      ⟨hthreshold, hsize, m, hcall⟩
    · refine .inl ⟨_, ?_, h.of_told hbooks htold⟩
      rw [PoolRun.step, PoolOp.call, map_apply, hcall]
      rfl
    · refine .inr ⟨hthreshold, hsize, m, ?_⟩
      rw [PoolOp.call, map_apply, hcall]
  | completeStore keys success =>
    obtain ⟨m, new, hcall, hbooks, htold⟩ := completeStore_spec h.books keys success
    refine .inl ⟨_, ?_, h.of_told hbooks htold⟩
    rw [PoolRun.step, PoolOp.call, hcall]
    rfl
  | touch keys =>
    obtain ⟨hbooks, hlookup⟩ := h.books.touch keys
    have hquiet : Quiet r.manager (r.manager.touch keys) := ⟨rfl, rfl, rfl, rfl⟩
    exact .inl ⟨_, rfl, h.of_told hbooks (hquiet.told fun key => by rw [hlookup])⟩
  | resetCache =>
    obtain ⟨hbooks, hlookup⟩ := h.books.reset
    refine .inl ⟨_, rfl, hbooks, ?_⟩
    intro _ key
    show key ∈ replayFrom [] [] ↔ r.manager.resetCache.lookup key = .hit
    rw [hlookup]
    simp [replayFrom]
  | takeEvents =>
    refine .inl ⟨_, rfl, { h.books with }, ?_⟩
    intro hevents
    refine h.told fun hnone => hevents ?_
    rw [hnone]
    rfl

lemma Reachable.runInv (h : Reachable r) : RunInv r := by
  refine Reached.invariant (I := RunInv) (fun _ hinit => runInv_init hinit) ?_ h
  intro r op r' hr hmatch hstep
  rcases hr.step hmatch with ⟨r'', hstep', hr''⟩ | ⟨-, -, m, hcall⟩
  · rw [hstep] at hstep'
    cases hstep'
    exact hr''
  · rw [PoolRun.step, hcall] at hstep
    cases hstep

/-- **Loads hold their blocks.**  In every state reached the block of a key has as many readers as
there are loads of it in flight, and with one in flight it can be read. -/
theorem loads_hold_their_blocks {r : PoolRun Key} (h : Reachable r) (key : Key) :
    (r.loads.count key : ℤ) = readers (r.manager.policy.get key) ∧
      (key ∈ r.loads → r.manager.lookup key = .hit) := by
  have hreads := h.runInv.books.reads key
  refine ⟨hreads, fun hmem => ?_⟩
  have hpos := count_pos_iff.2 hmem
  cases hget : r.manager.policy.get key <;> rw [hget, readers] at hreads
  · omega
  · exact lookup_eq_hit.2 ⟨_, hget, by omega⟩

/-- In a pool of one block a key that is read stays under a store. -/
theorem loaded_key_kept :
    ∃ r : PoolRun ℕ, Reachable r ∧ r.loads = [7] ∧ r.manager.lookup 7 = .hit := by
  obtain ⟨r, hr, hloads⟩ : ∃ r, Reachable r ∧ r.loads = [7] :=
    Reached.exists_runAll ⟨1, .lru, true, 1, 64000, id, rfl⟩ [.prepareStore [7],
      .completeStore [7] true, .prepareLoad [7], .prepareStore [9]] _ (by decide +kernel)
  exact ⟨r, hr, hloads, (loads_hold_their_blocks hr 7).2 (by simp [hloads])⟩

/-- **The books of the offload pool.**  In every state that matching calls lead to, with either
policy: the slots of the blocks are different, not free and handed out before; the blocks and the
free slots are as many as were handed out, and these fit the pool; the two counters count the blocks
with `ref_cnt` 0 and -1; a store evicts only blocks with `ref_cnt` 0; a matching call returns, unless
its offers cannot be counted because the tracker has size 0; and the events since the last reset, if
events are enabled, tell exactly which keys can be read. -/
theorem offload_pool_books {r : PoolRun Key} (h : Reachable r) : r.manager.usedIds.Nodup ∧
      (∀ id ∈ r.manager.usedIds, id ∉ r.manager.freeList ∧ id < r.manager.numAllocatedBlocks) ∧
      r.manager.policy.contents.length + r.manager.freeList.length = r.manager.numAllocatedBlocks ∧
      r.manager.numAllocatedBlocks ≤ r.manager.numBlocks ∧
      r.manager.numEvictableCacheBlocks = r.manager.numWith 0 ∧
      r.manager.numWritePendingBlocks = r.manager.numWith (-1) ∧
      (∀ keys out m, r.Matches (.prepareStore keys) →
        prepareStore keys r.manager = .ok (some out) m → ∀ key ∈ out.evictedKeys,
          ∃ block, r.manager.policy.get key = some block ∧ block.refCnt = 0) ∧
      (∀ op, r.Matches op → (∃ r', r.step op = some r') ∨
        2 ≤ r.manager.storeThreshold ∧ r.manager.maxTrackerSize ≤ 0 ∧
          ∃ m, op.call r.manager = .error .keyError m) ∧
      (r.manager.events ≠ none →
        ∀ key, key ∈ replayFrom [] r.emitted ↔ r.manager.lookup key = .hit) := by
  have hinv := h.runInv
  have hbooks := hinv.books
  have hnodup := hbooks.ids.nodup_iff.2 nodup_range
  rw [nodup_append] at hnodup
  refine ⟨hnodup.1, ?_, ?_, hbooks.allocated, hbooks.evictable, hbooks.pending, ?_, ?_, hinv.told⟩
  · intro id hid
    refine ⟨fun hfree => hnodup.2.2 id hid id hfree rfl, ?_⟩
    exact mem_range.1 (hbooks.ids.mem_iff.1 (mem_append_left _ hid))
  · have hlen := hbooks.ids.length_eq
    rw [length_append, length_range, usedIds, length_map] at hlen
    exact hlen
  · intro keys out m hmatch hcall key hkey
    rcases prepareStore_spec hbooks hmatch with ⟨out', m', new, hcall', -, -, hevicted⟩ |
      ⟨-, -, m', hcall'⟩
    · rw [hcall] at hcall'
      cases hcall'
      exact hevicted out rfl key hkey
    · rw [hcall] at hcall'
      cases hcall'
  · intro op hmatch
    rcases hinv.step hmatch with ⟨r', hstep, -⟩ | hraise
    · exact .inl ⟨r', hstep⟩
    · exact .inr hraise

/-- Two keys are stored, one of them is read, and a third takes the place of the other. -/
theorem offload_pool_books_after_eviction :
    ∃ r : PoolRun ℕ, Reachable r ∧ r.manager.policy.contents =
        [(7, { refCnt := 1, blockId := 0 }), (9, { refCnt := -1, blockId := 1 })] ∧
      r.emitted = [{ keys := [7, 8], removed := false }, { keys := [8], removed := true }] ∧
      r.manager.numWritePendingBlocks = r.manager.numWith (-1) ∧
      (r.manager.events ≠ none →
        ∀ key, key ∈ replayFrom [] r.emitted ↔ r.manager.lookup key = .hit) := by
  obtain ⟨r, hreach, hcontents, hemitted⟩ : ∃ r : PoolRun ℕ, Reachable r ∧
      r.manager.policy.contents =
        [(7, { refCnt := 1, blockId := 0 }), (9, { refCnt := -1, blockId := 1 })] ∧
      r.emitted = [{ keys := [7, 8], removed := false }, { keys := [8], removed := true }] :=
    Reached.exists_runAll ⟨2, .lru, true, 1, 64000, id, rfl⟩ [.prepareStore [7, 8],
      .completeStore [7, 8] true, .prepareLoad [7], .prepareStore [9]] _ (by decide +kernel)
  obtain ⟨-, -, -, -, -, hpending, -, -, htold⟩ := offload_pool_books hreach
  exact ⟨r, hreach, hcontents, hemitted, hpending, htold⟩

/-- Calls that do not match: a load of a block that is not there fails an assertion, and a store that
names a key twice loses a slot and counts two pending blocks for one. -/
theorem mismatched_calls :
    (∃ m, PoolOp.call (.prepareLoad [7]) (new 2 .lru true 1 64000 id : PoolRun ℕ).manager =
        .error .assertionError m) ∧
      ∃ r, step (new 2 .lru true 1 64000 id : PoolRun ℕ) (.prepareStore [7, 7]) = some r ∧
        r.manager.policy.contents.length + r.manager.freeList.length ≠
          r.manager.numAllocatedBlocks ∧
        r.manager.numWritePendingBlocks ≠ r.manager.numWith (-1) := by
  refine ⟨⟨_, rfl⟩, ?_⟩
  have hstep : (step (new 2 .lru true 1 64000 id : PoolRun ℕ) (.prepareStore [7, 7])).any
      (fun r => decide (r.manager.policy.contents.length + r.manager.freeList.length ≠
        r.manager.numAllocatedBlocks) &&
        decide (r.manager.numWritePendingBlocks ≠ r.manager.numWith (-1))) = true := by
    decide +kernel
  obtain ⟨r, hr, hall⟩ := Option.any_eq_true _ _ |>.1 hstep
  rw [Bool.and_eq_true, decide_eq_true_eq, decide_eq_true_eq] at hall
  exact ⟨r, hr, hall⟩

end PoolRun

end Lvllm
