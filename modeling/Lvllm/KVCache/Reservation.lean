import Lvllm.KVCache.Residency

/-!
# Reservations for recycling groups

`get_num_blocks_to_allocate` with the admission cap is a reservation: the blocks that a request is
expected to take from the free queue until its prompt is computed, less those it gives back on the
way.  A `Ledger` follows one group and one request from the moment the reservation is computed.  It
runs the group's part of each `allocate_slots` call and counts what leaves the free queue and what
returns to it; everything else may happen in between.

The reservation compares a capped number of blocks with the length of the table, in which null
blocks count as blocks.  It is enough when the cap does not bind, and when the table has no null
blocks and nothing else references the blocks that the request gives back.
-/

namespace Lvllm

open SingleTypeKVCacheManager KVCacheManager List Nat KVCacheSpec

variable {H : Type} [DecidableEq H]

/-! ## One group among others -/

/-- The group belongs to a manager that is in order, and the request has no partial hit in it. -/
structure GroupOk (p : BlockPool H) (m : SingleTypeKVCacheManager) (id : String) : Prop where
  inv : ∃ (Q : List ℕ) (ms : List SingleTypeKVCacheManager) (held : List ℕ) (i : ℕ),
    KvInv p Q ms held ∧ ms[i]? = some m
  collisionFree : p.hasher.CollisionFree
  noPartial : m.partialHitReqs.get? id = none

variable {n : ℕ} {m : SingleTypeKVCacheManager} {s : KvState H} {id : String}

section Group

variable {p p' : BlockPool H} {m m' : SingleTypeKVCacheManager} {id : String} {Q Q' held : List ℕ}
  {ms : List SingleTypeKVCacheManager} {i : ℕ}

/-- The free blocks are those that nothing references. -/
lemma KvInv.mem_queue_iff (h : KvInv p Q ms held) (b : ℕ) :
    b ∈ Q ↔ b < p.numGpuBlocks ∧ b ≠ p.nullBlock ∧ totalRefs ms b + held.count b = 0 := by
  rw [h.free.mem_iff, h.free.isNull_eq_false_iff]
  refine and_congr_right fun _ => and_congr_right fun hne => ?_
  rw [h.refCnt_eq b hne]
  exact Int.natCast_eq_zero

omit [DecidableEq H] in
/-- What `remove_skipped_blocks` leaves of the references. -/
lemma removeSkippedBlocks_refs (hrun : removeSkippedBlocks id n (p, m) = .ok () (p', m')) {b : ℕ}
    (hb : b ≠ p.nullBlock) :
    m'.refs b + (nullBlocksDownFrom p.nullBlock (min (m.getNumSkippedTokens n / m.blockSize)
      (m.blocksOf id).length) (m.blocksOf id)).1.count b = m.refs b := by
  have hcount := (nullBlocksDownFrom_spec p.nullBlock (min (m.getNumSkippedTokens n / m.blockSize)
    (m.blocksOf id).length) (m.blocksOf id)).count_eq b hb
  obtain ⟨result, hresult, hm'⟩ := removeSkippedBlocks_eq_ok hrun
  rw [← hresult] at hcount ⊢
  rcases hm' with ⟨rfl, rfl⟩ | rfl
  · rfl
  · have hset := refs_setBlocks m id result.2 b
    omega

omit [DecidableEq H] in
/-- The walk from position `n - 1` down frees blocks in front of position `n`. -/
lemma mem_take_of_freed {nullBlock b : ℕ} {blocks : List ℕ}
    (hb : b ∈ (nullBlocksDownFrom nullBlock n blocks).1) : b ∈ blocks.take n := by
  induction n generalizing blocks with
  | zero => cases hb
  | succ n ih =>
    rw [nullBlocksDownFrom] at hb
    split at hb
    · cases hb
    · rename_i c hget
      split at hb
      · cases hb
      · rw [take_add_one, mem_append]
        rcases mem_cons.1 hb with rfl | hb
        · exact .inr (by simp [hget])
        · have hmem := ih hb
          rw [take_set_of_le le_rfl] at hmem
          exact .inl hmem

/-- Removing skipped blocks returns blocks to the free queue: every block that was removed, if they
had no other reference. -/
lemma GroupOk.removeSkippedBlocks (h : GroupOk p m id)
    (hrun : removeSkippedBlocks id n (p, m) = .ok () (p', m')) :
    GroupOk p' m' id ∧ p.RefFrame p' ∧ p.getNumFreeBlocks ≤ p'.getNumFreeBlocks ∧
      ((∀ b ∈ (m.blocksOf id).take (m.getNumSkippedTokens n / m.blockSize), b ≠ p.nullBlock →
          (p.blocks b).refCnt = 1) →
        p'.getNumFreeBlocks + residentBlocks p.nullBlock (m'.blocksOf id) =
          p.getNumFreeBlocks + residentBlocks p.nullBlock (m.blocksOf id)) := by
  obtain ⟨⟨Q, ms, held, i, hinv, hm⟩, hbh, hnone⟩ := h
  have htable := (removeSkippedBlocks_tables hrun).table
  have hrefs := fun {b : ℕ} (hb : b ≠ p.nullBlock) => removeSkippedBlocks_refs hrun hb
  obtain ⟨p₁, m1, hrun1, hframe, hstep, -, -, hpart⟩ := hinv.removeSkippedBlocks hm hbh id n
  rw [hrun1] at hrun
  cases hrun
  obtain ⟨Q', hinv'⟩ := hstep.inv
  have hskip := min_le_left (m.getNumSkippedTokens n / m.blockSize) (m.blocksOf id).length
  generalize min (m.getNumSkippedTokens n / m.blockSize) (m.blocksOf id).length = k
    at htable hrefs hskip
  have htake : ∀ b ∈ (nullBlocksDownFrom p.nullBlock k (m.blocksOf id)).1,
      b ∈ (m.blocksOf id).take (m.getNumSkippedTokens n / m.blockSize) := fun b hb =>
    (take_sublist_take_left hskip).subset (mem_take_of_freed hb)
  have hspec := nullBlocksDownFrom_spec p.nullBlock k (m.blocksOf id)
  have hcount := residentBlocks_nullBlocksDownFrom p.nullBlock k (m.blocksOf id)
  rw [← htable] at hcount
  generalize (nullBlocksDownFrom p.nullBlock k (m.blocksOf id)).1 = freed
    at hrefs hspec hcount htake
  have htotal : ∀ b, b ≠ p.nullBlock →
      totalRefs (ms.set i m') b + freed.count b = totalRefs ms b := by
    intro b hb
    have hsum := sum_map_set (·.refs b) m' hm
    have := hrefs hb
    unfold totalRefs
    omega
  have hmem : ∀ b, b ∈ Q' ↔ b < p.numGpuBlocks ∧ b ≠ p.nullBlock ∧
      totalRefs (ms.set i m') b + held.count b = 0 := by
    intro b
    rw [hinv'.mem_queue_iff, hframe.numGpuBlocks_eq, hframe.nullBlock_eq]
  have hsub : Q ⊆ Q' := by
    intro b hb
    obtain ⟨hlt, hne, hzero⟩ := (hinv.mem_queue_iff b).1 hb
    have := htotal b hne
    exact (hmem b).2 ⟨hlt, hne, by omega⟩
  have hQ : p.getNumFreeBlocks = Q.length := hinv.free.holds.numFreeBlocks_eq
  have hQ' : p'.getNumFreeBlocks = Q'.length := hinv'.free.holds.numFreeBlocks_eq
  refine ⟨⟨⟨Q', _, held, i, hinv', getElem?_set_self (List.getElem?_eq_some_iff.1 hm).1⟩,
    hframe.hasher_eq ▸ hbh, by rw [hpart, hnone]⟩, hframe, ?_, fun hunshared => ?_⟩
  · rw [hQ, hQ']
    exact (subperm_of_subset hinv.free.holds.nodup hsub).length_le
  · -- A block with one reference is in the table once, and free without it.
    have hone : ∀ b ∈ freed, b ≠ p.nullBlock ∧ totalRefs ms b + held.count b = 1 := by
      intro b hb
      have hne := (hspec.freed_mem b hb).2
      have hcnt := hunshared b (htake b hb) hne
      rw [hinv.refCnt_eq b hne] at hcnt
      exact ⟨hne, by exact_mod_cast hcnt⟩
    have hle : ∀ b, freed.count b ≤ 1 := by
      intro b
      by_cases hb : b ∈ freed
      · have := htotal b (hone b hb).1
        have := (hone b hb).2
        omega
      · rw [count_eq_zero.2 hb]
        exact zero_le 1
    have hdisjoint : ∀ b ∈ Q, b ∉ freed := by
      intro b hb hfreed
      have hzero := ((hinv.mem_queue_iff b).1 hb).2.2
      have hcnt := (hone b hfreed).2
      omega
    have hperm : Q'.Perm (Q ++ freed) := by
      refine (perm_ext_iff_of_nodup hinv'.free.holds.nodup (nodup_append'.2
        ⟨hinv.free.holds.nodup, nodup_iff_count_le_one.2 hle, hdisjoint⟩)).2 fun b => ?_
      rw [hmem, mem_append]
      constructor
      · rintro ⟨hlt, hne, hzero⟩
        by_cases hb : b ∈ freed
        · exact .inr hb
        · have := htotal b hne
          rw [count_eq_zero.2 hb] at this
          exact .inl ((hinv.mem_queue_iff b).2 ⟨hlt, hne, by omega⟩)
      · rintro (hb | hb)
        · exact (hmem b).1 (hsub hb)
        · obtain ⟨hne, hcnt⟩ := hone b hb
          have := htotal b hne
          have hpos := count_pos_iff.2 hb
          refine ⟨hinv.lt_of_mem_blocksOf hm (hspec.freed_mem b hb).1, hne, by omega⟩
    have hlen := hperm.length_eq
    rw [length_append] at hlen
    omega

/-- A group whose table of `id` grew is in order, and the free queue is shorter by as much. -/
lemma Grows.groupOk (hgrows : Grows p p' Q ms i m m' held id n) (h : KvInv p Q ms held)
    (hm : ms[i]? = some m) (hbh : p.hasher.CollisionFree) (hnone : m.partialHitReqs.get? id = none) :
    GroupOk p' m' id ∧ p'.getNumFreeBlocks + n = p.getNumFreeBlocks := by
  refine ⟨⟨⟨_, _, _, i, hgrows.inv, getElem?_set_self (List.getElem?_eq_some_iff.1 hm).1⟩,
    hgrows.pool.hasher_eq ▸ hbh, by rw [hgrows.tables.partialHitReqs_eq, hnone]⟩, ?_⟩
  have hfree : p.getNumFreeBlocks = Q.length := h.free.holds.numFreeBlocks_eq
  have hfree' : p'.getNumFreeBlocks = (Q.drop n).length := hgrows.inv.free.holds.numFreeBlocks_eq
  have hle := hgrows.le_length
  rw [length_drop] at hfree'
  omega

/-- The table of `id` grew by `k` blocks of the free queue, for `n` tokens. -/
structure Grown (p p' : BlockPool H) (m m' : SingleTypeKVCacheManager) (id : String) (n k : ℕ) :
    Prop where
  group : GroupOk p' m' id
  pool : SamePool p p'
  tables : TablesGrown p.nullBlock id m m'
  free : p'.getNumFreeBlocks + k = p.getNumFreeBlocks
  length_eq : (m'.blocksOf id).length = (m.blocksOf id).length + k
  le : (m.blocksOf id).length + k ≤ max (m.blocksOf id).length (cdiv n m.blockSize)

/-- `allocate_external_computed_blocks` takes the blocks by which the table grows. -/
lemma GroupOk.allocateExternalComputedBlocks (h : GroupOk p m id)
    (hspec : m.spec.participatesInPrefixCaching = true) {ext : ℕ}
    (hrun : allocateExternalComputedBlocks id n ext (p, m) =
      .ok () (p', m')) : ∃ k, Grown p p' m m' id (n + ext) k := by
  obtain ⟨⟨Q, ms, held, i, hinv, hm⟩, hbh, hnone⟩ := h
  obtain ⟨k, hgrows, hlen⟩ := hinv.allocateExternalComputedBlocks_grows hm hbh hspec hrun
  obtain ⟨hok, hfree⟩ := hgrows.groupOk hinv hm hbh hnone
  exact ⟨k, hok, hgrows.pool, hgrows.tables, hfree, hgrows.length_eq, hlen⟩

/-- `allocate_new_blocks` takes the blocks by which the table grows. -/
lemma GroupOk.allocateNewBlocks (h : GroupOk p m id)
    (hspec : m.spec.participatesInPrefixCaching = true) {bs : List ℕ}
    (hrun : allocateNewBlocks id n (p, m) = .ok bs (p', m')) :
    ∃ k, Grown p p' m m' id n k := by
  obtain ⟨⟨Q, ms, held, i, hinv, hm⟩, hbh, hnone⟩ := h
  obtain ⟨k, hgrows, hlen⟩ := hinv.allocateNewBlocks_grows hm hbh hspec hnone hrun
  obtain ⟨hok, hfree⟩ := hgrows.groupOk hinv hm hbh hnone
  exact ⟨k, hok, hgrows.pool, hgrows.tables, hfree, hgrows.length_eq, hlen.le⟩

/-- `add_local_computed_blocks` takes the hits that were evictable, and the table covers the
skipped blocks and the hits. -/
lemma GroupOk.addLocalComputedBlocks (h : GroupOk p m id)
    (hspec : m.spec.participatesInPrefixCaching = true) (hfresh : m.blocksOf id = [])
    {hits : List ℕ} (hhits : HitsAt p m m.kvCacheGroupId hits)
    (hcaching : p.enableCaching = false → hits = []) {ext : ℕ}
    (hwhole : m.hasPartialLocalHit hits n = false)
    (hrun : addLocalComputedBlocks id hits n ext (p, m) = .ok () (p', m')) :
    GroupOk p' m' id ∧ m'.spec = m.spec ∧ p'.nullBlock = p.nullBlock ∧
      p'.getNumFreeBlocks + getNumEvictableBlocks p
        (hits.drop (m.getNumSkippedTokens (n + ext) / m.blockSize)) = p.getNumFreeBlocks ∧
      (m'.blocksOf id).length =
        max (m.getNumSkippedTokens (n + ext) / m.blockSize) hits.length := by
  obtain ⟨⟨Q, ms, held, i, hinv, hm⟩, hbh, hnone⟩ := h
  rw [(hinv.group i m hm).1] at hhits
  obtain ⟨p₁, hrun1, hframe, -, hinv'⟩ :=
    hinv.addLocalComputedBlocks hm hbh hspec hfresh hhits hcaching
      (show m.getNumSkippedTokens (n + ext) / m.blockSize = _ from rfl)
  rw [hrun1] at hrun
  cases hrun
  have hlen := hinv.length_filter_hits hm hbh hhits (m.getNumSkippedTokens (n + ext) / m.blockSize)
  have hfree : p.getNumFreeBlocks = Q.length := hinv.free.holds.numFreeBlocks_eq
  have hfree' : p'.getNumFreeBlocks = _ := hinv'.free.holds.numFreeBlocks_eq
  refine ⟨⟨⟨_, _, _, i, hinv', getElem?_set_self (List.getElem?_eq_some_iff.1 hm).1⟩,
    hframe.hasher_eq ▸ hbh, ?_⟩, (recordComputedBlocks_table m id _ _ _ n).2.2.spec_eq,
    hframe.nullBlock_eq, by omega, ?_⟩
  · rw [partialHitReqs_recordComputedBlocks, if_neg]
    · exact hnone
    · rintro ⟨-, hinner⟩
      rw [hasPartialLocalHit_iff] at hinner
      rw [← Bool.not_eq_true, hasPartialLocalHit_iff] at hwhole
      exact hwhole ⟨fun hnil => hinner.1 (by rw [hnil, drop_nil]), hinner.2⟩
  · rw [blocksOf_recordComputedBlocks, blocksOf_setBlocks_self, length_append,
      length_replicate, length_drop]
    omega

end Group

/-! ## The ledger -/

/-- One group and one request since the reservation. -/
structure Ledger (H : Type) where
  pool : BlockPool H
  manager : SingleTypeKVCacheManager
  /-- The tokens for which the skipped blocks were last left out. -/
  processed : ℕ := 0
  /-- The blocks taken from the free queue for the request, less those that returned to it. -/
  net : ℤ := 0

/-- What an `allocate_slots` call does in one group, and everything else. -/
inductive LedgerOp (H : Type) where
  | removeSkippedBlocks (processedComputedTokens : ℕ)
  | allocateExternalComputedBlocks (numLocalComputedTokens numExternalComputedTokens : ℕ)
  | allocateNewBlocks (numTokens : ℕ)
  /-- Another group, another request, or caching. -/
  | other (pool : BlockPool H) (manager : SingleTypeKVCacheManager)

namespace Ledger

/-- Count what the code took from the free queue. -/
def ran {α : Type} (l : Ledger H)
    (result : EStateM.Result PyErr (BlockPool H × SingleTypeKVCacheManager) α) :
    Option (Ledger H) :=
  match result with
  | .ok _ (pool, manager) => some
    { l with
      pool := pool
      manager := manager
      net := l.net + (l.pool.getNumFreeBlocks - pool.getNumFreeBlocks : ℤ) }
  | .error _ _ => none

/-- One operation for the request `id`. -/
def step (id : String) (l : Ledger H) : LedgerOp H → Option (Ledger H)
  | .removeSkippedBlocks n =>
    { l with processed := n }.ran (SingleTypeKVCacheManager.removeSkippedBlocks id n
      (l.pool, l.manager))
  | .allocateExternalComputedBlocks n ext =>
    l.ran (SingleTypeKVCacheManager.allocateExternalComputedBlocks id n ext (l.pool, l.manager))
  | .allocateNewBlocks n =>
    l.ran (SingleTypeKVCacheManager.allocateNewBlocks id n (l.pool, l.manager))
  | .other pool manager => some { l with pool := pool, manager := manager }

/-- A prefill of `numTokens` tokens: nothing is allocated past them, and what happens elsewhere
leaves the group in order and the table of the request as it is. -/
def Allowed (id : String) (numTokens : ℕ) (l : Ledger H) : LedgerOp H → Prop
  | .removeSkippedBlocks _ => True
  | .allocateExternalComputedBlocks n ext => n + ext ≤ numTokens
  | .allocateNewBlocks n => n ≤ numTokens
  | .other pool manager => GroupOk pool manager id ∧ manager.spec = l.manager.spec ∧
    manager.blocksOf id = l.manager.blocksOf id ∧ pool.nullBlock = l.pool.nullBlock

/-- The blocks that are removed have no other reference, the processed tokens have slots, and at most
`maxInFlight` tokens follow the processed ones. -/
def Alone (id : String) (maxInFlight : ℕ) (l : Ledger H) : LedgerOp H → Prop
  | .removeSkippedBlocks n => n ≤ (l.manager.blocksOf id).length * l.manager.blockSize ∧
    ∀ b ∈ (l.manager.blocksOf id).take (l.manager.getNumSkippedTokens n / l.manager.blockSize),
      b ≠ l.pool.nullBlock → (l.pool.blocks b).refCnt = 1
  | .allocateExternalComputedBlocks n ext => n + ext ≤ l.processed + maxInFlight
  | .allocateNewBlocks n => n ≤ l.processed + maxInFlight
  | .other _ _ => True

end Ledger

/-- The ledger of a request in a group that skips blocks begins with a reservation of `k` blocks for
`numTokens` tokens: of a request whose table covers its computed tokens, or of one that is admitted
with hits. -/
inductive Reserves (id : String) (numTokens k : ℕ) : Ledger H → Prop
  | resident {p : BlockPool H} {m : SingleTypeKVCacheManager} {total localTokens : ℕ}
      (group : GroupOk p m id) (skips : m.spec.skipsBlocks = true)
      (covered : total ≤ (m.blocksOf id).length * m.blockSize)
      (reserved : getNumBlocksToAllocate p m id numTokens [] total localTokens true = .ok k) :
      Reserves id numTokens k { pool := p, manager := m }
  | admitted {p p₁ p' : BlockPool H} {m m' : SingleTypeKVCacheManager} {hits : List ℕ}
      {localTokens external : ℕ} (group : GroupOk p₁ m id) (skips : m.spec.skipsBlocks = true)
      (fresh : m.blocksOf id = [] ∧ m.numCachedBlock.contains id = false)
      (reserved : getNumBlocksToAllocate p m id numTokens hits (localTokens + external) localTokens
        true = .ok k)
      (found : HitsAt p₁ m m.kvCacheGroupId hits)
      (cached : p₁.enableCaching = false → hits = [])
      (whole : m.hasPartialLocalHit hits localTokens = false)
      -- The gate is computed before the hits of the groups in front are touched.
      (evictable : ∀ j, getNumEvictableBlocks p₁ (hits.drop j) =
        getNumEvictableBlocks p (hits.drop j))
      (ran : addLocalComputedBlocks id hits localTokens external (p₁, m) = .ok () (p', m')) :
      Reserves id numTokens k
        { pool := p', manager := m', processed := localTokens + external
          net := (p₁.getNumFreeBlocks - p'.getNumFreeBlocks : ℤ) }

section Runs

variable {id : String} {numTokens k : ℕ} {spec : KVCacheSpec} {l l' : Ledger H}

omit [DecidableEq H] in
lemma Ledger.ran_eq_some {α : Type}
    {result : EStateM.Result PyErr (BlockPool H × SingleTypeKVCacheManager) α} :
    l.ran result = some l' ↔ ∃ a p m, result = .ok a (p, m) ∧ l' = { l with
        pool := p
        manager := m
        net := l.net + (l.pool.getNumFreeBlocks - p.getNumFreeBlocks : ℤ) } := by
  constructor
  · intro h
    unfold ran at h
    split at h
    · rename_i a p m
      exact ⟨a, p, m, rfl, (Option.some.inj h).symm⟩
    · cases h
  · rintro ⟨a, p, m, rfl, rfl⟩
    rfl

/-- What was taken, with what the table still lacks of `numTokens` tokens, is reserved. -/
structure WithinReservation (id : String) (numTokens k : ℕ) (spec : KVCacheSpec) (l : Ledger H) :
    Prop where
  group : GroupOk l.pool l.manager id
  spec_eq : l.manager.spec = spec
  net_le : l.net + ((cdiv numTokens spec.blockSize - (l.manager.blocksOf id).length : ℕ) : ℤ) ≤ k

/-- Every operation of the prefill stays within the reservation. -/
lemma WithinReservation.step (h : WithinReservation id numTokens k spec l)
    (hspec : spec.participatesInPrefixCaching = true) {op : LedgerOp H}
    (hop : Ledger.Allowed id numTokens l op) (hstep : l.step id op = some l') :
    WithinReservation id numTokens k spec l' := by
  obtain ⟨hgroup, hspecEq, hnet⟩ := h
  have hb : l.manager.blockSize = spec.blockSize := by rw [← hspecEq]; rfl
  cases op with
  | removeSkippedBlocks n =>
    obtain ⟨⟨⟩, p', m', hrun, rfl⟩ := Ledger.ran_eq_some.1 hstep
    obtain ⟨hgroup', -, hfree, -⟩ := hgroup.removeSkippedBlocks hrun
    have htables := removeSkippedBlocks_tables hrun
    refine ⟨hgroup', htables.group.spec_eq.trans hspecEq, ?_⟩
    dsimp only
    rw [htables.length_eq]
    omega
  | allocateExternalComputedBlocks n ext =>
    obtain ⟨⟨⟩, p', m', hrun, rfl⟩ := Ledger.ran_eq_some.1 hstep
    obtain ⟨c, hgroup', -, htables, hfree, hlen, hle⟩ :=
      hgroup.allocateExternalComputedBlocks (by rwa [hspecEq]) hrun
    have hmono := cdiv_mono spec.blockSize (show n + ext ≤ numTokens from hop)
    rw [hb] at hle
    refine ⟨hgroup', htables.group.spec_eq.trans hspecEq, ?_⟩
    dsimp only
    omega
  | allocateNewBlocks n =>
    obtain ⟨bs, p', m', hrun, rfl⟩ := Ledger.ran_eq_some.1 hstep
    obtain ⟨c, hgroup', -, htables, hfree, hlen, hle⟩ :=
      hgroup.allocateNewBlocks (by rwa [hspecEq]) hrun
    have hmono := cdiv_mono spec.blockSize (show n ≤ numTokens from hop)
    rw [hb] at hle
    refine ⟨hgroup', htables.group.spec_eq.trans hspecEq, ?_⟩
    dsimp only
    omega
  | other pool manager =>
    obtain ⟨hgroup', hspecEq', hblocks, -⟩ := hop
    cases hstep
    refine ⟨hgroup', hspecEq'.trans hspecEq, ?_⟩
    rw [hblocks]
    exact hnet

/-- The net number of blocks is the change of the resident ones, which stay within the cap when they
grow. -/
structure WithinWindow (id : String) (numTokens cap : ℕ) (spec : KVCacheSpec) (l₀ l : Ledger H) :
    Prop where
  group : GroupOk l.pool l.manager id
  spec_eq : l.manager.spec = spec
  length_le : (l.manager.blocksOf id).length ≤
    max (l₀.manager.blocksOf id).length (cdiv numTokens spec.blockSize)
  nulls : ∃ j, NullPrefix l.pool.nullBlock j (l.manager.blocksOf id) ∧
    l.manager.getNumSkippedTokens l.processed / l.manager.blockSize ≤ j
  net_eq : l.net = l₀.net + residentBlocks l.pool.nullBlock (l.manager.blocksOf id) -
    ((l₀.manager.blocksOf id).length : ℤ)
  net_le : l.net ≤ l₀.net ∨ residentBlocks l.pool.nullBlock (l.manager.blocksOf id) ≤ cap

section Window

variable {cap maxInFlight maxModelLen : ℕ} {l₀ : Ledger H} {p' : BlockPool H}
  {m' : SingleTypeKVCacheManager}

/-- Growing to `n` tokens stays within the window. -/
lemma WithinWindow.grown (h : WithinWindow id numTokens cap spec l₀ l)
    (hskips : spec.skipsBlocks = true) (haligned : spec.ChunkAligned)
    (hcap : spec.maxAdmissionBlocksPerRequest maxInFlight maxModelLen = some cap)
    (hmax : numTokens ≤ maxModelLen) {c : ℕ} (hn : n ≤ numTokens)
    (hin : n ≤ l.processed + maxInFlight) (hgrown : Grown l.pool p' l.manager m' id n c) :
    WithinWindow id numTokens cap spec l₀ { l with
        pool := p'
        manager := m'
        net := l.net + (l.pool.getNumFreeBlocks - p'.getNumFreeBlocks : ℤ) } := by
  obtain ⟨-, rfl, hlen, ⟨j, hj, hskipped⟩, hnet, hle⟩ := h
  obtain ⟨hgroup, hpool, htables, hfree, hlen', hgrown⟩ := hgrown
  have hresident := hj.residentBlocks_eq
  have hjle := hj.le_length
  have hmono := cdiv_mono l.manager.blockSize hn
  have hwindow := blocks_le_cap hskips haligned hcap hin (hn.trans hmax)
  have hj' := htables.nullPrefix hj
  have hskipEq := skippedBlocks_congr htables.group.spec_eq l.processed
  have hresident' := hj'.residentBlocks_eq
  change (l.manager.blocksOf id).length ≤
    max (l₀.manager.blocksOf id).length (cdiv numTokens l.manager.blockSize) at hlen
  refine ⟨hgroup, htables.group.spec_eq, ?_, ⟨j, hpool.nullBlock_eq ▸ hj', ?_⟩, ?_, ?_⟩
  · change (m'.blocksOf id).length ≤
      max (l₀.manager.blocksOf id).length (cdiv numTokens l.manager.blockSize)
    omega
  · exact hskipEq.trans_le hskipped
  · simp only [hpool.nullBlock_eq]
    omega
  · simp only [hpool.nullBlock_eq]
    omega

/-- Removing skipped blocks that have no other reference stays within the window. -/
lemma WithinWindow.removed (h : WithinWindow id numTokens cap spec l₀ l)
    (halone : l.Alone id maxInFlight (.removeSkippedBlocks n))
    (hrun : removeSkippedBlocks id n (l.pool, l.manager) = .ok () (p', m')) :
    WithinWindow id numTokens cap spec l₀ { l with
        pool := p'
        manager := m'
        processed := n
        net := l.net + (l.pool.getNumFreeBlocks - p'.getNumFreeBlocks : ℤ) } := by
  obtain ⟨hgroup, rfl, hlen, ⟨j, hj, -⟩, hnet, hle⟩ := h
  obtain ⟨hcovered, hunshared⟩ := halone
  obtain ⟨hgroup', hframe, -, hfree⟩ := hgroup.removeSkippedBlocks hrun
  have hfree := hfree hunshared
  have htables := removeSkippedBlocks_tables hrun
  have hj' := htables.nullPrefix hj
  have hresident := hj.residentBlocks_eq
  have hresident' := hj'.residentBlocks_eq
  rw [htables.length_eq] at hresident'
  have hskip : l.manager.getNumSkippedTokens n / l.manager.blockSize ≤
      (l.manager.blocksOf id).length := by
    refine Nat.div_le_of_le_mul ((getNumSkippedTokens_le _ n).trans ?_)
    rwa [Nat.mul_comm]
  have hskipEq := skippedBlocks_congr htables.group.spec_eq n
  refine ⟨hgroup', htables.group.spec_eq, ?_, ⟨_, hframe.nullBlock_eq ▸ hj', ?_⟩, ?_, ?_⟩ <;>
    simp only [hframe.nullBlock_eq, htables.length_eq, hskipEq] <;> omega

/-- Every operation stays within the window. -/
lemma WithinWindow.step (h : WithinWindow id numTokens cap spec l₀ l)
    (hskips : spec.skipsBlocks = true) (haligned : spec.ChunkAligned)
    (hcap : spec.maxAdmissionBlocksPerRequest maxInFlight maxModelLen = some cap)
    (hmax : numTokens ≤ maxModelLen) {op : LedgerOp H} (hop : Ledger.Allowed id numTokens l op)
    (halone : l.Alone id maxInFlight op) (hstep : l.step id op = some l') :
    WithinWindow id numTokens cap spec l₀ l' := by
  have hspec : l.manager.spec.participatesInPrefixCaching = true :=
    h.spec_eq ▸ (skipsBlocks_iff.1 hskips).1
  cases op with
  | removeSkippedBlocks n =>
    obtain ⟨⟨⟩, p', m', hrun, rfl⟩ := Ledger.ran_eq_some.1 hstep
    exact h.removed halone hrun
  | allocateExternalComputedBlocks n ext =>
    obtain ⟨⟨⟩, p', m', hrun, rfl⟩ := Ledger.ran_eq_some.1 hstep
    obtain ⟨c, hgrown⟩ := h.group.allocateExternalComputedBlocks hspec hrun
    exact h.grown hskips haligned hcap hmax hop halone hgrown
  | allocateNewBlocks n =>
    obtain ⟨bs, p', m', hrun, rfl⟩ := Ledger.ran_eq_some.1 hstep
    obtain ⟨c, hgrown⟩ := h.group.allocateNewBlocks hspec hrun
    exact h.grown hskips haligned hcap hmax hop halone hgrown
  | other pool manager =>
    obtain ⟨hgroup, hspecEq, hblocks, hnull⟩ := hop
    cases hstep
    obtain ⟨j, hj, hskipped⟩ := h.nulls
    refine ⟨hgroup, hspecEq.trans h.spec_eq, ?_, ⟨j, ?_, ?_⟩, ?_, ?_⟩ <;> dsimp only
    · rw [hblocks]
      exact h.length_le
    · rwa [hblocks, hnull]
    · rwa [skippedBlocks_congr hspecEq]
    · rw [hblocks, hnull]
      exact h.net_eq
    · rw [hblocks, hnull]
      exact h.net_le

end Window

/-- The blocks that `num_tokens` tokens require, under the admission cap. -/
def requiredBlocks (m : SingleTypeKVCacheManager) (numTokens : ℕ) : ℕ :=
  match m.maxAdmissionBlocksPerRequest with
  | some cap => min (cdiv numTokens m.blockSize) cap
  | none => cdiv numTokens m.blockSize

section

omit [DecidableEq H]

/-- The reservation of a request with a table, in a group that skips blocks. -/
lemma getNumBlocksToAllocate_resident {p : BlockPool H} (hskips : m.spec.skipsBlocks = true)
    {total : ℕ} (hcovered : total ≤ (m.blocksOf id).length * m.blockSize) :
    getNumBlocksToAllocate p m id numTokens [] total n true =
      .ok (requiredBlocks m numTokens - (m.blocksOf id).length) := by
  have hskip : m.getNumSkippedTokens total / m.blockSize ≤ (m.blocksOf id).length := by
    refine Nat.div_le_of_le_mul ((getNumSkippedTokens_le _ total).trans ?_)
    rwa [Nat.mul_comm]
  rw [getNumBlocksToAllocate_of_participates (skipsBlocks_iff.1 hskips).1]
  unfold baseNumBlocksToAllocate requiredBlocks
  cases m.maxAdmissionBlocksPerRequest <;>
    simp [hasPartialLocalHit, getNumEvictableBlocks, max_eq_right hskip]

/-- The reservation of a request that is admitted with hits, in a group that skips blocks. -/
lemma getNumBlocksToAllocate_admitted {p : BlockPool H} (hskips : m.spec.skipsBlocks = true)
    (hfresh : m.blocksOf id = []) (hnew : m.numCachedBlock.contains id = false) {hits : List ℕ}
    {total : ℕ} (hwhole : m.hasPartialLocalHit hits n = false) :
    getNumBlocksToAllocate p m id numTokens hits total n true = .ok (requiredBlocks m numTokens -
          max (m.getNumSkippedTokens total / m.blockSize) hits.length +
        getNumEvictableBlocks p (hits.drop (m.getNumSkippedTokens total / m.blockSize))) := by
  rw [getNumBlocksToAllocate_of_participates (skipsBlocks_iff.1 hskips).1]
  unfold baseNumBlocksToAllocate requiredBlocks
  cases m.maxAdmissionBlocksPerRequest <;> simp [hwhole, hfresh, hnew]

lemma requiredBlocks_recordComputedBlocks (m : SingleTypeKVCacheManager) (j nullBlock n : ℕ)
    (hits : List ℕ) :
    requiredBlocks (m.recordComputedBlocks id j nullBlock hits n) numTokens =
      requiredBlocks m numTokens := by
  unfold recordComputedBlocks
  dsimp only
  split <;> rfl

end

/-- The ledger begins in order; what its table lacks of the required blocks, and the hits that were
taken, are reserved; and its skipped blocks are left out. -/
lemma Reserves.begins {l₀ : Ledger H} (h : Reserves id numTokens k l₀) :
    GroupOk l₀.pool l₀.manager id ∧ l₀.manager.spec.skipsBlocks = true ∧
      (k : ℤ) = l₀.net + ((requiredBlocks l₀.manager numTokens -
        (l₀.manager.blocksOf id).length : ℕ) : ℤ) ∧
      (l₀.pool.nullBlock ∉ l₀.manager.blocksOf id →
        l₀.manager.getNumSkippedTokens l₀.processed / l₀.manager.blockSize = 0) := by
  cases h with
  | @resident p m total n hgroup hskips hcovered hreserved =>
    rw [getNumBlocksToAllocate_resident hskips hcovered] at hreserved
    cases hreserved
    refine ⟨hgroup, hskips, (zero_add _).symm, fun _ => ?_⟩
    rw [Nat.le_zero.1 (getNumSkippedTokens_le m 0), Nat.zero_div]
  | @admitted p p₁ p' m m' hits n ext hgroup hskips hfresh hreserved hfound hcached hwhole hevict
      hran =>
    have hspec := (skipsBlocks_iff.1 hskips).1
    obtain ⟨hgroup', hspecEq, hnullEq, hfree, hlen⟩ :=
      hgroup.addLocalComputedBlocks hspec hfresh.1 hfound hcached hwhole hran
    obtain rfl := addLocalComputedBlocks_eq_ok hspec hran
    rw [getNumBlocksToAllocate_admitted hskips hfresh.1 hfresh.2 hwhole] at hreserved
    cases hreserved
    refine ⟨hgroup', by rwa [hspecEq], ?_, fun hnull => ?_⟩
    · dsimp only
      rw [requiredBlocks_recordComputedBlocks, hlen, ← hevict]
      omega
    · -- A skipped block would stand in the table as a null block.
      rw [blocksOf_recordComputedBlocks, blocksOf_setBlocks_self, hnullEq] at hnull
      rw [skippedBlocks_congr hspecEq]
      by_contra hne
      exact hnull (mem_append_left _ (mem_replicate.2 ⟨hne, rfl⟩))

/-- In every prefill that begins with a reservation of `k` blocks, the net number of blocks taken
from the free queue is at most `k`, if the cap does not bind; and, whether it binds or not, if the
table holds no null blocks when the reservation is made and the blocks that the request gives back
have no other reference. -/
theorem net_blocks_le_reservation {l₀ : Ledger H} (h : Reserves id numTokens k l₀) :
    ((∀ cap, l₀.manager.maxAdmissionBlocksPerRequest = some cap →
        cdiv numTokens l₀.manager.blockSize ≤ cap) →
      ∀ l, Reached (· = l₀) (Ledger.step id) (Ledger.Allowed id numTokens) l → l.net ≤ k) ∧
    ∀ maxInFlight maxModelLen, l₀.manager.maxAdmissionBlocksPerRequest =
        l₀.manager.spec.maxAdmissionBlocksPerRequest maxInFlight maxModelLen →
      l₀.manager.spec.ChunkAligned → numTokens ≤ maxModelLen →
      l₀.pool.nullBlock ∉ l₀.manager.blocksOf id →
      ∀ l, Reached (· = l₀) (Ledger.step id)
        (fun l op => Ledger.Allowed id numTokens l op ∧ l.Alone id maxInFlight op) l →
        l.net ≤ k := by
  obtain ⟨hgroup, hskips, hk, hskipped⟩ := h.begins
  have hspec := (skipsBlocks_iff.1 hskips).1
  refine ⟨fun hcap l hl => ?_, fun maxInFlight maxModelLen hcap haligned hmax hnull l hl => ?_⟩
  · have hrequired : requiredBlocks l₀.manager numTokens = cdiv numTokens l₀.manager.blockSize := by
      unfold requiredBlocks
      split
      · exact min_eq_left (hcap _ ‹_›)
      · rfl
    have hwithin : WithinReservation id numTokens k l₀.manager.spec l := by
      refine hl.invariant (fun l hl => ?_) fun l op l' hI hop hstep => hI.step hspec hop hstep
      subst hl
      refine ⟨hgroup, rfl, ?_⟩
      rw [hk, hrequired]
      exact le_rfl
    have := hwithin.net_le
    omega
  · obtain ⟨cap, hcap'⟩ : ∃ cap,
        l₀.manager.spec.maxAdmissionBlocksPerRequest maxInFlight maxModelLen = some cap := by
      unfold skipsBlocks participatesInPrefixCaching KVCacheSpec.isFullAttention at hskips
      unfold KVCacheSpec.maxAdmissionBlocksPerRequest
      cases hkind : l₀.manager.spec.kind <;> simp_all
    have hrequired : requiredBlocks l₀.manager numTokens =
        min (cdiv numTokens l₀.manager.blockSize) cap := by
      rw [requiredBlocks, hcap, hcap']
    have hnone : NullPrefix l₀.pool.nullBlock 0 (l₀.manager.blocksOf id) := by
      refine ⟨zero_le _, fun j b hj => iff_of_false ?_ (not_lt_zero j)⟩
      rintro rfl
      exact hnull (mem_of_getElem? hj)
    have hwithin : WithinWindow id numTokens cap l₀.manager.spec l₀ l := by
      refine hl.invariant (fun l hl => ?_) fun l op l' hI hop hstep =>
        hI.step hskips haligned hcap' hmax hop.1 hop.2 hstep
      subst hl
      refine ⟨hgroup, rfl, le_max_left _ _, ⟨0, hnone, (hskipped hnull).le⟩, ?_, .inl le_rfl⟩
      rw [hnone.residentBlocks_eq]
      omega
    have hres := hwithin.net_eq
    obtain ⟨j, hj, -⟩ := hwithin.nulls
    have hlen : (l.manager.blocksOf id).length ≤ max (l₀.manager.blocksOf id).length
      (cdiv numTokens l₀.manager.blockSize) := hwithin.length_le
    have hresident := hj.residentBlocks_eq
    have := hwithin.net_le
    omega

end Runs

/-! ## Reservations in reachable states -/

/-- The managers with the admission caps of their specs. -/
def withAdmissionCaps (maxInFlight : ℕ) (s : KvState H) : KvState H :=
  { s with
    kv := { s.kv with
      managers := s.kv.managers.map fun m =>
        { m with
          maxAdmissionBlocksPerRequest :=
            m.spec.maxAdmissionBlocksPerRequest maxInFlight s.kv.maxModelLen } } }

omit [DecidableEq H] in
lemma KvInit.withAdmissionCaps (h : KvInit s) (maxInFlight : ℕ) :
    KvInit (withAdmissionCaps maxInFlight s) := by
  obtain ⟨hpool, hconfig, hmanagers, hheld⟩ := h
  have hget : ∀ {i : ℕ} {m' : SingleTypeKVCacheManager},
      (Lvllm.withAdmissionCaps maxInFlight s).kv.managers[i]? = some m' →
      ∃ m, s.kv.managers[i]? = some m ∧ { m with
        maxAdmissionBlocksPerRequest :=
          m.spec.maxAdmissionBlocksPerRequest maxInFlight s.kv.maxModelLen } = m' := by
    intro i m' hm'
    rwa [Lvllm.withAdmissionCaps, getElem?_map, Option.map_eq_some_iff] at hm'
  refine ⟨hpool, hconfig.of_sameKv ⟨.refl _, ⟨length_map _, fun i m m' hm hm' => ?_⟩, rfl⟩,
    fun i m' hm' => ?_, hheld⟩
  · obtain ⟨m1, hm1, rfl⟩ := hget hm'
    obtain rfl := Option.some.inj (hm.symm.trans hm1)
    exact ⟨rfl, rfl, rfl⟩
  · obtain ⟨m, hm, rfl⟩ := hget hm'
    obtain ⟨hid, hcaching, hnone⟩ := hmanagers i m hm
    exact ⟨hid, hcaching, hnone.1, hnone.2, hnone.3⟩

/-- Every group of a reachable state is in order. -/
lemma KvReachable.groupOk (hs : KvReachable s) (hm : m ∈ s.kv.managers)
    (id : String) : GroupOk s.kv.pool m id := by
  obtain ⟨⟨Q, hinv⟩, -, hbh, hnone⟩ := hs.kvOk
  obtain ⟨i, hi⟩ := getElem?_of_mem hm
  exact ⟨⟨Q, _, _, i, hinv, hi⟩, hbh, hnone m hm id⟩

/-- The reservation that a reachable state computes for a request whose table has `len` blocks. -/
lemma KvReachable.reserves (hs : KvReachable s) (hm : m ∈ s.kv.managers)
    {window : ℕ+} {extra : ℕ} (hkind : m.spec.kind = .slidingWindow window extra)
    {numTokens required len numComputed : ℕ}
    (hcovered : numComputed ≤ (m.blocksOf id).length * m.blockSize)
    (hrequired : requiredBlocks m numTokens = required) (hlen : (m.blocksOf id).length = len) :
    Reserves id numTokens (required - len) { pool := s.kv.pool, manager := m } := by
  have hskips := skipsBlocks_of_slidingWindow hkind
  have hreserved : getNumBlocksToAllocate s.kv.pool m id numTokens []
      numComputed numComputed true = .ok (required - len) := by
    rw [getNumBlocksToAllocate_resident hskips hcovered, hrequired, hlen]
  exact .resident (hs.groupOk hm id) hskips hcovered hreserved

instance Ledger.decidableAlone (id : String) (maxInFlight : ℕ) (l : Ledger H) (op : LedgerOp H) :
    Decidable (l.Alone id maxInFlight op) :=
  match op with
  | .removeSkippedBlocks _ => inferInstanceAs (Decidable (_ ∧ ∀ b ∈ _, _ → _))
  | .allocateExternalComputedBlocks _ _ | .allocateNewBlocks _ => inferInstanceAs (Decidable (_ ≤ _))
  | .other _ _ => isTrue trivial

/-- Run the next chunk of a prefill: remove the blocks skipped after `processed` tokens, then
allocate `numTokens` slots. -/
def Ledger.nextChunk (id : String) (maxInFlight processed numTokens : ℕ) (l : Ledger H) :
    Option (Ledger H) :=
  runAll (Ledger.step id) (fun l op => l.Alone id maxInFlight op)
    [.removeSkippedBlocks processed, .allocateNewBlocks numTokens] l

/-- A chunk within the prefill is a run of the ledger. -/
lemma Ledger.reached_nextChunk {maxInFlight processed numTokens : ℕ} {l l' : Ledger H}
    (h : l.nextChunk id maxInFlight processed n = some l') (hn : n ≤ numTokens) :
    Reached (· = l) (Ledger.step id)
      (fun l op => Ledger.Allowed id numTokens l op ∧ l.Alone id maxInFlight op) l' := by
  unfold nextChunk runAll at h
  split at h
  · rename_i halone
    obtain ⟨l1, hstep, hrest⟩ := Option.bind_eq_some_iff.1 h
    unfold runAll at hrest
    split at hrest
    · rename_i halone1
      obtain ⟨l2, hstep1, hnil⟩ := Option.bind_eq_some_iff.1 hrest
      cases hnil
      exact Reached.step (.allocateNewBlocks n) (Reached.step (.removeSkippedBlocks processed)
        (Reached.init rfl) ⟨trivial, halone⟩ hstep) ⟨hn, halone1⟩ hstep1
    · cases hrest
  · cases h

/-- A window of five tokens with at most eight in flight, whose cap is four blocks, and a request for
forty tokens of which eight are computed: two more blocks are reserved, and the next chunk takes one
of them, as one skipped block returns. -/
theorem net_blocks_le_two :
    ∃ (s : KvState FreeHash) (m : SingleTypeKVCacheManager) (l : Ledger FreeHash),
      KvReachable s ∧ m ∈ s.kv.managers ∧ m.spec.kind = .slidingWindow 5 0 ∧
        m.maxAdmissionBlocksPerRequest = some 4 ∧
        Reserves "a" 40 2 { pool := s.kv.pool, manager := m } ∧
        Ledger.nextChunk "a" 8 8 16 { pool := s.kv.pool, manager := m } = some l ∧
        l.net = 1 ∧ l.net ≤ 2 := by
  obtain ⟨s, hreach, m, hm, hkind, hblocks, hcap, hnull, hrequired, hspecCap, hmax, hcovered, l, hl,
      hnet⟩ := exists_reached_kv 32
    (fun pool => withAdmissionCaps 8 (smallKv [.fullAttention, .slidingWindow 5 0] pool))
    (fun _ hpool => (kvInit_smallKv hpool).withAdmissionCaps 8)
    (chunkOps ((List.range 40).map Int.ofNat) 2 [(0, 8, 0)]) (fun s op => op.Allowed s)
    (fun s => ∃ m ∈ s.kv.managers, m.spec.kind = .slidingWindow 5 0 ∧ m.blocksOf "a" = [3, 4] ∧
      m.maxAdmissionBlocksPerRequest = some 4 ∧ s.kv.pool.nullBlock = 0 ∧ requiredBlocks m 40 = 4 ∧
      m.spec.maxAdmissionBlocksPerRequest 8 s.kv.maxModelLen = some 4 ∧ 40 ≤ s.kv.maxModelLen ∧
      8 ≤ (m.blocksOf "a").length * m.blockSize ∧
      ∃ l ∈ Ledger.nextChunk "a" 8 8 16 { pool := s.kv.pool, manager := m }, l.net = 1)
    (by decide +kernel)
  have hreserves := KvReachable.reserves hreach hm hkind hcovered hrequired (by rw [hblocks])
  refine ⟨s, m, l, hreach, hm, hkind, hcap, hreserves, hl, hnet, ?_⟩
  exact (net_blocks_le_reservation hreserves).2 8 s.kv.maxModelLen (hcap.trans hspecCap.symm)
    (by simp [KVCacheSpec.ChunkAligned, hkind]) hmax (by simp [hnull, hblocks]) l
    (Ledger.reached_nextChunk hl (by decide))

/-- The same window once twenty tokens of the request are computed: its table has five blocks, of
which three are null, so that nothing is reserved; the next chunk takes two blocks and returns
one. -/
theorem net_blocks_exceed_reservation :
    ∃ (s : KvState FreeHash) (m : SingleTypeKVCacheManager) (l : Ledger FreeHash),
      KvReachable s ∧ m ∈ s.kv.managers ∧ m.spec.kind = .slidingWindow 5 0 ∧
        m.maxAdmissionBlocksPerRequest = m.spec.maxAdmissionBlocksPerRequest 8 s.kv.maxModelLen ∧
        40 ≤ s.kv.maxModelLen ∧ Reserves "a" 40 0 { pool := s.kv.pool, manager := m } ∧
        Reached (· = { pool := s.kv.pool, manager := m }) (Ledger.step "a")
          (fun l op => Ledger.Allowed "a" 40 l op ∧ l.Alone "a" 8 op) l ∧
        l.net = 1 := by
  obtain ⟨s, hreach, m, hm, hkind, hcap, hmax, hlen, hrequired, hcovered, l, hl, hnet⟩ :=
    exists_reached_kv 32
    (fun pool => withAdmissionCaps 8 (smallKv [.fullAttention, .slidingWindow 5 0] pool))
    (fun _ hpool => (kvInit_smallKv hpool).withAdmissionCaps 8)
    (chunkOps ((List.range 40).map Int.ofNat) 2 [(0, 8, 0), (8, 8, 0), (16, 4, 0)])
    (fun s op => op.Allowed s)
    (fun s => ∃ m ∈ s.kv.managers, m.spec.kind = .slidingWindow 5 0 ∧
      m.maxAdmissionBlocksPerRequest = m.spec.maxAdmissionBlocksPerRequest 8 s.kv.maxModelLen ∧
      40 ≤ s.kv.maxModelLen ∧ (m.blocksOf "a").length = 5 ∧ requiredBlocks m 40 = 4 ∧
      20 ≤ (m.blocksOf "a").length * m.blockSize ∧
      ∃ l ∈ Ledger.nextChunk "a" 8 20 28 { pool := s.kv.pool, manager := m }, l.net = 1)
    (by decide +kernel)
  exact ⟨s, m, l, hreach, hm, hkind, hcap, hmax,
    KvReachable.reserves hreach hm hkind hcovered hrequired hlen,
    Ledger.reached_nextChunk hl (by decide), hnet⟩

end Lvllm
