import Lvllm.KVCache.KvRuns
import Mathlib.Algebra.BigOperators.Fin
import Mathlib.Data.List.TakeWhile

/-!
# The common prefix for cascade attention

`get_num_common_prefix_blocks` counts the leading blocks of a request whose reference count is the
number of requests in the group.  That infers "in every table" from a number of references.  It is
right when every reference of these blocks is an entry of some table, since a block stands at one
index of one group and at most once in a table.  References that callers hold for freed requests and
for copies break the inference.
-/

namespace Lvllm

open SingleTypeKVCacheManager KVCacheManager List

variable {H : Type} [DecidableEq H]

/-! ## What a query returns -/

/-- The number that the manager of one group returns. -/
def numCommonPrefixBlocks (p : BlockPool H) (m : SingleTypeKVCacheManager) (id : String) : ℕ :=
  if m.spec.isFullAttention then
    ((m.blocksOf id).takeWhile fun b =>
      (p.blocks b).refCnt == ((m.readBlocks id).reqToBlocks.size : ℤ)).length
  else 0

variable {id : String}

omit [DecidableEq H] in
/-- What a manager returns, with the table it may make. -/
lemma getNumCommonPrefixBlocks_eq_ok {p p' : BlockPool H} {m m' : SingleTypeKVCacheManager} {n : ℕ}
    (h : SingleTypeKVCacheManager.getNumCommonPrefixBlocks id (p, m) = .ok n (p', m')) :
    p' = p ∧ n = numCommonPrefixBlocks p m id := by
  unfold SingleTypeKVCacheManager.getNumCommonPrefixBlocks at h
  rw [bind_get] at h
  unfold numCommonPrefixBlocks KVCacheSpec.isFullAttention
  cases hkind : m.spec.kind with
  | _ =>
    simp only [hkind] at h
    cases h
    exact ⟨rfl, rfl⟩

omit [DecidableEq H] in
/-- Each group's number is that of its manager, in the state of the call. -/
lemma getNumCommonPrefixBlocks_groups {s s' : KVCacheManager H} {ns : List ℕ}
    (hc : s.enableCaching = true) (h : KVCacheManager.getNumCommonPrefixBlocks id s = .ok ns s')
    {i : ℕ} {m : SingleTypeKVCacheManager} (hm : s.managers[i]? = some m) :
    ns[i]? = some (numCommonPrefixBlocks s.pool m id) := by
  unfold KVCacheManager.getNumCommonPrefixBlocks at h
  rw [bind_get] at h
  rw [if_pos hc] at h
  obtain ⟨p', ms', hloop, -⟩ := onManagers_eq_ok h
  obtain ⟨⟨-, -, hlen, hns⟩, -⟩ := runManagers_invariant (fun _ _ _ => True)
    (fun i ns p ms => p = s.pool ∧ (∀ k, i ≤ k → ms[k]? = s.managers[k]?) ∧ ns.length = i ∧
      ∀ (k : ℕ) m, k < i → s.managers[k]? = some m →
        ns[k]? = some (numCommonPrefixBlocks s.pool m id))
    (fun i ns p ms m n p' m' hJ hm hn => by
      obtain ⟨rfl, hrest, hlen, hns⟩ := hJ
      obtain ⟨rfl, rfl⟩ := getNumCommonPrefixBlocks_eq_ok hn
      refine ⟨⟨rfl, fun k hk => ?_, by simp [hlen], fun k m1 hk hm1 => ?_⟩, trivial⟩
      · rw [getElem?_set_ne (by omega)]
        exact hrest k (by omega)
      · rcases Nat.lt_succ_iff_lt_or_eq.1 hk with hlt | rfl
        · rw [getElem?_append_left (by omega)]
          exact hns k m1 hlt hm1
        · rw [hrest k le_rfl] at hm
          obtain rfl := Option.some.inj (hm.symm.trans hm1)
          simp [hlen])
    ⟨rfl, fun _ _ => rfl, rfl, fun k _ hk => absurd hk (Nat.not_lt_zero k)⟩ hloop
  exact hns i m (List.getElem?_eq_some_iff.1 hm).1 hm

/-! ## Blocks that all requests share -/

omit [DecidableEq H] in
/-- A sum with one term that is not zero. -/
lemma sum_map_eq_of_others {α : Type} (f : α → ℕ) {l : List α} {i : ℕ} {a : α} (h : l[i]? = some a)
    (hzero : ∀ (k : ℕ) (a' : α), l[k]? = some a' → k ≠ i → f a' = 0) : (l.map f).sum = f a := by
  obtain ⟨hi, rfl⟩ := List.getElem?_eq_some_iff.1 h
  rw [← Fin.sum_univ_fun_getElem]
  refine Finset.sum_eq_single (⟨i, hi⟩ : Fin l.length) (fun k _ hne => ?_) (by simp)
  exact hzero k _ (List.getElem?_eq_getElem k.2) fun heq => hne (Fin.ext heq)

variable {p : BlockPool H} {Q held : List ℕ} {ms : List SingleTypeKVCacheManager} {i : ℕ}
  {m : SingleTypeKVCacheManager}

/-- A block of one table occurs there once, and in tables of its group only. -/
lemma KvInv.count_entries (h : KvInv p Q ms held) (hm : ms[i]? = some m) {j b : ℕ}
    (hj : (m.blocksOf id)[j]? = some b) (hb : b ≠ p.nullBlock) :
    (∀ e ∈ m.reqToBlocks.entries, e.2.count b ≤ 1 ∧ ∀ j', e.2[j']? = some b → j' = j) ∧
      ∀ (k : ℕ) m', ms[k]? = some m' → k ≠ i → m'.reqToBlocks.sum (·.count b) = 0 := by
  obtain ⟨pos, hpos⟩ := h.placed
  have hposb : pos b = (i, j) := hpos.table i m hm id j b hj hb
  have hindex : ∀ {k : ℕ} {m' : SingleTypeKVCacheManager}, ms[k]? = some m' →
      ∀ e ∈ m'.reqToBlocks.entries, ∀ j', e.2[j']? = some b → k = i ∧ j' = j := by
    intro k m' hm' e he j' hj'
    have hget : m'.reqToBlocks.get? e.1 = some e.2 := Dict.get?_eq_some.2 he
    have hblocks : m'.blocksOf e.1 = e.2 := by
      rw [blocksOf, hget]
      rfl
    have heq := (hpos.table k m' hm' e.1 j' b (by rw [hblocks]; exact hj') hb).symm.trans hposb
    exact ⟨congrArg Prod.fst heq, congrArg Prod.snd heq⟩
  refine ⟨fun e he => ⟨count_le_one_of_index_unique fun j1 j2 h1 h2 => ?_, fun j' hj' =>
    (hindex hm e he j' hj').2⟩, fun k m' hm' hk => sum_eq_zero fun x hx => ?_⟩
  · rw [(hindex hm e he j1 h1).2, (hindex hm e he j2 h2).2]
  · obtain ⟨e, he, rfl⟩ := mem_map.1 hx
    refine count_eq_zero.2 fun hmem => hk ?_
    obtain ⟨j', hj'⟩ := getElem?_of_mem hmem
    exact (hindex hm' e he j' hj').1

/-- A block whose references are all table entries, as many as there are tables, is at one index in
every table. -/
lemma KvInv.mem_every_table (h : KvInv p Q ms held) (hm : ms[i]? = some m) {j b : ℕ}
    (hj : (m.blocksOf id)[j]? = some b) (hb : b ≠ p.nullBlock) (hheld : b ∉ held)
    (hretained : ∀ m' ∈ ms, b ∉ m'.retained) (hcnt : (p.blocks b).refCnt = (m.reqToBlocks.size : ℤ)) :
    ∀ e ∈ m.reqToBlocks.entries, e.2[j]? = some b := by
  obtain ⟨hentries, hothers⟩ := h.count_entries hm hj hb
  have hrefs : ∀ m' ∈ ms, m'.refs b = m'.reqToBlocks.sum (·.count b) := fun m' hm' => by
    rw [refs, count_eq_zero.2 (hretained m' hm'), Nat.add_zero]
  have htotal : totalRefs ms b = m.reqToBlocks.sum (·.count b) := by
    rw [← hrefs m (mem_of_getElem? hm)]
    refine sum_map_eq_of_others _ hm fun k m' hm' hk => ?_
    rw [hrefs m' (mem_of_getElem? hm'), hothers k m' hm' hk]
  have hsum : m.reqToBlocks.sum (·.count b) = m.reqToBlocks.size := by
    have href := h.refCnt_eq b hb
    rw [hcnt, htotal, count_eq_zero.2 hheld] at href
    omega
  intro e he
  have hone := Dict.eq_one_of_sum_eq_size (fun e he => (hentries e he).1) hsum e he
  obtain ⟨j', hj'⟩ := getElem?_of_mem (count_pos_iff.1 (by omega : 0 < e.2.count b))
  rwa [(hentries e he).2 j' hj'] at hj'

/-! ## Soundness of the count -/

/-- All references of the request's blocks in the group are entries of tables: no caller holds one,
and no pending copy retains one. -/
def OnlyTableRefs (s : KvState H) (m : SingleTypeKVCacheManager) (id : String) : Prop :=
  ∀ b ∈ m.blocksOf id, b ∉ s.held ∧ ∀ m' ∈ s.kv.managers, b ∉ m'.retained

/-- The first blocks that the manager of a full attention group counts are in every table. -/
lemma numCommonPrefixBlocks_sound {s : KvState H} (hs : KvReachable s)
    (hm : s.kv.managers[i]? = some m) (honly : OnlyTableRefs s m id) {id' : String}
    {blocks : List ℕ} (hblocks : m.reqToBlocks.get? id' = some blocks) :
    blocks.take (numCommonPrefixBlocks s.kv.pool m id) =
      (m.blocksOf id).take (numCommonPrefixBlocks s.kv.pool m id) := by
  unfold numCommonPrefixBlocks
  split
  · rename_i hfull
    have hok := hs.kvOk
    obtain ⟨Q, hinv⟩ := hok.inv
    -- The query reads the table, so that the request counts as one of the group.
    have hread : KvInv s.kv.pool Q (s.kv.managers.set i (m.readBlocks id)) s.held :=
      hinv.retable hm hok.collisionFree ⟨rfl, rfl, rfl⟩ (fun b => by rw [refs_readBlocks])
        fun id1 j b hj => ⟨id1, by rwa [blocksOf_readBlocks] at hj⟩
    have hm' : (s.kv.managers.set i (m.readBlocks id))[i]? = some (m.readBlocks id) :=
      getElem?_set_self (List.getElem?_eq_some_iff.1 hm).1
    have hentry : (id', blocks) ∈ (m.readBlocks id).reqToBlocks.entries := by
      rw [← Dict.get?_eq_some]
      by_cases hid : id' = id
      · subst hid
        rw [readBlocks, setBlocks, blocksOf, hblocks]
        exact Dict.get?_set_self _ _ _
      · exact (Dict.get?_set_ne _ hid _).trans hblocks
    refine ext_getElem? fun j => ?_
    rw [getElem?_take, getElem?_take]
    split
    · rename_i hlt
      have hsub := takeWhile_prefix (l := m.blocksOf id) fun b =>
        (s.kv.pool.blocks b).refCnt == ((m.readBlocks id).reqToBlocks.size : ℤ)
      have hj : j < (m.blocksOf id).length := hlt.trans_le hsub.length_le
      have hget := getElem?_eq_getElem hj
      have hmem : (m.blocksOf id)[j] ∈ m.blocksOf id := getElem_mem hj
      obtain ⟨hheld, hretained⟩ := honly _ hmem
      have hcnt : (s.kv.pool.blocks (m.blocksOf id)[j]).refCnt =
          ((m.readBlocks id).reqToBlocks.size : ℤ) := by
        have hcounted := mem_takeWhile_imp (getElem_mem hlt)
        rw [hsub.getElem hlt] at hcounted
        exact beq_iff_eq.1 hcounted
      have hnull : (m.blocksOf id)[j] ≠ s.kv.pool.nullBlock := fun heq =>
        hinv.noNull m (mem_of_getElem? hm) hfull id (heq ▸ hmem)
      have hget' : ((m.readBlocks id).blocksOf id)[j]? = some (m.blocksOf id)[j] := by
        rw [blocksOf_readBlocks, hget]
      rw [hget]
      refine hread.mem_every_table hm' hget' hnull hheld (fun m1 hm1 => ?_) hcnt _ hentry
      rcases mem_or_eq_of_mem_set hm1 with hold | rfl
      · exact hretained m1 hold
      · exact hretained m (mem_of_getElem? hm)
    · rfl
  · simp only [take_zero]

/-- In every state reached: if all references of the request's blocks are entries of tables, the
count of a full attention group is the length of a prefix that every request of the group has. -/
theorem common_prefix_shared_by_all {s : KvState H} (hs : KvReachable s) {id : String}
    {ns : List ℕ} {kv' : KVCacheManager H}
    (hrun : KVCacheManager.getNumCommonPrefixBlocks id s.kv = .ok ns kv')
    (hm : s.kv.managers[i]? = some m) (honly : OnlyTableRefs s m id) {n : ℕ}
    (hn : ns[i]? = some n) {id' : String} {blocks : List ℕ}
    (hblocks : m.reqToBlocks.get? id' = some blocks) :
    blocks.take n = (m.blocksOf id).take n := by
  cases hc : s.kv.enableCaching with
  | true =>
    rw [getNumCommonPrefixBlocks_groups hc hrun hm, Option.some.injEq] at hn
    subst hn
    exact numCommonPrefixBlocks_sound hs hm honly hblocks
  | false =>
    unfold KVCacheManager.getNumCommonPrefixBlocks at hrun
    rw [bind_get, hc] at hrun
    cases hrun
    rw [getElem?_map, hm] at hn
    cases hn
    simp only [take_zero]

/-- The value that code returned. -/
def returnedValue {σ α : Type} : EStateM.Result PyErr σ α → Option α
  | .ok x _ => some x
  | .error _ _ => none

omit [DecidableEq H] in
lemma returnedValue_eq_some {σ α : Type} {res : EStateM.Result PyErr σ α} {x : α}
    (h : returnedValue res = some x) : ∃ s', res = .ok x s' := by
  cases res with
  | ok y s' =>
    cases h
    exact ⟨s', rfl⟩
  | error e s' => cases h

/-- Three requests of one full attention group: `"a"` and `"b"` start with the same block, and
`"c"` does not. -/
def sharedPrefixOps : List (KvOp FreeHash) :=
  [.allocateSlots (namedRequest "a" [1, 2, 3, 4, 5]) (textContents [1, 2, 3, 4, 5])
      { numNewTokens := 5, newComputedBlocks := [[]] },
    .allocateSlots (namedRequest "b" [1, 2, 3, 4, 6]) (textContents [1, 2, 3, 4, 6])
      { numNewTokens := 1, numNewComputedTokens := 4, newComputedBlocks := [[1]] },
    .allocateSlots (namedRequest "c" [7, 8, 9, 10, 11]) (textContents [7, 8, 9, 10, 11])
      { numNewTokens := 5, newComputedBlocks := [[]] }]

/-- Two requests share their first block, and the count says so. -/
theorem common_prefix_of_two_requests :
    ∃ (s : KvState FreeHash) (m : SingleTypeKVCacheManager) (ns blocks : List ℕ)
      (kv' : KVCacheManager FreeHash), KvReachable s ∧ s.kv.managers[0]? = some m ∧
      m.spec.isFullAttention = true ∧ OnlyTableRefs s m "b" ∧
      KVCacheManager.getNumCommonPrefixBlocks "b" s.kv = .ok ns kv' ∧ ns[0]? = some 1 ∧
      m.reqToBlocks.get? "a" = some blocks ∧ blocks.take 1 = (m.blocksOf "b").take 1 := by
  obtain ⟨s, hreach, m, hm, hfull, honly, ⟨ns, hns, hone⟩, blocks, hblocks, -⟩ :=
    exists_reached_kv 16 (smallKv [.fullAttention]) (fun _ => kvInit_smallKv)
    (sharedPrefixOps.take 2) (fun s op => op.Allowed s)
    (fun s => ∃ m ∈ s.kv.managers[0]?, m.spec.isFullAttention = true ∧
      (∀ b ∈ m.blocksOf "b", b ∉ s.held ∧ ∀ m' ∈ s.kv.managers, b ∉ m'.retained) ∧
      (∃ ns ∈ returnedValue (KVCacheManager.getNumCommonPrefixBlocks "b" s.kv), ns[0]? = some 1) ∧
      ∃ blocks ∈ m.reqToBlocks.get? "a", True) (by decide +kernel)
  obtain ⟨kv', hret⟩ := returnedValue_eq_some hns
  exact ⟨s, m, ns, blocks, kv', hreach, hm, hfull, honly, hret, hone, hblocks,
    common_prefix_shared_by_all hreach hret hm honly hone hblocks⟩

/-- Request `"a"` is popped and its blocks are freed later.  The reference that the deferred free
holds makes the count of `"b"` one, but `"c"` does not have that block. -/
theorem common_prefix_not_shared_after_pop :
    ∃ (s : KvState FreeHash) (m : SingleTypeKVCacheManager) (ns blocks : List ℕ)
      (kv' : KVCacheManager FreeHash), KvReachable s ∧ s.kv.managers[0]? = some m ∧
      m.spec.isFullAttention = true ∧
      KVCacheManager.getNumCommonPrefixBlocks "b" s.kv = .ok ns kv' ∧ ns[0]? = some 1 ∧
      m.reqToBlocks.get? "c" = some blocks ∧ blocks.take 1 ≠ (m.blocksOf "b").take 1 := by
  obtain ⟨s, hreach, m, hm, hfull, ⟨ns, hns, hone⟩, blocks, hblocks, hne⟩ :=
    exists_reached_kv 16 (smallKv [.fullAttention]) (fun _ => kvInit_smallKv)
    (sharedPrefixOps ++ [.popBlocksForFree "a"]) (fun s op => op.Allowed s)
    (fun s => ∃ m ∈ s.kv.managers[0]?, m.spec.isFullAttention = true ∧
      (∃ ns ∈ returnedValue (KVCacheManager.getNumCommonPrefixBlocks "b" s.kv), ns[0]? = some 1) ∧
      ∃ blocks ∈ m.reqToBlocks.get? "c", blocks.take 1 ≠ (m.blocksOf "b").take 1)
    (by decide +kernel)
  obtain ⟨kv', hret⟩ := returnedValue_eq_some hns
  exact ⟨s, m, ns, blocks, kv', hreach, hm, hfull, hret, hone, hblocks, hne⟩

/-- **Blocks are shared in place and none leaks.**  In every state reached a block is at one index of
one group in all tables; its count is that of its references; it is free if and only if it has none,
and writable only if it has one. -/
theorem blocks_shared_in_place {s : KvState H} (h : KvReachable s) :
    ∃ (Q : List ℕ) (pos : ℕ → ℕ × ℕ), s.kv.pool.freeBlockQueue.Holds Q ∧
      ∀ b ≠ s.kv.pool.nullBlock, ∃ refs, refs = totalRefs s.kv.managers b + s.held.count b ∧
        (∀ i m id j, s.kv.managers[i]? = some m → (m.blocksOf id)[j]? = some b → pos b = (i, j)) ∧
        (s.kv.pool.blocks b).refCnt = refs ∧ (b ∈ Q ↔ b < s.kv.pool.numGpuBlocks ∧ refs = 0) ∧
        (s.kv.pool.isBlockWritable b → refs = 1) := by
  obtain ⟨Q, hinv⟩ := h.kvOk.inv
  obtain ⟨pos, hpos⟩ := hinv.placed
  refine ⟨Q, pos, hinv.free.holds, fun b hb => ⟨_, rfl, ?_⟩⟩
  have hcnt := hinv.refCnt_eq b hb
  refine ⟨fun i m id j hm hj => hpos.table i m hm id j b hj hb, hcnt, ?_, fun hw => ?_⟩
  · rw [hinv.free.mem_iff, hinv.free.isNull_eq_false_iff, hcnt]
    omega
  · simp only [BlockPool.isBlockWritable, Bool.and_eq_true, beq_iff_eq] at hw
    omega

/-- The block that two requests share is not writable. -/
theorem shared_block_not_writable : ∃ s : KvState FreeHash, KvReachable s ∧
    totalRefs s.kv.managers 1 + s.held.count 1 = 2 ∧ s.kv.pool.isBlockWritable 1 = false := by
  obtain ⟨s, hs, hb, hrefs⟩ := exists_reached_kv 16 (smallKv [.fullAttention])
    (fun _ => kvInit_smallKv) (sharedPrefixOps.take 2) (fun s op => op.Allowed s)
    (fun s => 1 ≠ s.kv.pool.nullBlock ∧ totalRefs s.kv.managers 1 + s.held.count 1 = 2)
    (by decide +kernel)
  obtain ⟨_, _, -, hall⟩ := blocks_shared_in_place hs
  obtain ⟨_, rfl, -, -, -, hone⟩ := hall 1 hb
  exact ⟨s, hs, hrefs, by simpa [hrefs] using hone⟩

end Lvllm
