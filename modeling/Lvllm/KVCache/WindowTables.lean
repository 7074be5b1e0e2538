import Lvllm.KVCache.KvOps
import Lvllm.KVCache.NullPrefix

/-!
# What a call does to the tables of groups that skip blocks

`remove_skipped_blocks` puts null blocks in front, a prefix hit starts a table with null blocks and
hits, and the allocation appends new blocks up to the slots asked for.  The lemmas here say so for
each call of the coordinator and for `allocate_slots`, one table at a time.
-/

namespace Lvllm

open SingleTypeKVCacheManager List KVCacheSpec KVCacheManager

variable {H : Type}

variable {p p' : BlockPool H} {m m' : SingleTypeKVCacheManager} {n ext nullBlock : ℕ} {id : String}
  {spec : KVCacheSpec}

lemma exists_related {ms ms' : List SingleTypeKVCacheManager} {i : ℕ}
    {R : ℕ → SingleTypeKVCacheManager → SingleTypeKVCacheManager → Prop}
    (hlen : ms'.length = ms.length)
    (hR : ∀ k m m', ms[k]? = some m → ms'[k]? = some m' → R k m m') (hm : ms[i]? = some m) :
    ∃ m', ms'[i]? = some m' ∧ R i m m' := by
  have hlt : i < ms'.length := hlen ▸ (List.getElem?_eq_some_iff.1 hm).1
  exact ⟨_, getElem?_eq_getElem hlt, hR i m _ hm (getElem?_eq_getElem hlt)⟩

/-! ## Skipped blocks -/

/-- The number of skipped blocks depends on the spec only. -/
lemma skippedBlocks_congr (h : m'.spec = m.spec) (n : ℕ) :
    m'.getNumSkippedTokens n / m'.blockSize = m.getNumSkippedTokens n / m.blockSize := by
  unfold getNumSkippedTokens SingleTypeKVCacheManager.blockSize
  rw [h]

/-- The table of `id` has null blocks in place of the blocks skipped after `n` tokens. -/
structure TablesSkipped (nullBlock : ℕ) (id : String) (n : ℕ) (m m' : SingleTypeKVCacheManager) :
    Prop where
  group : SameGroup m m'
  others : ∀ id', id' ≠ id → m'.blocksOf id' = m.blocksOf id'
  table : m'.blocksOf id = (nullBlocksDownFrom nullBlock
    (min (m.getNumSkippedTokens n / m.blockSize) (m.blocksOf id).length) (m.blocksOf id)).2

/-- `remove_skipped_blocks` of one manager writes the table of `id`, or nothing is skipped. -/
lemma removeSkippedBlocks_eq_ok (h : removeSkippedBlocks id n (p, m) = .ok () (p', m')) :
    ∃ result, result = nullBlocksDownFrom p.nullBlock (min (m.getNumSkippedTokens n / m.blockSize)
        (m.blocksOf id).length) (m.blocksOf id) ∧
      (m' = m ∧ result = ([], m.blocksOf id) ∨ m' = m.setBlocks id result.2) := by
  unfold SingleTypeKVCacheManager.removeSkippedBlocks at h
  rw [bind_get] at h
  dsimp only at h
  refine ⟨_, rfl, ?_⟩
  by_cases hskip : m.getNumSkippedTokens n = 0
  · rw [if_pos hskip] at h
    cases h
    rw [hskip, Nat.zero_div, Nat.zero_min]
    exact .inl ⟨rfl, rfl⟩
  · rw [if_neg hskip, bind_ok (modifyManager_apply _ p m)] at h
    refine .inr ?_
    split at h
    · cases h
      rfl
    · obtain ⟨p1, -, heq⟩ := onPool_eq_ok.1 h
      exact (Prod.mk.inj heq).2

lemma removeSkippedBlocks_tables (h : removeSkippedBlocks id n (p, m) = .ok () (p', m')) :
    TablesSkipped p.nullBlock id n m m' := by
  obtain ⟨result, hresult, ⟨rfl, hnone⟩ | rfl⟩ := removeSkippedBlocks_eq_ok h
  · exact ⟨.refl _, fun _ _ => rfl, by rw [← hresult, hnone]⟩
  · refine ⟨⟨rfl, rfl, rfl⟩, fun id' hid => blocksOf_setBlocks_ne _ hid _, ?_⟩
    rw [← hresult]
    exact blocksOf_setBlocks_self _ _ _

/-- Null blocks still come first, and none of the skipped blocks is left. -/
lemma TablesSkipped.nullPrefix {k : ℕ} (h : TablesSkipped nullBlock id n m m')
    (hk : NullPrefix nullBlock k (m.blocksOf id)) :
    NullPrefix nullBlock
      (max k (min (m.getNumSkippedTokens n / m.blockSize) (m.blocksOf id).length))
      (m'.blocksOf id) := by
  rw [h.table]
  exact hk.nullBlocksDownFrom (Nat.min_le_right _ _)

lemma TablesSkipped.length_eq (h : TablesSkipped nullBlock id n m m') :
    (m'.blocksOf id).length = (m.blocksOf id).length := by
  rw [h.table]
  exact (nullBlocksDownFrom_spec _ _ _).length_eq

/-! ## New blocks -/

/-- New blocks, none of them null, follow in the table of `id`. -/
structure TablesGrown (nullBlock : ℕ) (id : String) (m m' : SingleTypeKVCacheManager) : Prop where
  group : SameGroup m m'
  others : ∀ id', id' ≠ id → m'.blocksOf id' = m.blocksOf id'
  table : ∃ new, m'.blocksOf id = m.blocksOf id ++ new ∧ nullBlock ∉ new
  partialHitReqs_eq : m'.partialHitReqs = m.partialHitReqs

lemma TablesGrown.refl (nullBlock : ℕ) (id : String) (m : SingleTypeKVCacheManager) :
    TablesGrown nullBlock id m m :=
  ⟨.refl m, fun _ _ => rfl, ⟨[], (append_nil _).symm, not_mem_nil⟩, rfl⟩

lemma TablesGrown.trans {m'' : SingleTypeKVCacheManager} (h : TablesGrown nullBlock id m m')
    (h' : TablesGrown nullBlock id m' m'') :
    TablesGrown nullBlock id m m'' := by
  obtain ⟨new, heq, hnew⟩ := h.table
  obtain ⟨new', heq', hnew'⟩ := h'.table
  refine ⟨⟨h'.group.1.trans h.group.1, h'.group.2.trans h.group.2, h'.group.3.trans h.group.3⟩,
    fun id' hid => (h'.others id' hid).trans (h.others id' hid), ⟨new ++ new', ?_, ?_⟩,
    h'.partialHitReqs_eq.trans h.partialHitReqs_eq⟩
  · rw [heq', heq, append_assoc]
  · exact fun hmem => (mem_append.1 hmem).elim hnew hnew'

lemma TablesGrown.nullPrefix {k : ℕ} (h : TablesGrown nullBlock id m m')
    (hk : NullPrefix nullBlock k (m.blocksOf id)) :
    NullPrefix nullBlock k (m'.blocksOf id) := by
  obtain ⟨new, heq, hnew⟩ := h.table
  rw [heq]
  exact hk.append hnew

/-- A group that skips blocks: a sliding window or chunked local attention. -/
def KVCacheSpec.skipsBlocks (spec : KVCacheSpec) : Bool :=
  spec.participatesInPrefixCaching && !spec.isFullAttention

lemma KVCacheSpec.skipsBlocks_iff : spec.skipsBlocks = true ↔
      spec.participatesInPrefixCaching = true ∧ spec.isFullAttention = false := by
  rw [skipsBlocks, Bool.and_eq_true, Bool.not_eq_true']

lemma skipsBlocks_of_slidingWindow {window : ℕ+} {extra : ℕ}
    (h : spec.kind = .slidingWindow window extra) : spec.skipsBlocks = true := by
  simp [skipsBlocks, participatesInPrefixCaching, isFullAttention, h]

variable [DecidableEq H] {xs : List Unit}

section Manager

variable {p p' : BlockPool H} {Q held : List ℕ} {ms : List SingleTypeKVCacheManager} {i : ℕ}
  {m m' : SingleTypeKVCacheManager} {id : String}

/-- The table of `id` grows by the first `n` blocks of the free queue. -/
structure Grows (p p' : BlockPool H) (Q : List ℕ) (ms : List SingleTypeKVCacheManager) (i : ℕ)
    (m m' : SingleTypeKVCacheManager) (held : List ℕ) (id : String) (n : ℕ) : Prop where
  inv : KvInv p' (Q.drop n) (ms.set i m') held
  le_length : n ≤ Q.length
  pool : SamePool p p'
  tables : TablesGrown p.nullBlock id m m'
  length_eq : (m'.blocksOf id).length = (m.blocksOf id).length + n

variable (h : KvInv p Q ms held) (hm : ms[i]? = some m) (hbh : p.hasher.CollisionFree) {bs : List ℕ}

include h hm hbh

/-- Nothing is taken, and the table may have got an entry. -/
lemma Grows.zero (hgroup : SameGroup m m') (hblocks : ∀ id', m'.blocksOf id' = m.blocksOf id')
    (hrefs : ∀ b, m'.refs b = m.refs b) (hpart : m'.partialHitReqs = m.partialHitReqs) :
    Grows p p Q ms i m m' held id 0 := by
  refine ⟨h.retable hm hbh hgroup (fun b => by rw [hrefs]) fun id' j b hj => ⟨id', ?_⟩,
    Nat.zero_le _, .refl p, ⟨hgroup, fun id' _ => hblocks id', ⟨[], ?_, not_mem_nil⟩, hpart⟩,
    by rw [hblocks, Nat.add_zero]⟩
  · rwa [hblocks] at hj
  · rw [hblocks, append_nil]

/-- Blocks from the free queue are appended. -/
lemma KvInv.appendNewBlocks_grows
    (hrun : SingleTypeKVCacheManager.appendNewBlocks id n (p, m) = .ok bs (p', m')) :
    Grows p p' Q ms i m m' held id n := by
  have hn : n ≤ Q.length := by
    obtain ⟨bs1, t, hpool, -⟩ := bind_eq_ok.1 hrun
    obtain ⟨p1, hget, -⟩ := onPool_eq_ok.1 hpool
    exact (BlockPool.getNewBlocks_eq_ok h.free hget).1
  obtain ⟨p1, hrun1, hpool, hinv⟩ := h.appendNewBlocks hm hbh hn id
  rw [hrun1] at hrun
  cases hrun
  refine ⟨hinv, hn, hpool, ⟨⟨rfl, rfl, rfl⟩, fun id' hid => blocksOf_setBlocks_ne _ hid _,
    ⟨Q.take n, blocksOf_addBlocks_self _ _ _, fun hmem => ?_⟩, rfl⟩, ?_⟩
  · exact h.free.nullBlock_not_mem (mem_of_mem_take hmem)
  · rw [blocksOf_addBlocks_self, length_append, length_take_of_le hn]

/-- `allocate_external_computed_blocks` appends at most the blocks up to the external tokens. -/
lemma KvInv.allocateExternalComputedBlocks_grows (hspec : m.spec.participatesInPrefixCaching = true)
    (hrun : allocateExternalComputedBlocks id n ext (p, m) = .ok () (p', m')) :
    ∃ k, Grows p p' Q ms i m m' held id k ∧
      (m.blocksOf id).length + k ≤ max (m.blocksOf id).length (cdiv (n + ext) m.blockSize) := by
  unfold allocateExternalComputedBlocks at hrun
  rw [bind_get] at hrun
  unfold participatesInPrefixCaching at hspec
  cases hkind : m.spec.kind with
  | circularBuffer | kpoolTail => simp [hkind] at hspec
  | _ =>
    simp only [hkind] at hrun
    generalize (if m.getNumSkippedTokens (n + ext) > 0 then
      min (n + ext - m.getNumSkippedTokens (n + ext)) ext else ext) = ext' at hrun
    by_cases hext : ext' = 0
    · rw [if_pos hext] at hrun
      cases hrun
      exact ⟨0, .zero h hm hbh (.refl m) (fun _ => rfl) (fun _ => rfl) rfl, le_max_left _ _⟩
    · rw [if_neg hext] at hrun
      obtain ⟨bs, ⟨p1, m1⟩, happend, hpure⟩ := bind_eq_ok.1 hrun
      cases hpure
      exact ⟨_, h.appendNewBlocks_grows hm hbh happend, by omega⟩

/-- `allocate_new_blocks` appends the blocks up to the slots asked for. -/
lemma KvInv.allocateNewBlocks_grows (hspec : m.spec.participatesInPrefixCaching = true)
    (hpart : m.partialHitReqs.get? id = none) {numTokens : ℕ}
    (hrun : allocateNewBlocks id numTokens (p, m) = .ok bs (p', m')) :
    ∃ k, Grows p p' Q ms i m m' held id k ∧
      (m.blocksOf id).length + k = max (m.blocksOf id).length (cdiv numTokens m.blockSize) := by
  have hredirect : SingleTypeKVCacheManager.redirectPartialHit id (p, m) = .ok [] (p, m) := by
    unfold SingleTypeKVCacheManager.redirectPartialHit
    rw [bind_get]
    simp only [hpart]
    rfl
  unfold SingleTypeKVCacheManager.allocateNewBlocks at hrun
  rw [bind_get] at hrun
  unfold KVCacheSpec.participatesInPrefixCaching at hspec
  cases hkind : m.spec.kind with
  | circularBuffer | kpoolTail => simp [hkind] at hspec
  | _ =>
    simp only [hkind] at hrun
    rw [bind_ok hredirect, bind_get] at hrun
    by_cases hle : cdiv numTokens m.blockSize ≤ (m.blocksOf id).length
    · simp only [hle, if_true] at hrun
      cases hrun
      exact ⟨0, .zero h hm hbh ⟨rfl, rfl, rfl⟩ (blocksOf_readBlocks m id)
        (refs_readBlocks m id) rfl, (Nat.max_eq_left hle).symm⟩
    · simp only [hle, if_false] at hrun
      obtain ⟨new, ⟨p1, m1⟩, happend, hpure⟩ := bind_eq_ok.1 hrun
      cases hpure
      exact ⟨_, h.appendNewBlocks_grows hm hbh happend, by omega⟩

omit h hm hbh

omit [DecidableEq H] in
/-- `add_local_computed_blocks` writes the table of a new request. -/
lemma addLocalComputedBlocks_eq_ok (hspec : m.spec.participatesInPrefixCaching = true)
    {hits : List ℕ} (hrun : addLocalComputedBlocks id hits n ext (p, m) = .ok () (p', m')) :
    m' = m.recordComputedBlocks id (m.getNumSkippedTokens (n + ext) / m.blockSize) p.nullBlock
      (hits.drop (m.getNumSkippedTokens (n + ext) / m.blockSize)) n := by
  unfold addLocalComputedBlocks at hrun
  rw [bind_get] at hrun
  unfold participatesInPrefixCaching at hspec
  cases hkind : m.spec.kind with
  | circularBuffer | kpoolTail => simp [hkind] at hspec
  | _ =>
    simp only [hkind] at hrun
    split at hrun
    · split at hrun
      · obtain ⟨⟨⟩, ⟨p1, m1⟩, htouch, hmodify⟩ := bind_eq_ok.1 hrun
        obtain ⟨p2, -, heq⟩ := onPool_eq_ok.1 htouch
        cases heq
        cases hmodify
        rfl
      · split at hrun
        · cases hrun
          rfl
        · cases hrun
    · cases hrun

end Manager

namespace KVCacheManager

variable {s s' : KVCacheManager H} {held : List ℕ} {i : ℕ} {m : SingleTypeKVCacheManager}

/-- `remove_skipped_blocks` of the coordinator, one table at a time. -/
lemma KvOk.removeSkippedBlocks_tables (h : KvOk s held)
    (hrun : KVCacheManager.removeSkippedBlocks id n s = .ok () s') (hm : s.managers[i]? = some m) :
    ∃ m', s'.managers[i]? = some m' ∧ TablesSkipped s.pool.nullBlock id n m m' := by
  obtain ⟨xs, s1, hloop, hpure⟩ := bind_eq_ok.1 hrun
  cases hpure
  obtain ⟨p', ms', hms, rfl⟩ := onManagers_eq_ok hloop
  obtain ⟨-, hlen, hR⟩ := runManagers_invariant (fun _ => TablesSkipped s.pool.nullBlock id n)
    (fun _ _ p ms => (∃ Q, KvInv p Q ms held) ∧ s.pool.RefFrame p)
    (fun k _ p ms m x p1 m1 hJ hmk hx => by
      obtain ⟨⟨Q, hinv⟩, hframe⟩ := hJ
      obtain ⟨p2, m2, hrun2, hframe2, hstep, -⟩ :=
        hinv.removeSkippedBlocks hmk (hframe.hasher_eq ▸ h.collisionFree) id n
      have htables := removeSkippedBlocks_tables hx
      rw [hrun2] at hx
      cases hx
      exact ⟨⟨hstep.inv, hframe.trans hframe2⟩, hframe.nullBlock_eq ▸ htables⟩)
    ⟨h.inv, .refl _⟩ hms
  exact exists_related hlen hR hm

/-! ## `allocate_slots` -/

variable {r : Request H} {a : AllocateSlotsArgs}

/-- The table of group `i` before new blocks are appended: what it was, or what the hits make it. -/
def startTable (s : KVCacheManager H) (r : Request H) (a : AllocateSlotsArgs) (i : ℕ)
    (m : SingleTypeKVCacheManager) : List ℕ :=
  if bringsComputed a then
    let k := m.getNumSkippedTokens (a.numComputedTokens r) / m.blockSize
    List.replicate k s.pool.nullBlock ++ (a.newComputedBlocks.getD i []).drop k
  else m.blocksOf r.requestId

/-- Group `i` once the hits of a new request are recorded. -/
def recordHits (s : KVCacheManager H) (r : Request H) (a : AllocateSlotsArgs) (i : ℕ)
    (m : SingleTypeKVCacheManager) : SingleTypeKVCacheManager :=
  let k := m.getNumSkippedTokens (a.numComputedTokens r) / m.blockSize
  m.recordComputedBlocks r.requestId k s.pool.nullBlock ((a.newComputedBlocks.getD i []).drop k)
    (a.numLocalComputedTokens r)

/-- What an allocation does to the tables of one group. -/
structure TablesAllocated (nullBlock : ℕ) (id : String) (numTokens : ℕ) (start : List ℕ)
    (m m' : SingleTypeKVCacheManager) : Prop where
  group : SameGroup m m'
  others : ∀ id', id' ≠ id → m'.blocksOf id' = m.blocksOf id'
  table : ∃ new, m'.blocksOf id = start ++ new ∧ nullBlock ∉ new
  length_eq : (m'.blocksOf id).length = max start.length (cdiv numTokens m.blockSize)

lemma NewCall.noPartial_record (hcall : NewCall s r a) (hm : s.managers[i]? = some m)
    (hfull : m.spec.isFullAttention = false) :
    (s.recordHits r a i m).partialHitReqs.get? r.requestId = none := by
  have hn : a.numLocalComputedTokens r = a.numNewComputedTokens := by
    rw [AllocateSlotsArgs.numLocalComputedTokens, hcall.numComputedTokens_eq, Nat.zero_add]
  have hhit : PrefixHit s.pool s.managers a.newComputedBlocks (a.numLocalComputedTokens r) :=
    hn ▸ hcall.hit
  rw [recordHits, partialHitReqs_recordComputedBlocks, if_neg]
  · exact (hcall.fresh m (mem_of_getElem? hm)).partialHitReqs_eq
  · rintro ⟨-, hinner⟩
    rw [hasPartialLocalHit_drop hhit hm rfl, hasPartialLocalHit_iff] at hinner
    have := (hhit.ends i m hm hinner.1 hinner.2).1
    rw [hfull] at this
    cases this

variable {bs : List (List ℕ)}

section Parts

variable {p₀ : BlockPool H} {ms₀ : List SingleTypeKVCacheManager} {id : String}
  {numTokens slack : ℕ}

/-- A call on all managers, each of which takes its part of an allocation. -/
lemma Allocating.onManagers {α : Type} {f : ManagerM H α} {xs : List α}
    (R : SingleTypeKVCacheManager → SingleTypeKVCacheManager → Prop)
    (hbh : p₀.hasher.CollisionFree)
    (halloc : Allocating p₀ ms₀ held id numTokens slack s.pool s.managers)
    (hrun : KVCacheManager.onManagers (fun _ => f) s = .ok xs s')
    (hf : ∀ {p p' Q ms k m m' x}, KvInv p Q ms held → ms[k]? = some m → p.hasher.CollisionFree →
      m.PartialOk p.nullBlock id → m.slotsNeeded id numTokens ≤ Q.length →
      p.nullBlock = p₀.nullBlock → f (p, m) = .ok x (p', m') →
      (∃ Q', AllocStep p p' Q Q' ms k m m' held id numTokens) ∧ R m m') :
    Allocating p₀ ms₀ held id numTokens slack s'.pool s'.managers ∧
      ∀ (i : ℕ) m, s.managers[i]? = some m → ∃ m', s'.managers[i]? = some m' ∧ R m m' := by
  obtain ⟨p', ms', hms, rfl⟩ := onManagers_eq_ok hrun
  obtain ⟨halloc', hlen, htables⟩ := runManagers_invariant (fun _ => R)
    (fun _ _ => Allocating p₀ ms₀ held id numTokens slack)
    (fun k _ p ms m x p1 m1 hJ hmk hx => by
      obtain ⟨Q, hinv, hpart, hQ, hneeded⟩ := hJ.slotsNeeded_le hmk
      obtain ⟨⟨Q', hstep⟩, hR⟩ := hf hinv hmk (hJ.pool.hasher_eq ▸ hbh) hpart hneeded
        hJ.pool.nullBlock_eq hx
      exact ⟨hJ.step hQ hmk hstep, hR⟩)
    halloc hms
  exact ⟨halloc', fun i m hm => exists_related hlen htables hm⟩

lemma allocateExternal_tables (hbh : p₀.hasher.CollisionFree) (hle : n + ext ≤ numTokens)
    (halloc : Allocating p₀ ms₀ held id numTokens slack s.pool s.managers)
    (hrun : onManagers (fun _ => allocateExternalComputedBlocks id n ext) s = .ok xs s') :
    Allocating p₀ ms₀ held id numTokens slack s'.pool s'.managers ∧
      ∀ (i : ℕ) m, s.managers[i]? = some m → ∃ m', s'.managers[i]? = some m' ∧
        (m.spec.participatesInPrefixCaching = true → TablesGrown p₀.nullBlock id m m' ∧
          (m'.blocksOf id).length ≤ max (m.blocksOf id).length (cdiv (n + ext) m.blockSize)) := by
  refine Allocating.onManagers _ hbh halloc hrun
    fun hinv hmk hbh' hpart hneeded hnull hx => ⟨?_, fun hspec => ?_⟩
  · obtain ⟨p2, Q2, m2, hrun2, hstep⟩ :=
      AllocStep.allocateExternalComputedBlocks hinv hmk hbh' hpart hneeded hle
    rw [hrun2] at hx
    cases hx
    exact ⟨Q2, hstep⟩
  · obtain ⟨c, hgrows, hlen⟩ := hinv.allocateExternalComputedBlocks_grows hmk hbh' hspec hx
    rw [← hnull, hgrows.length_eq]
    exact ⟨hgrows.tables, hlen⟩

/-- The new blocks, after the parts before them. -/
lemma allocateNewBlocks_tables (hbh : p₀.hasher.CollisionFree)
    (halloc : Allocating p₀ ms₀ held id numTokens slack s.pool s.managers)
    (hrun : KVCacheManager.allocateNewBlocks id numTokens s = .ok bs s')
    (hm : s.managers[i]? = some m) (hspec : m.spec.participatesInPrefixCaching = true)
    (hpart : m.partialHitReqs.get? id = none) :
    ∃ m', s'.managers[i]? = some m' ∧ TablesGrown p₀.nullBlock id m m' ∧
      (m'.blocksOf id).length = max (m.blocksOf id).length (cdiv numTokens m.blockSize) := by
  obtain ⟨-, htables⟩ := Allocating.onManagers (fun m m' =>
      m.spec.participatesInPrefixCaching = true → m.partialHitReqs.get? id = none →
        TablesGrown p₀.nullBlock id m m' ∧
          (m'.blocksOf id).length = max (m.blocksOf id).length (cdiv numTokens m.blockSize))
    hbh halloc hrun fun hinv hmk hbh' hpart hneeded hnull hx => by
      refine ⟨?_, fun hspec hnone => ?_⟩
      · obtain ⟨x', p2, Q2, m2, hrun2, hstep, -⟩ :=
          AllocStep.allocateNewBlocks hinv hmk hbh' hpart hneeded
        rw [hrun2] at hx
        cases hx
        exact ⟨Q2, hstep⟩
      · obtain ⟨c, hgrows, hlen⟩ := hinv.allocateNewBlocks_grows hmk hbh' hspec hnone hx
        rw [← hnull, hgrows.length_eq]
        exact ⟨hgrows.tables, hlen⟩
  obtain ⟨m', hm', hR⟩ := htables i m hm
  exact ⟨m', hm', hR hspec hpart⟩

end Parts

variable {R : ℕ} (h : KvOk s held) (hR : s.predictedBlocks r a = .ok R)
  (hfree : R ≤ s.pool.getNumFreeBlocks)

include h hR hfree

lemma NewCall.addLocal_tables (hcall : NewCall s r a)
    (hrun : onManagers (fun i => addLocalComputedBlocks r.requestId
      (a.newComputedBlocks.getD i []) (a.numLocalComputedTokens r) a.numExternalComputedTokens) s =
      .ok xs s') :
    Allocating s.pool s.managers held r.requestId (a.numTokensNeedSlot r s.maxModelLen)
      (s.pool.getNumFreeBlocks - R) s'.pool s'.managers ∧
      ∀ (i : ℕ) m, s.managers[i]? = some m → m.spec.participatesInPrefixCaching = true →
        s'.managers[i]? = some (s.recordHits r a i m) := by
  obtain ⟨p', ms', hms, rfl⟩ := onManagers_eq_ok hrun
  have hnew := hcall.newRequest h
  obtain ⟨htouch, hlen, htables⟩ := runManagers_invariant
    (fun i m m' => m.spec.participatesInPrefixCaching = true → m' = s.recordHits r a i m)
    (fun i _ => Touching s.pool s.managers held r.requestId a.newComputedBlocks
      (a.numLocalComputedTokens r + a.numExternalComputedTokens) (a.numLocalComputedTokens r)
      (a.numTokensNeedSlot r s.maxModelLen) (s.pool.getNumFreeBlocks - R) i)
    (fun k _ p ms m x p1 m1 hJ hmk hx => by
      obtain ⟨p2, m2, hrun2, hJ'⟩ := hJ.step hnew hmk
      refine ⟨?_, fun hspec => ?_⟩
      · rw [hrun2] at hx
        cases hx
        exact hJ'
      · have heq := addLocalComputedBlocks_eq_ok hspec hx
        rw [hJ.frame.nullBlock_eq] at heq
        exact heq)
    (h.touching hR hfree) hms
  refine ⟨htouch.allocating hlen, fun i m hm hspec => ?_⟩
  obtain ⟨m', hm', heq⟩ := exists_related hlen htables hm
  rw [← heq hspec]
  exact hm'

variable (hrun : allocateBlocks r a s = .ok bs s') (hm : s.managers[i]? = some m)
  (hskips : m.spec.skipsBlocks = true)

include hrun hm hskips

/-- An allocation for a new request with hits or external tokens. -/
lemma NewCall.allocateBlocks_tables (hcall : NewCall s r a) (hbrings : bringsComputed a = true) :
    ∃ m', s'.managers[i]? = some m' ∧ TablesAllocated s.pool.nullBlock r.requestId
      (a.numTokensNeedSlot r s.maxModelLen) (s.startTable r a i m) m m' := by
  obtain ⟨hspec, hfull⟩ := skipsBlocks_iff.1 hskips
  have hknown := hcall.known_eq
  have hnone := hcall.noPartial_record hm hfull
  unfold allocateBlocks at hrun
  rw [bind_get] at hrun
  unfold bringsComputed at hbrings
  rw [if_pos hbrings] at hrun
  obtain ⟨⟨⟩, s2, hcomputed, hnewBlocks⟩ := bind_eq_ok.1 hrun
  unfold KVCacheManager.allocateNewComputedBlocks at hcomputed
  rw [bind_get] at hcomputed
  simp only [hknown, Bool.false_eq_true, if_false] at hcomputed
  obtain ⟨xs, s1, haddLocal, hexternal⟩ := bind_eq_ok.1 hcomputed
  obtain ⟨halloc1, htables1⟩ := NewCall.addLocal_tables h hR hfree hcall haddLocal
  have hm1 := htables1 i m hm hspec
  have hrecord : SameGroup m (s.recordHits r a i m) := (recordComputedBlocks_table m _ _ _ _ _).2.2
  have hself := blocksOf_recordComputedBlocks m r.requestId
    (m.getNumSkippedTokens (a.numComputedTokens r) / m.blockSize) s.pool.nullBlock
    ((a.newComputedBlocks.getD i []).drop
      (m.getNumSkippedTokens (a.numComputedTokens r) / m.blockSize)) (a.numLocalComputedTokens r)
  change ∀ id', (s.recordHits r a i m).blocksOf id' = _ at hself
  generalize s.recordHits r a i m = m1 at hm1 hnone hrecord hself
  have hstart : m1.blocksOf r.requestId = s.startTable r a i m := by
    rw [hself, blocksOf_setBlocks_self, startTable, bringsComputed, if_pos hbrings]
  -- The external tokens, if there are any.
  obtain ⟨m2, hm2, hgrown2, hlen2, halloc2⟩ : ∃ m2, s2.managers[i]? = some m2 ∧
      TablesGrown s.pool.nullBlock r.requestId m1 m2 ∧
      (m2.blocksOf r.requestId).length ≤ max (m1.blocksOf r.requestId).length
        (cdiv (a.numTokensNeedSlot r s.maxModelLen) m.blockSize) ∧
      Allocating s.pool s.managers held r.requestId (a.numTokensNeedSlot r s.maxModelLen)
        (s.pool.getNumFreeBlocks - R) s2.pool s2.managers := by
    by_cases hext : a.numExternalComputedTokens > 0
    · rw [if_pos hext] at hexternal
      obtain ⟨ys, s3, hloop, hpure⟩ := bind_eq_ok.1 hexternal
      cases hpure
      obtain ⟨halloc, htables⟩ :=
        allocateExternal_tables h.collisionFree hcall.total_le halloc1 hloop
      obtain ⟨m2, hm2, hR⟩ := htables i m1 hm1
      obtain ⟨hgrown, hlen⟩ := hR (by rw [hrecord.spec_eq, hspec])
      have hcdiv := cdiv_mono m.blockSize hcall.total_le
      rw [hrecord.blockSize_eq] at hlen
      exact ⟨m2, hm2, hgrown, by omega, halloc⟩
    · rw [if_neg hext] at hexternal
      cases hexternal
      exact ⟨m1, hm1, .refl _ _ _, le_max_left _ _, halloc1⟩
  have hgroup2 : m2.blockSize = m.blockSize := by
    rw [hgrown2.group.blockSize_eq, hrecord.blockSize_eq]
  obtain ⟨m3, hm3, hgrown3, hlen3⟩ := allocateNewBlocks_tables h.collisionFree halloc2 hnewBlocks hm2
    (by rw [hgrown2.group.spec_eq, hrecord.spec_eq, hspec])
    (by rw [hgrown2.partialHitReqs_eq, hnone])
  have hgrown := hgrown2.trans hgrown3
  obtain ⟨new, htable, hnew⟩ := hgrown.table
  refine ⟨m3, hm3, ⟨hgrown.group.1.trans hrecord.1, hgrown.group.2.trans hrecord.2,
    hgrown.group.3.trans hrecord.3⟩, fun id' hid => ?_, ⟨new, hstart ▸ htable, hnew⟩, ?_⟩
  · rw [hgrown.others id' hid, hself, blocksOf_setBlocks_ne _ hid]
  · obtain ⟨new2, htable2, -⟩ := hgrown2.table
    have hle := congrArg List.length htable2
    rw [length_append] at hle
    rw [hgroup2] at hlen3
    rw [← hstart]
    omega

/-- What `allocate_slots` does to the tables of groups that skip blocks, when it allocates. -/
lemma KvOk.allocateBlocks_tables (hcall : NewCall s r a ∨ RunningCall s r a) :
    ∃ m', s'.managers[i]? = some m' ∧ TablesAllocated s.pool.nullBlock r.requestId
      (a.numTokensNeedSlot r s.maxModelLen) (s.startTable r a i m) m m' := by
  cases hbrings : bringsComputed a with
  | true =>
    rcases hcall with hnew | hrunning
    · exact NewCall.allocateBlocks_tables h hR hfree hrun hm hskips hnew hbrings
    · rw [hrunning.brings_eq] at hbrings
      cases hbrings
  | false =>
    obtain ⟨hnil, hext, hcovered⟩ := covered_of_not_brings hcall hbrings
    have hsum := getNumBlocksToAllocate_covered h (getD_eq_nil_of_any hnil) hcovered
      (a.numTokensNeedSlot r s.maxModelLen) (a.numLocalComputedTokens r)
    unfold predictedBlocks at hR
    rw [hsum, Except.ok.injEq] at hR
    unfold allocateBlocks at hrun
    unfold bringsComputed at hbrings
    simp only [hbrings, Bool.false_eq_true, if_false] at hrun
    obtain ⟨m', hm', hgrown, hlen⟩ := allocateNewBlocks_tables h.collisionFree
      (h.allocating r.requestId _ (hR ▸ hfree)) hrun hm (skipsBlocks_iff.1 hskips).1
      (h.noPartial m (mem_of_getElem? hm) _)
    have hstart : s.startTable r a i m = m.blocksOf r.requestId := by
      rw [startTable, bringsComputed, hbrings]
      rfl
    rw [hstart]
    exact ⟨m', hm', hgrown.group, hgrown.others, hgrown.table, hlen⟩

end KVCacheManager

end Lvllm
