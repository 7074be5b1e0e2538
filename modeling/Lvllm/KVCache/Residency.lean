import Lvllm.KVCache.KvRuns
import Lvllm.KVCache.WindowTables

/-!
# How many blocks a window keeps

The pool is sized, and requests are admitted, by `max_admission_blocks_per_request`: the blocks that
a request with a sliding window or with chunked local attention holds at once, if no more than
`max_in_flight_tokens` of its tokens are scheduled and not yet processed.  A table keeps the blocks
from the first that is not skipped to the last that was allocated, so the bound is a bound on the
distance of the two.

The slots for lookahead tokens are allocated too, but the bound does not count them; and it counts
the blocks of a chunk as if every chunk began at a block.
-/

namespace Lvllm

open SingleTypeKVCacheManager KVCacheManager List Nat KVCacheSpec AllocateSlotsArgs Option

variable {H : Type}

/-! ## The bound -/

variable {e k n : ℕ} {m m' : SingleTypeKVCacheManager}

/-- The blocks between two points `k` tokens apart. -/
lemma cdiv_le_div_add {s b : ℕ} (hb : 0 < b) (h : e ≤ s + k) :
    cdiv e b ≤ s / b + (cdiv k b + 1) := by
  rw [cdiv_le_iff hb, add_mul, add_mul, one_mul]
  have hs := lt_div_mul_add hb (a := s)
  have hk := (cdiv_le_iff (a := k) hb).1 le_rfl
  omega

/-- The blocks between two points `k` tokens apart, when the first is the start of a block. -/
lemma cdiv_le_div_add_of_dvd {s b : ℕ} (hb : 0 < b) (hs : b ∣ s) (h : e ≤ s + k) :
    cdiv e b ≤ s / b + cdiv k b := by
  rw [cdiv_le_iff hb, Nat.add_mul, Nat.div_mul_cancel hs]
  have hk := (cdiv_le_iff (a := k) hb).1 le_rfl
  omega

/-- The chunks of chunked local attention begin at blocks. -/
def KVCacheSpec.ChunkAligned (spec : KVCacheSpec) : Prop :=
  match spec.kind with
  | .chunkedLocalAttention chunk => spec.blockSize ∣ chunk
  | _ => True

/-- With at most `maxInFlight` tokens after the processed ones, the blocks that are not skipped stay
within the bound. -/
lemma blocks_le_cap (hskips : m.spec.skipsBlocks = true) (haligned : m.spec.ChunkAligned)
    {maxInFlight maxModelLen cap : ℕ}
    (hcap : m.spec.maxAdmissionBlocksPerRequest maxInFlight maxModelLen = some cap)
    (he : e ≤ n + maxInFlight) (hmax : e ≤ maxModelLen) :
    cdiv e m.blockSize ≤ m.getNumSkippedTokens n / m.blockSize + cap := by
  have hb := m.blockSize_pos
  unfold skipsBlocks participatesInPrefixCaching KVCacheSpec.isFullAttention at hskips
  unfold KVCacheSpec.maxAdmissionBlocksPerRequest at hcap
  unfold KVCacheSpec.ChunkAligned at haligned
  unfold getNumSkippedTokens
  cases hkind : m.spec.kind with
  | fullAttention | circularBuffer | kpoolTail => simp [hkind] at hskips
  | slidingWindow window extra =>
    simp only [hkind, some.injEq] at hcap ⊢
    subst hcap
    refine cdiv_le_div_add hb ?_
    omega
  | chunkedLocalAttention chunk =>
    simp only [hkind, some.injEq] at hcap haligned ⊢
    subst hcap
    refine cdiv_le_div_add_of_dvd hb (haligned.mul_left _) ?_
    have := lt_div_mul_add chunk.pos (a := n)
    omega

/-! ## One table -/

/-- A table of a group that skips blocks: its null blocks come first, and the others are within the
bound. -/
structure WindowTable (maxInFlight maxModelLen : ℕ) (spec : KVCacheSpec) (nullBlock : ℕ)
    (blocks : List ℕ) : Prop where
  nullsFirst : NullsFirst nullBlock blocks
  within : spec.ChunkAligned → ∀ cap,
    spec.maxAdmissionBlocksPerRequest maxInFlight maxModelLen = some cap →
    residentBlocks nullBlock blocks ≤ cap

section Table

variable {maxInFlight maxModelLen nullBlock : ℕ} {spec : KVCacheSpec} {blocks : List ℕ}
  {id : String}

lemma windowTable_nil : WindowTable maxInFlight maxModelLen spec nullBlock [] :=
  ⟨nullsFirst_nil nullBlock, fun _ _ _ => zero_le _⟩

/-- Removing skipped blocks keeps the table within the bound. -/
lemma WindowTable.skipped (h : WindowTable maxInFlight maxModelLen m.spec nullBlock (m.blocksOf id))
    (hskip : TablesSkipped nullBlock id n m m') :
    WindowTable maxInFlight maxModelLen m.spec nullBlock (m'.blocksOf id) := by
  obtain ⟨k, hk⟩ := h.nullsFirst
  have hk' := hskip.nullPrefix hk
  refine ⟨⟨_, hk'⟩, fun haligned cap hcap => ?_⟩
  have hle := h.within haligned cap hcap
  rw [hk.residentBlocks_eq] at hle
  rw [hk'.residentBlocks_eq, hskip.length_eq]
  omega

/-- A table that starts with the blocks skipped after `n` tokens and grows to `e` tokens. -/
lemma windowTable_allocated {start : List ℕ} (hskips : m.spec.skipsBlocks = true)
    (hstart : NullPrefix nullBlock k start) (hgrown : TablesAllocated nullBlock id e start m m')
    (he : e ≤ n + maxInFlight) (hmax : e ≤ maxModelLen)
    (hk : m.getNumSkippedTokens n / m.blockSize ≤ k) (hlen : start.length ≤ cdiv e m.blockSize ∨
      WindowTable maxInFlight maxModelLen m.spec nullBlock start) :
    WindowTable maxInFlight maxModelLen m.spec nullBlock (m'.blocksOf id) := by
  obtain ⟨new, htable, hnew⟩ := hgrown.table
  have hk' : NullPrefix nullBlock k (m'.blocksOf id) := htable ▸ hstart.append hnew
  refine ⟨⟨k, hk'⟩, fun haligned cap hcap => ?_⟩
  have hcdiv := blocks_le_cap hskips haligned hcap he hmax
  rw [hk'.residentBlocks_eq, hgrown.length_eq]
  rcases hlen with hle | htab
  · omega
  · have hle := htab.within haligned cap hcap
    rw [hstart.residentBlocks_eq] at hle
    omega

end Table

/-! ## `allocate_slots` -/

namespace KVCacheManager

variable {s s' : KVCacheManager H} {held : List ℕ} {maxInFlight : ℕ}

/-- All tables of groups that skip blocks are within the bound. -/
def WindowInv (maxInFlight : ℕ) (s : KVCacheManager H) : Prop :=
  ∀ m ∈ s.managers, m.spec.skipsBlocks = true → ∀ id,
    WindowTable maxInFlight s.maxModelLen m.spec s.pool.nullBlock (m.blocksOf id)

/-- Operations that keep the tables keep them within the bound. -/
lemma WindowInv.of_tablesKept (h : s.WindowInv maxInFlight)
    (hkept : SameKv s s' ∧ TablesKept s s') : s'.WindowInv maxInFlight := by
  intro m' hm' hskips id
  obtain ⟨i, hi⟩ := getElem?_of_mem hm'
  obtain ⟨hsame, hkept⟩ := hkept
  obtain ⟨m, hm, htables⟩ := hkept i m' hi
  have hgroup := hsame.groups.group i m m' hm hi
  rw [hgroup.spec_eq] at hskips ⊢
  rw [hsame.pool.nullBlock_eq, hsame.settings]
  rcases htables id with heq | heq
  · rw [heq]
    exact h m (mem_of_getElem? hm) hskips id
  · rw [heq]
    exact windowTable_nil

/-- The tokens of a call, with those in flight and the lookahead, are at most `maxInFlight`. -/
def CallWithin (maxInFlight : ℕ) (r : Request H) (a : AllocateSlotsArgs) : Prop :=
  0 ≤ r.numInFlightTokens ∧
    r.numInFlightTokens + a.numNewTokens + a.numLookaheadTokens ≤ maxInFlight

variable [DecidableEq H] {r : Request H} {a : AllocateSlotsArgs}

omit [DecidableEq H] in
/-- The slots of a call within the bound end at most `maxInFlight` tokens after the processed ones. -/
lemma CallWithin.numTokensNeedSlot_le (h : CallWithin maxInFlight r a) :
    a.numTokensNeedSlot r s.maxModelLen ≤ s.processedTokens r a + maxInFlight ∧
      a.numTokensNeedSlot r s.maxModelLen ≤ s.maxModelLen ∧
      s.processedTokens r a ≤ a.numComputedTokens r ∧
      a.numTokensNeedSlot r s.maxModelLen ≤ a.numComputedTokens r + maxInFlight := by
  obtain ⟨hnonneg, hle⟩ := h
  unfold numTokensNeedSlot processedTokens totalComputedTokens
  omega

/-- `remove_skipped_blocks` keeps the tables within the bound. -/
lemma WindowInv.removeSkippedBlocks (h : s.WindowInv maxInFlight) (hok : KvOk s held) {id : String}
    (hrun : KVCacheManager.removeSkippedBlocks id n s = .ok () s') (hsame : SameKv s s') :
    s'.WindowInv maxInFlight := by
  intro m' hm' hskips id'
  obtain ⟨i, hi⟩ := getElem?_of_mem hm'
  obtain ⟨m, hm, hgroup⟩ := hsame.groups.exists_of_getElem? hi
  obtain ⟨m₁, hm1, hskip⟩ := hok.removeSkippedBlocks_tables hrun hm
  obtain rfl : m₁ = m' := some.inj (hm1.symm.trans hi)
  rw [hgroup.spec_eq] at hskips ⊢
  rw [hsame.pool.nullBlock_eq, hsame.settings]
  have htable := h m (mem_of_getElem? hm) hskips
  by_cases hid : id' = id
  · subst hid
    exact (htable id').skipped hskip
  · rw [hskip.others id' hid]
    exact htable id'

/-- The hits of a new request: null blocks first, and no more than its computed tokens. -/
lemma NewRequestCall.hits (h : NewRequestCall s r a) (hok : KvOk s held)
    (hr : r.HashesChained s.pool.hasher) :
    s.HitsNullFirst a.newComputedBlocks ∧
      s.HitsExact a.newComputedBlocks a.numNewComputedTokens := by
  obtain ⟨Q, hinv⟩ := hok.inv
  have hkeys : s.pool.keysOf s.pool.nullBlock = [] := not_not.1 fun hne => (hinv.keyed _ hne).1 rfl
  have hlookup := h.lookup
  unfold lookupGives at hlookup
  split at hlookup
  · cases hlookup
  · rename_i blocks n boundary hget
    have hnull := getComputedBlocks_nullFirst hok.config hinv.free.index hkeys hr hget
    rw [Bool.or_eq_true, decide_eq_true_eq] at hlookup
    rcases hlookup with ⟨hblocks, hn⟩ | htrunc
    · rw [hblocks, hn]
      exact ⟨hnull, (getComputedBlocks_sound hok.config hinv.free.index hr hget).2⟩
    · split at htrunc
      · cases htrunc
      · rename_i blocks' hcut
        rw [decide_eq_true_eq] at htrunc
        rw [htrunc]
        exact ⟨hnull.truncate hcut, truncateComputedBlocks_exact hcut⟩

section

omit [DecidableEq H]

lemma HitsNullFirst.congr {hits : List (List ℕ)} (h : s.HitsNullFirst hits) (hsame : SameKv s s') :
    s'.HitsNullFirst hits := by
  intro i m' hm' hfull
  obtain ⟨m, hm, hgroup⟩ := hsame.groups.exists_of_getElem? hm'
  rw [hsame.pool.nullBlock_eq]
  exact h i m hm (hgroup.spec_eq ▸ hfull)

lemma HitsExact.congr {hits : List (List ℕ)} (h : s.HitsExact hits n) (hsame : SameKv s s') :
    s'.HitsExact hits n := by
  intro i m' hm' hfull
  obtain ⟨m, hm, hgroup⟩ := hsame.groups.exists_of_getElem? hm'
  rw [hgroup.blockSize_eq]
  exact h i m hm (hgroup.spec_eq ▸ hfull)

/-- The table of a running request, once the skipped blocks are removed, grows within the bound. -/
lemma windowTable_of_covered {nullBlock : ℕ} {m₁ m₂ : SingleTypeKVCacheManager}
    (hskips : m.spec.skipsBlocks = true)
    (htable : WindowTable maxInFlight s.maxModelLen m.spec nullBlock (m.blocksOf r.requestId))
    (hskip : TablesSkipped nullBlock r.requestId (s.processedTokens r a) m m₁)
    (hwithin : CallWithin maxInFlight r a)
    (hcovered : a.numComputedTokens r ≤ (m₁.blocksOf r.requestId).length * m₁.blockSize)
    (hgrown : TablesAllocated nullBlock r.requestId (a.numTokensNeedSlot r s.maxModelLen)
      (m₁.blocksOf r.requestId) m₁ m₂) :
    WindowTable maxInFlight s.maxModelLen m.spec nullBlock (m₂.blocksOf r.requestId) := by
  obtain ⟨he, hmax, hprocessed, -⟩ := hwithin.numTokensNeedSlot_le (s := s)
  obtain ⟨k, hk⟩ := htable.nullsFirst
  have hk1 := hskip.nullPrefix hk
  have hbs := hskip.group.blockSize_eq
  have hskipped : m.getNumSkippedTokens (s.processedTokens r a) / m.blockSize ≤
      (m.blocksOf r.requestId).length := by
    refine Nat.div_le_of_le_mul ?_
    rw [hskip.length_eq, hbs, Nat.mul_comm] at hcovered
    exact (getNumSkippedTokens_le m _).trans (hprocessed.trans hcovered)
  have hsame : m₁.getNumSkippedTokens (s.processedTokens r a) / m₁.blockSize =
      m.getNumSkippedTokens (s.processedTokens r a) / m.blockSize :=
    skippedBlocks_congr hskip.group.spec_eq _
  have hresult : WindowTable maxInFlight s.maxModelLen m₁.spec nullBlock
      (m₂.blocksOf r.requestId) :=
    windowTable_allocated (n := s.processedTokens r a) (by rwa [hskip.group.spec_eq]) hk1 hgrown he
      hmax (by omega) (.inr (by rw [hskip.group.spec_eq]; exact htable.skipped hskip))
  rwa [hskip.group.spec_eq] at hresult

end

/-- The table of a new request with hits or external tokens starts within the bound. -/
lemma NewCall.windowTable (hcall : NewCall s r a) (hnull : s.HitsNullFirst a.newComputedBlocks)
    (hexact : s.HitsExact a.newComputedBlocks a.numNewComputedTokens)
    (hwithin : CallWithin maxInFlight r a) {i : ℕ} (hm : s.managers[i]? = some m)
    (hskips : m.spec.skipsBlocks = true) (hbrings : bringsComputed a = true)
    (hgrown : TablesAllocated s.pool.nullBlock r.requestId (a.numTokensNeedSlot r s.maxModelLen)
      (s.startTable r a i m) m m') :
    WindowTable maxInFlight s.maxModelLen m.spec s.pool.nullBlock (m'.blocksOf r.requestId) := by
  obtain ⟨-, hmax, -, he⟩ := hwithin.numTokensNeedSlot_le (s := s)
  have hfull := (skipsBlocks_iff.1 hskips).2
  obtain ⟨k, hk⟩ := hnull i m hm hfull
  have hb := m.blockSize_pos
  have hstart : s.startTable r a i m = List.replicate
      (m.getNumSkippedTokens (a.numComputedTokens r) / m.blockSize) s.pool.nullBlock ++
      (a.newComputedBlocks.getD i []).drop
        (m.getNumSkippedTokens (a.numComputedTokens r) / m.blockSize) := by
    rw [startTable, if_pos hbrings]
  have htotal : a.numComputedTokens r ≤ a.numTokensNeedSlot r s.maxModelLen := hcall.total_le
  have hle : ∀ x, x * m.blockSize ≤ a.numComputedTokens r →
      x ≤ cdiv (a.numTokensNeedSlot r s.maxModelLen) m.blockSize := fun x hx => by
    rw [← cdiv_mul_self hb x]
    exact cdiv_mono _ (hx.trans htotal)
  have hskipped := hle _ ((div_mul_le_self _ m.blockSize).trans
    (getNumSkippedTokens_le m (a.numComputedTokens r)))
  have hhits := hle _ ((hexact i m hm hfull).trans (by
    unfold numComputedTokens numLocalComputedTokens
    omega))
  refine windowTable_allocated hskips (hstart ▸ hk.replicate_append_drop _) hgrown he hmax
    (le_max_left _ _) (.inl ?_)
  rw [hstart, length_append, length_replicate, length_drop]
  omega

/-- `allocate_slots` keeps the tables within the bound. -/
lemma WindowInv.allocateSlots (h : s.WindowInv maxInFlight) (hok : KvOk s held)
    (hcall : s.CallOk r a) (hr : r.HashesChained s.pool.hasher)
    (hwithin : CallWithin maxInFlight r a) {res : Option (List (List ℕ))}
    (hrun : KVCacheManager.allocateSlots r a s = .ok res s') : s'.WindowInv maxInFlight := by
  have hcalls := hcall.cases hok hr
  cases hok.allocateSlots_keeps hcalls hr hrun with
  | gated heq => exact heq ▸ h
  | full hskip _ hshape => exact h.removeSkippedBlocks hok hskip hshape.same
  | @allocated R s1 s2 bs hskip1 hok1 hshape1 hR hfree halloc' hsame2 hkept =>
    have h1 := h.removeSkippedBlocks hok hskip1 hshape1.same
    have hcalls1 := hcalls.imp (·.of_skippedRemoved hshape1) (·.of_skippedRemoved hshape1)
    have hmodel : s1.maxModelLen = s.maxModelLen := by rw [hshape1.same.settings]
    have hnullEq := hshape1.same.pool.nullBlock_eq
    have h2 : s2.WindowInv maxInFlight := by
      intro m₂ hm2 hskips id
      obtain ⟨i, hi2⟩ := getElem?_of_mem hm2
      obtain ⟨m₁, hm1, hgroup2⟩ := hsame2.groups.exists_of_getElem? hi2
      obtain ⟨m, hm, hgroup1⟩ := hshape1.same.groups.exists_of_getElem? hm1
      rw [hgroup2.spec_eq] at hskips ⊢
      obtain ⟨m2', hm2', hgrown⟩ := hok1.allocateBlocks_tables hR hfree halloc' hm1 hskips hcalls1
      obtain rfl : m2' = m₂ := some.inj (hm2'.symm.trans hi2)
      rw [hsame2.pool.nullBlock_eq, hsame2.settings]
      by_cases hid : id = r.requestId
      · subst hid
        cases hbrings : bringsComputed a with
        | true =>
          rcases hcall with hnew | hrunning
          · obtain ⟨hnull, hexact⟩ := hnew.hits hok hr
            exact ((hnew.newCall hok hr).of_skippedRemoved hshape1).windowTable
              (hnull.congr hshape1.same) (hexact.congr hshape1.same) hwithin hm1 hskips hbrings hgrown
          · rw [hrunning.brings_eq] at hbrings
            cases hbrings
        | false =>
          have hstart : s1.startTable r a i m₁ = m₁.blocksOf r.requestId := by
            rw [startTable, hbrings]
            rfl
          obtain ⟨-, -, hcovered⟩ := covered_of_not_brings hcalls1 hbrings
          obtain ⟨m1', hm1', hskipTables⟩ := hok.removeSkippedBlocks_tables hskip1 hm
          obtain rfl : m1' = m₁ := some.inj (hm1'.symm.trans hm1)
          rw [hgroup1.spec_eq] at hskips ⊢
          rw [hstart, hmodel, hnullEq] at hgrown
          rw [hmodel, hnullEq]
          exact windowTable_of_covered hskips (h m (mem_of_getElem? hm) hskips _) hskipTables
            hwithin (hcovered _ (mem_of_getElem? hm1)
              (hgroup1.spec_eq ▸ (skipsBlocks_iff.1 hskips).1)) hgrown
      · rw [hgrown.others id hid]
        exact h1 m₁ (mem_of_getElem? hm1) hskips id
    exact h2.of_tablesKept hkept.2

end KVCacheManager

/-! ## Runs -/

variable [DecidableEq H] {maxInFlight : ℕ} {s : KvState H}

/-- A condition on the calls of `allocate_slots`. -/
def KvOp.OnAllocate (P : Request H → AllocateSlotsArgs → Prop) : KvOp H → Prop
  | .allocateSlots r _ a => P r a
  | _ => True

/-- Every call schedules within the limit, the tokens in flight and the lookahead included. -/
abbrev KvOp.CallsWithin (maxInFlight : ℕ) : KvOp H → Prop := OnAllocate (CallWithin maxInFlight)

/-- Every call schedules within the limit, the tokens in flight included. -/
abbrev KvOp.SchedulesWithin (maxInFlight : ℕ) : KvOp H → Prop :=
  OnAllocate fun r a =>
    0 ≤ r.numInFlightTokens ∧ r.numInFlightTokens + a.numNewTokens ≤ maxInFlight

instance (r : Request H) (a : AllocateSlotsArgs) : Decidable (CallWithin maxInFlight r a) :=
  inferInstanceAs (Decidable (_ ∧ _))

instance (P : Request H → AllocateSlotsArgs → Prop) [∀ r a, Decidable (P r a)] (op : KvOp H) :
    Decidable (op.OnAllocate P) :=
  match op with
  | .allocateSlots r _ a => inferInstanceAs (Decidable (P r a))
  | .cacheBlocks _ _ _ | .freeBlocks _ | .removeSkippedBlocks _ _ | .free _ |
    .popBlocksForFree _ | .takeKvCacheBlockCopies | .takeNewBlockIds |
    .getNumCommonPrefixBlocks _ | .evictBlocks _ | .resetPrefixCache => isTrue trivial

omit [DecidableEq H] in
lemma KvInit.windowInv (h : KvInit s) : s.kv.WindowInv maxInFlight := by
  intro m hm _ id
  obtain ⟨i, hi⟩ := getElem?_of_mem hm
  rw [(h.managers i m hi).2.2.blocksOf_eq]
  exact windowTable_nil

/-- Every operation within the limit keeps the tables within the bound. -/
lemma KVCacheManager.WindowInv.step {s' : KvState H} (h : s.kv.WindowInv maxInFlight)
    (hok : KvOk s.kv s.held) {op : KvOp H} (hop : op.Allowed s)
    (hwithin : op.CallsWithin maxInFlight) (hstep : s.step op = some s') :
    s'.kv.WindowInv maxInFlight := by
  rcases (KvOk.step hok hop hstep).2 with hkept | ⟨r, contents, a, rfl⟩ | ⟨id, n, rfl⟩
  · exact h.of_tablesKept hkept
  · obtain ⟨x, hrun, -⟩ := KvState.returned_eq_some hstep
    exact h.allocateSlots hok hop.2 ⟨contents, hop.1⟩ hwithin hrun
  · obtain ⟨x, hrun, -⟩ := KvState.returned_eq_some hstep
    obtain ⟨s1, hrun1, -, hshape⟩ := hok.removeSkippedBlocks id n
    rw [hrun1] at hrun
    cases hrun
    exact h.removeSkippedBlocks hok hrun1 hshape.same

/-- In every run whose calls schedule within the limit, the tables are within the bound. -/
lemma windowInv_of_reached (hs : Reached KvInit KvState.step
    (fun s op => op.Allowed s ∧ op.CallsWithin maxInFlight) s) : s.kv.WindowInv maxInFlight := by
  refine (Reached.invariant (I := fun s : KvState H => KvOk s.kv s.held ∧
    s.kv.WindowInv maxInFlight) (fun s h => ⟨h.kvOk, h.windowInv⟩)
    (fun s op s' h hop hstep => ⟨(KvOk.step h.1 hop.1 hstep).1, h.2.step h.1 hop.1 hop.2 hstep⟩) hs).2

/-- In every run whose calls schedule, with the tokens in flight and the lookahead, at most
`maxInFlight` tokens, every table of a sliding window group, and of a chunked local group whose
chunks begin at blocks, holds at most `max_admission_blocks_per_request` blocks that are not
null. -/
theorem resident_blocks_le_admission_cap {s : KvState H} (hs : Reached KvInit KvState.step
    (fun s op => op.Allowed s ∧ op.CallsWithin maxInFlight) s)
    {m : SingleTypeKVCacheManager} (hm : m ∈ s.kv.managers) (hskips : m.spec.skipsBlocks = true)
    (haligned : m.spec.ChunkAligned) {cap : ℕ}
    (hcap : m.spec.maxAdmissionBlocksPerRequest maxInFlight s.kv.maxModelLen = some cap)
    (requestId : String) :
    residentBlocks s.kv.pool.nullBlock (m.blocksOf requestId) ≤ cap :=
  (windowInv_of_reached hs m hm hskips requestId).within haligned cap hcap

/-- Calls for one text request, each with its computed tokens, new tokens and lookahead. -/
def chunkOps (tokens : List Token) (groups : ℕ) (calls : List (ℕ × ℕ × ℕ)) : List (KvOp FreeHash) :=
  calls.map fun (computed, new, lookahead) =>
    .allocateSlots { namedRequest "a" tokens with numComputedTokens := computed }
      (textContents tokens)
      { numNewTokens := new, numLookaheadTokens := lookahead,
        newComputedBlocks := List.replicate groups [] }

/-- A window of five tokens, three chunks of four tokens each processed before the next: the table
begins with a null block and has three blocks, which is the bound. -/
theorem resident_blocks_le_three : ∃ s : KvState FreeHash, Reached KvInit KvState.step
        (fun s op => op.Allowed s ∧ op.CallsWithin 4) s ∧
      ∃ m ∈ s.kv.managers, m.spec.kind = .slidingWindow 5 0 ∧ m.spec.skipsBlocks = true ∧
        m.spec.ChunkAligned ∧
        m.spec.maxAdmissionBlocksPerRequest 4 s.kv.maxModelLen = some 3 ∧
        m.blocksOf "a" = [0, 4, 6] ∧ residentBlocks s.kv.pool.nullBlock (m.blocksOf "a") ≤ 3 := by
  let tokens : List Token := [1, 2, 3, 4, 5, 6, 7, 8, 9, 10, 11, 12]
  obtain ⟨s, hreach, m, hm, hkind, hblocks, hcap⟩ := exists_reached_kv 16
    (smallKv [.fullAttention, .slidingWindow 5 0]) (fun _ => kvInit_smallKv)
    (chunkOps tokens 2 [(0, 4, 0), (4, 4, 0), (8, 4, 0)])
    (fun s op => op.Allowed s ∧ op.CallsWithin 4)
    (fun s => ∃ m ∈ s.kv.managers, m.spec.kind = .slidingWindow 5 0 ∧ m.blocksOf "a" = [0, 4, 6] ∧
      m.spec.maxAdmissionBlocksPerRequest 4 s.kv.maxModelLen = some 3) (by decide +kernel)
  have hskips := skipsBlocks_of_slidingWindow hkind
  have haligned : m.spec.ChunkAligned := by simp [KVCacheSpec.ChunkAligned, hkind]
  exact ⟨s, hreach, m, hm, hkind, hskips, haligned, hcap, hblocks,
    resident_blocks_le_admission_cap hreach hm hskips haligned hcap "a"⟩

/-- The bound is exceeded in two ways.  With a window of five tokens and at most four tokens in
flight it is three blocks, but a call for four tokens after seven, with two lookahead tokens, leads
to four.  With chunks of three tokens, blocks of four and at most five tokens in flight it is two
blocks, but a call for five tokens after five leads to three. -/
theorem resident_blocks_exceed_admission_cap : (∃ s : KvState FreeHash, Reached KvInit KvState.step
        (fun s op => op.Allowed s ∧ op.SchedulesWithin 4) s ∧
      ∃ m ∈ s.kv.managers, m.spec.kind = .slidingWindow 5 0 ∧
        m.spec.maxAdmissionBlocksPerRequest 4 s.kv.maxModelLen = some 3 ∧
        residentBlocks s.kv.pool.nullBlock (m.blocksOf "a") = 4) ∧
    ∃ s : KvState FreeHash, Reached KvInit KvState.step
        (fun s op => op.Allowed s ∧ op.CallsWithin 5) s ∧
      ∃ m ∈ s.kv.managers, m.spec.kind = .chunkedLocalAttention 3 ∧
        m.spec.maxAdmissionBlocksPerRequest 5 s.kv.maxModelLen = some 2 ∧
        residentBlocks s.kv.pool.nullBlock (m.blocksOf "a") = 3 := by
  let tokens : List Token := [1, 2, 3, 4, 5, 6, 7, 8, 9, 10, 11, 12]
  constructor
  · exact exists_reached_kv 16 (smallKv [.fullAttention, .slidingWindow 5 0])
      (fun _ => kvInit_smallKv) (chunkOps tokens 2 [(0, 4, 2), (4, 3, 2), (7, 4, 2)]) _ _
      (by decide +kernel)
  · exact exists_reached_kv 16 (smallKv [.fullAttention, .chunkedLocalAttention 3])
      (fun _ => kvInit_smallKv) (chunkOps tokens 2 [(0, 5, 0), (5, 5, 0)]) _ _ (by decide +kernel)

end Lvllm
