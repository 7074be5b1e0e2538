import Mathlib.Algebra.BigOperators.Group.Finset.Piecewise
import Mathlib.Data.Int.CardIntervalMod

/-!
# Slots under context parallelism

The positions of a request are dealt out to the ranks in groups of `cp_kv_cache_interleave_size`.
The slot-mapping kernel and `get_dcp_local_seq_lens` compute with this layout separately; both are
compared with `Nat.count`, which numbers the local positions of a rank in increasing order.
-/

namespace Lvllm

open List Nat

/-- The sizes of a `BlockTable`, with what its constructor and the configuration check. -/
structure SlotConfig where
  worldSize : ℕ
  interleaveSize : ℕ
  kvBlockSize : ℕ
  /-- The kernel's. -/
  blockSize : ℕ
  worldSize_pos : 0 < worldSize
  interleave_pos : 0 < interleaveSize
  kvBlockSize_pos : 0 < kvBlockSize
  interleave_dvd : interleaveSize ∣ kvBlockSize
  blockSize_dvd : blockSize ∣ kvBlockSize

/-- The operations on the rows of a table. -/
inductive RowOp where
  | appendRow (blockIds : List ℕ) (row : ℕ)
  | addRow (blockIds : List ℕ) (row : ℕ)
  | clearRow (row : ℕ)
  | moveRow (src tgt : ℕ)
  | swapRow (src tgt : ℕ)

/-- The rows, each up to `num_blocks_per_row`, after an operation; `f` maps block ids to entries. -/
def RowOp.apply (f : List ℕ → List ℕ) (rows : ℕ → List ℕ) : RowOp → ℕ → List ℕ
  | appendRow ids row => Function.update rows row (rows row ++ f ids)
  | addRow ids row => Function.update rows row (f ids)
  | clearRow row => Function.update rows row []
  | moveRow src tgt => Function.update (Function.update rows tgt (rows src)) src []
  | swapRow src tgt => Function.update (Function.update rows src (rows tgt)) tgt (rows src)

namespace SlotConfig

variable (c : SlotConfig) {rank pos : ℕ}

/-- `blocks_per_kv_block`. -/
def blocksPerKvBlock : ℕ := c.kvBlockSize / c.blockSize

/-- `map_to_kernel_blocks`. -/
def mapToKernelBlocks (ids : List ℕ) : List ℕ :=
  if c.blocksPerKvBlock = 1 then ids
  else ids.flatMap fun id => (List.range c.blocksPerKvBlock).map (id * c.blocksPerKvBlock + ·)

/-- `is_local`. -/
def isLocal (rank pos : ℕ) : Bool :=
  pos % (c.kvBlockSize * c.worldSize) / c.interleaveSize % c.worldSize = rank

/-- The slot that the kernel stores for a position: `PAD_ID` off its rank, `none` if the row has no
entry for it. -/
def slotId (row : List ℕ) (rank pos : ℕ) : Option ℤ :=
  let virtualBlockSize := c.kvBlockSize * c.worldSize
  let virtualBlockIndex := pos / virtualBlockSize
  let virtualBlockOffset := pos % virtualBlockSize
  let localBlockOffset := virtualBlockOffset / (c.worldSize * c.interleaveSize) *
    c.interleaveSize + virtualBlockOffset % c.interleaveSize
  let blockIndex := virtualBlockIndex * c.blocksPerKvBlock + localBlockOffset / c.blockSize
  if c.isLocal rank pos then
    row[blockIndex]?.map fun number =>
      ((number * c.blockSize + localBlockOffset % c.blockSize : ℕ) : ℤ)
  else some (-1)

/-- `get_dcp_local_seq_lens`, for the lengths below `2 ^ 31` that its `int32` holds.  The subtraction of
the rank's offset is clipped at 0. -/
def getDcpLocalSeqLens (seqLen rank : ℕ) : ℕ :=
  let base := seqLen / c.interleaveSize / c.worldSize * c.interleaveSize
  let remainder := seqLen - base * c.worldSize
  base + min (remainder - rank * c.interleaveSize) c.interleaveSize

/-! ## The layout -/

lemma isLocal_iff : c.isLocal rank pos = true ↔ pos / c.interleaveSize % c.worldSize = rank := by
  obtain ⟨m, hm⟩ := c.interleave_dvd
  rw [isLocal, decide_eq_true_iff, hm, mul_assoc, mod_mul_right_div_self,
    mod_mod_of_dvd _ (dvd_mul_left ..)]

/-- The local length in terms of the group of the first position behind it. -/
lemma getDcpLocalSeqLens_eq (n rank : ℕ) : c.getDcpLocalSeqLens n rank =
    n / c.interleaveSize / c.worldSize * c.interleaveSize +
      if rank < n / c.interleaveSize % c.worldSize then c.interleaveSize
      else if rank = n / c.interleaveSize % c.worldSize then n % c.interleaveSize else 0 := by
  have hI := c.interleave_pos
  rw [getDcpLocalSeqLens]
  generalize c.interleaveSize = I, c.worldSize = W at hI
  have hn := div_add_mod' n I
  have hgroup := congrArg (· * I) (div_add_mod' (n / I) W)
  have hoffset := mod_lt n hI
  simp only [add_mul] at hgroup
  rw [mul_right_comm]
  refine congrArg _ ?_
  rcases lt_trichotomy rank (n / I % W) with hlt | rfl | hlt
  · have := mul_le_mul_right I hlt
    rw [succ_mul] at this
    rw [if_pos hlt]
    omega
  · rw [if_neg (lt_irrefl _), if_pos rfl]
    omega
  · have := mul_le_mul_right I hlt
    rw [succ_mul] at this
    rw [if_neg (by omega), if_neg (by omega)]
    omega

/-- The local length counts the local positions in front of it. -/
lemma count_isLocal (h : rank < c.worldSize) (n : ℕ) :
    n.count (c.isLocal rank ·) = c.getDcpLocalSeqLens n rank := by
  simp only [isLocal_iff, getDcpLocalSeqLens_eq]
  have hI := c.interleave_pos
  have hW := c.worldSize_pos
  generalize c.interleaveSize = I, c.worldSize = W at h hI hW
  -- The positions of one group are local together.
  have hgroup : ∀ a t, t ≤ I → (a * I + t).count (· / I % W = rank) =
      (a * I).count (· / I % W = rank) + if a % W = rank then t else 0 := by
    intro a t ht
    have hdiv : ∀ k < t, (a * I + k) / I = a := fun k hk => by
      rw [add_comm, add_mul_div_right _ _ hI, div_eq_of_lt (hk.trans_le ht), zero_add]
    rw [count_add]
    refine congrArg _ ?_
    split
    · rename_i heq
      exact count_of_forall fun k hk => by rw [hdiv k hk, heq]
    · rename_i hne
      exact count_of_forall_not fun k hk => by rwa [hdiv k hk]
  have hfull : ∀ a, (a * I).count (· / I % W = rank) = a.count (· % W = rank) * I := by
    intro a
    induction a with
    | zero => simp
    | succ a ih =>
      rw [succ_mul, hgroup a I le_rfl, ih, count_succ, add_mul]
      split <;> simp
  have hmod := count_modEq_card (n / I) hW rank
  simp only [Nat.ModEq, mod_eq_of_lt h] at hmod
  conv_lhs => rw [← div_add_mod' n I]
  rw [hgroup _ _ (mod_lt n hI).le, hfull, hmod, add_mul, add_assoc]
  refine congrArg _ ?_
  split_ifs <;> omega

lemma kvBlockSize_eq : c.kvBlockSize = c.blockSize * c.blocksPerKvBlock :=
  (Nat.mul_div_cancel' c.blockSize_dvd).symm

/-- The kernel's block and offset of a local position. -/
lemma slotId_eq (h : c.isLocal rank pos = true) (row : List ℕ) {j : ℕ}
    (hj : j = c.getDcpLocalSeqLens pos rank) : c.slotId row rank pos =
      row[j / c.blockSize]?.map fun number => ((number * c.blockSize + j % c.blockSize : ℕ) : ℤ) := by
  rw [slotId, if_pos h]
  rw [isLocal_iff] at h
  rw [getDcpLocalSeqLens_eq, if_neg (by omega), if_pos h.symm, Nat.div_div_eq_div_mul] at hj
  have hmod : j % c.interleaveSize = pos % c.interleaveSize := by
    rw [hj, Nat.mul_add_mod_of_lt (Nat.mod_lt _ c.interleave_pos)]
  have hdiv : j / c.interleaveSize = pos / (c.interleaveSize * c.worldSize) := by
    rw [hj, mul_comm, mul_add_div c.interleave_pos,
      div_eq_of_lt (mod_lt _ c.interleave_pos), add_zero]
  obtain ⟨m, hm⟩ := c.interleave_dvd
  have hsize : c.kvBlockSize * c.worldSize = c.interleaveSize * c.worldSize * m := by
    rw [hm, mul_right_comm]
  have hindex : pos / (c.kvBlockSize * c.worldSize) = j / c.kvBlockSize := by
    rw [hsize, ← Nat.div_div_eq_div_mul, ← hdiv, Nat.div_div_eq_div_mul, ← hm]
  have hoffset : pos % (c.kvBlockSize * c.worldSize) / (c.worldSize * c.interleaveSize) *
      c.interleaveSize + pos % (c.kvBlockSize * c.worldSize) % c.interleaveSize =
        j % c.kvBlockSize := by
    rw [mod_mod_of_dvd _ (c.interleave_dvd.mul_right _), ← hmod, hsize, mul_comm c.worldSize,
      mod_mul_right_div_self, ← hdiv, hm, mod_mul, add_comm, mul_comm]
  rw [hindex, hoffset, c.kvBlockSize_eq, Nat.mod_mul_right_div_self, Nat.mod_mul_right_mod,
    ← Nat.div_div_eq_div_mul, Nat.div_add_mod']

lemma getElem?_mapToKernelBlocks (ids : List ℕ) (i : ℕ) : (c.mapToKernelBlocks ids)[i]? =
    ids[i / c.blocksPerKvBlock]?.map fun id =>
      id * c.blocksPerKvBlock + i % c.blocksPerKvBlock := by
  have hpos : 0 < c.blocksPerKvBlock := div_pos (le_of_dvd c.kvBlockSize_pos c.blockSize_dvd)
      (pos_of_dvd_of_pos c.blockSize_dvd c.kvBlockSize_pos)
  rw [mapToKernelBlocks]
  split
  · rename_i hone
    simp [hone, mod_one]
  · induction ids generalizing i with
    | nil => simp
    | cons id ids ih =>
      rw [flatMap_cons]
      by_cases hi : i < c.blocksPerKvBlock
      · simp [getElem?_append, hi, Nat.div_eq_of_lt, Nat.mod_eq_of_lt]
      · obtain ⟨k, rfl⟩ := Nat.exists_eq_add_of_le (not_lt.1 hi)
        rw [getElem?_append_right (by simp), length_map, length_range,
          Nat.add_sub_cancel_left, ih, Nat.add_mod_left, Nat.add_div_left _ hpos,
          getElem?_cons_succ]

@[simp] lemma mapToKernelBlocks_nil : c.mapToKernelBlocks [] = [] := by simp [mapToKernelBlocks]

/-- The rows hold the kernel blocks of the KV blocks that were put there. -/
lemma rows_eq (ops : List RowOp) (rows : ℕ → List ℕ) :
    ops.foldl (RowOp.apply c.mapToKernelBlocks) (c.mapToKernelBlocks ∘ rows) =
      c.mapToKernelBlocks ∘ ops.foldl (RowOp.apply id) rows := by
  have happend : ∀ l l', c.mapToKernelBlocks (l ++ l') =
      c.mapToKernelBlocks l ++ c.mapToKernelBlocks l' := by
    intro l l'
    simp only [mapToKernelBlocks]
    split <;> simp
  induction ops generalizing rows with
  | nil => rfl
  | cons op ops ih =>
    rw [foldl_cons, foldl_cons, ← ih]
    refine congrArg (ops.foldl _) ?_
    cases op with
    | appendRow | addRow | clearRow | moveRow | swapRow =>
      simp [RowOp.apply, Function.comp_update, happend]

/-- In a row of kernel blocks, the slot is that of the KV block. -/
lemma slotId_mapToKernelBlocks (h : c.isLocal rank pos = true) (ids : List ℕ) {j : ℕ}
    (hj : j = c.getDcpLocalSeqLens pos rank) : c.slotId (c.mapToKernelBlocks ids) rank pos =
      ids[j / c.kvBlockSize]?.map fun id => ((id * c.kvBlockSize + j % c.kvBlockSize : ℕ) : ℤ) := by
  rw [c.slotId_eq h _ hj, getElem?_mapToKernelBlocks, Nat.div_div_eq_div_mul, ← c.kvBlockSize_eq,
    Option.map_map]
  refine congrArg (Option.map · _) (funext fun id => congrArg Nat.cast ?_)
  rw [c.kvBlockSize_eq, Nat.mod_mul, Nat.add_mul, mul_assoc, mul_comm c.blocksPerKvBlock,
    mul_comm (_ % _) c.blockSize]
  omega

end SlotConfig

/-- **Slots and local lengths.**  Each position is local to one rank, and the local lengths of the
ranks add up.  For each rank, the local length counts the local positions; a local position goes to
the kernel block and the offset that its number among the local positions asks for, which is the slot
in the KV block of that number whatever the kernel's block size; and two local positions share no slot
unless they stand under two entries of the row that name one block. -/
theorem slots_of_local_positions (c : SlotConfig) (ops : List RowOp) (row : ℕ) :
    let entries := ops.foldl (RowOp.apply c.mapToKernelBlocks) (fun _ => []) row
    let ids := ops.foldl (RowOp.apply id) (fun _ => []) row
    (∀ p, ∃! r, r < c.worldSize ∧ c.isLocal r p = true) ∧
    (∀ n, ∑ r ∈ Finset.range c.worldSize, c.getDcpLocalSeqLens n r = n) ∧
    ∀ rank < c.worldSize, (∀ n, n.count (c.isLocal rank ·) = c.getDcpLocalSeqLens n rank) ∧
      (∀ p j, c.isLocal rank p = true → j = p.count (c.isLocal rank ·) →
        c.slotId entries rank p = entries[j / c.blockSize]?.map (fun number =>
          ((number * c.blockSize + j % c.blockSize : ℕ) : ℤ)) ∧
        c.slotId entries rank p = ids[j / c.kvBlockSize]?.map fun id =>
          ((id * c.kvBlockSize + j % c.kvBlockSize : ℕ) : ℤ)) ∧
      ∀ p q i j, c.isLocal rank p = true → c.isLocal rank q = true →
        i = p.count (c.isLocal rank ·) / c.kvBlockSize →
        j = q.count (c.isLocal rank ·) / c.kvBlockSize → (i ≠ j → ids[i]? ≠ ids[j]?) →
        c.slotId entries rank p ≠ none → c.slotId entries rank p = c.slotId entries rank q →
          p = q := by
  intro entries ids
  have hentries : entries = c.mapToKernelBlocks ids := by
    simpa [Function.comp_def] using congrFun (c.rows_eq ops fun _ => []) row
  refine ⟨fun p => ?_, fun n => ?_, fun rank hrank => ⟨c.count_isLocal hrank, ?_, ?_⟩⟩
  · simp only [SlotConfig.isLocal_iff]
    exact ⟨_, ⟨mod_lt _ c.worldSize_pos, rfl⟩, fun r hr => hr.2.symm⟩
  · rw [← Finset.sum_congr rfl fun r hr => c.count_isLocal (Finset.mem_range.1 hr) n]
    induction n with
    | zero => simp
    | succ n ih =>
      simp only [count_succ, Finset.sum_add_distrib, ih]
      simp only [c.isLocal_iff]
      rw [Finset.sum_ite_eq, if_pos (Finset.mem_range.2 (mod_lt _ c.worldSize_pos))]
  · intro p j hp hj
    rw [c.count_isLocal hrank] at hj
    refine ⟨c.slotId_eq hp _ hj, ?_⟩
    rw [hentries]
    exact c.slotId_mapToKernelBlocks hp ids hj
  · intro p q i j hp hq hi hj hdiffer hsome heq
    rw [c.count_isLocal hrank] at hi hj
    subst hi hj
    rw [hentries, c.slotId_mapToKernelBlocks hp ids rfl] at hsome heq
    rw [Ne, Option.map_eq_none_iff] at hsome
    obtain ⟨id, hid⟩ := Option.ne_none_iff_exists'.1 hsome
    rw [c.slotId_mapToKernelBlocks hq ids rfl, hid, Option.map_some, eq_comm,
      Option.map_eq_some_iff] at heq
    obtain ⟨id', hid', heq⟩ := heq
    have hmod := fun i => mod_lt i c.kvBlockSize_pos
    have hblock := congrArg (· / c.kvBlockSize) (Int.ofNat.inj heq)
    have hoffset := congrArg (· % c.kvBlockSize) (Int.ofNat.inj heq)
    simp only [mul_add_mod_of_lt (hmod _)] at hoffset
    simp only [mul_comm _ c.kvBlockSize, mul_add_div c.kvBlockSize_pos,
      div_eq_of_lt (hmod _), add_zero] at hblock
    subst hblock
    have hindex := not_imp_not.1 hdiffer (hid.trans hid'.symm)
    refine count_injective (p := (c.isLocal rank ·)) hp hq ?_
    rw [c.count_isLocal hrank, c.count_isLocal hrank, ← div_add_mod' (c.getDcpLocalSeqLens p _),
      hindex, ← hoffset, div_add_mod']

/-- A row that lists a block twice, as it lists the null block, gives two positions one slot. -/
theorem repeated_block_shares_slot :
    let c : SlotConfig := ⟨2, 2, 4, 2, by decide, by decide, by decide, by decide, by decide⟩
    let entries := [.addRow [0, 0] 0].foldl (RowOp.apply c.mapToKernelBlocks) (fun _ => []) 0
    c.isLocal 0 0 = true ∧ c.isLocal 0 8 = true ∧ c.slotId entries 0 0 = some 0 ∧
      c.slotId entries 0 8 = some 0 := by
  decide

end Lvllm
