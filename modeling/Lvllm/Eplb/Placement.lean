import Mathlib.Data.List.Dedup
import Mathlib.Data.List.NodupEquivFin
import Mathlib.Tactic.Linarith
import Lvllm.Foundation.Grouping

/-!
# Which ranks hold an expert

A placement gives every physical slot its logical expert, or -1; the slots of a rank follow each other.
`getEpRanksWithExpertsBatch` says which ranks hold an expert and send it and which ones need it and
receive it.  The receivers of an expert are divided among its senders by position: `recvRanks` and
`sendRank` are the two sides of this division.
-/

namespace Lvllm

open List Nat

/-- The experts of the physical slots; -1 stands for no expert. -/
structure Placement (numRanks numLocalExperts : ℕ) where
  experts : List ℤ
  length_eq : experts.length = numRanks * numLocalExperts

variable {R n : ℕ}

/-- The position of a row of a rank among all slots. -/
def slotOf (rank : Fin R) (row : Fin n) : ℕ := rank * n + row

lemma slotOf_lt (rank : Fin R) (row : Fin n) : slotOf rank row < R * n :=
  calc rank * n + row < rank * n + n := Nat.add_lt_add_left row.isLt _
    _ = (rank + 1) * n := (Nat.succ_mul _ _).symm
    _ ≤ R * n := Nat.mul_le_mul_right n rank.isLt

/-- The expert of a row of a rank. -/
def Placement.expertAt (p : Placement R n) (rank : Fin R) (row : Fin n) : ℤ :=
  p.experts.get ⟨slotOf rank row, p.length_eq ▸ slotOf_lt rank row⟩

/-! ## The ranks of experts -/

/-- The values of a list in the order of their first appearance (`np.unique` with the sorted first
indices). -/
def uniqueInOrder (xs : List ℕ) : List ℕ := xs.reverse.dedup.reverse

variable {i j r x : ℕ} {indices uniqueExperts : List ℤ} {e : ℤ} {ranks : List ℕ} {l : List ℕ}
  {p : Placement R n}

lemma mem_uniqueInOrder {xs : List ℕ} : x ∈ uniqueInOrder xs ↔ x ∈ xs := by
  unfold uniqueInOrder
  rw [mem_reverse, mem_dedup, mem_reverse]

lemma nodup_uniqueInOrder (xs : List ℕ) : (uniqueInOrder xs).Nodup :=
  nodup_reverse.2 (nodup_dedup _)

/-- `np.unique`. -/
def npUnique (xs : List ℤ) : List ℤ := xs.dedup.insertionSort (· ≤ ·)

lemma mem_npUnique {xs : List ℤ} {x : ℤ} : x ∈ npUnique xs ↔ x ∈ xs :=
  (mem_insertionSort _).trans mem_dedup

lemma nodup_npUnique (xs : List ℤ) : (npUnique xs).Nodup :=
  (perm_insertionSort _ _).nodup_iff.2 (nodup_dedup xs)

/-- The order of `np.lexsort`: by expert first, then by position. -/
def byExpert (a b : ℤ × ℕ) : Prop := a.1 < b.1 ∨ a.1 = b.1 ∧ a.2 ≤ b.2

instance decidableByExpert : DecidableRel byExpert := fun a b =>
  inferInstanceAs (Decidable (a.1 < b.1 ∨ a.1 = b.1 ∧ a.2 ≤ b.2))

/-- The experts in question with the ranks of their slots, in the order of first appearance. -/
def ranksByExpert (numLocalExperts : ℕ) (uniqueExperts indices : List ℤ) : List (ℤ × List ℕ) :=
  let relevant := indices.zipIdx.filter fun slot => slot.1 ∈ uniqueExperts
  (runsOf Prod.fst (relevant.insertionSort byExpert)).filterMap fun run =>
    run.head?.map fun slot =>
      (slot.1, uniqueInOrder (run.map fun slot => slot.2 / numLocalExperts))

/-- `get_ep_ranks_with_experts_batch`: for every expert in question, the ranks that have it and send it,
and the ranks that need it and have no copy of their own. -/
def getEpRanksWithExpertsBatch (expertIds : List ℤ) (numLocalExperts : ℕ)
    (oldIndices newIndices : List ℤ) : Dict ℤ (List ℕ) × Dict ℤ (List ℕ) :=
  if expertIds = [] then (.empty, .empty)
  else
    let uniqueExperts := npUnique expertIds
    let ranksToSend := Dict.empty.setAll (ranksByExpert numLocalExperts uniqueExperts oldIndices)
    let ranksToRecv := Dict.empty.setAll
      ((ranksByExpert numLocalExperts uniqueExperts newIndices).map fun e =>
        (e.1, e.2.filter fun r => r ∉ (ranksToSend.get? e.1).getD []))
    (ranksToSend.setDefaults uniqueExperts [], ranksToRecv.setDefaults uniqueExperts [])

/-- The ranks with a slot of an expert. -/
def ranksWith (numLocalExperts : ℕ) (indices : List ℤ) (expert : ℤ) : List ℕ :=
  uniqueInOrder ((indices.zipIdx.filter fun slot => slot.1 = expert).map fun slot =>
    slot.2 / numLocalExperts)

lemma nodup_ranksWith (k : ℕ) (indices : List ℤ) (e : ℤ) : (ranksWith k indices e).Nodup :=
  nodup_uniqueInOrder _

instance totalByExpert : Std.Total byExpert where
  total a b := by
    unfold byExpert
    omega

instance transByExpert : IsTrans (ℤ × ℕ) byExpert where
  trans a b c := by
    unfold byExpert
    omega

instance antisymmByExpert : Std.Antisymm byExpert where
  antisymm a b := by
    unfold byExpert
    intro hab hba
    refine Prod.ext ?_ ?_ <;> omega

lemma pairwise_zipIdx (l : List ℤ) (k : ℕ) : (l.zipIdx k).Pairwise fun a b => a.2 ≤ b.2 := by
  induction l generalizing k with
  | nil => exact List.Pairwise.nil
  | cons x l ih =>
    rw [zipIdx_cons, pairwise_cons]
    refine ⟨fun b hb => ?_, ih (k + 1)⟩
    have := (mem_zipIdx hb).1
    omega

/-- The slots of an expert among the sorted ones are in the order of their positions. -/
lemma filter_sorted (he : e ∈ uniqueExperts) :
    ((indices.zipIdx.filter fun slot => slot.1 ∈ uniqueExperts).insertionSort byExpert).filter
        (fun slot => slot.1 = e) = indices.zipIdx.filter fun slot => slot.1 = e := by
  have hsame : (indices.zipIdx.filter fun slot => slot.1 ∈ uniqueExperts).filter
      (fun slot => slot.1 = e) = indices.zipIdx.filter fun slot => slot.1 = e := by
    rw [filter_filter]
    refine filter_congr fun slot _ => ?_
    by_cases hslot : slot.1 = e
    · simp only [hslot, he, decide_true, Bool.and_self]
    · simp only [hslot, decide_false, Bool.false_and]
  refine List.Perm.eq_of_pairwise' (r := byExpert) ?_ ?_ ?_
  · exact (pairwise_insertionSort byExpert _).filter _
  · refine List.Pairwise.imp_of_mem ?_ ((pairwise_zipIdx indices 0).filter _)
    intro a b ha hb hle
    have ha' := of_decide_eq_true (mem_filter.1 ha).2
    have hb' := of_decide_eq_true (mem_filter.1 hb).2
    exact .inr ⟨ha'.trans hb'.symm, hle⟩
  · rw [← hsame]
    exact (perm_insertionSort byExpert _).filter _

/-- Every expert in question that has slots is listed, with its ranks. -/
lemma mem_ranksByExpert {k : ℕ} (he : e ∈ uniqueExperts) :
    (e, ranks) ∈ ranksByExpert k uniqueExperts indices ↔
      e ∈ indices ∧ ranks = ranksWith k indices e := by
  unfold ranksByExpert
  dsimp only
  set sorted := (indices.zipIdx.filter fun slot => slot.1 ∈ uniqueExperts).insertionSort byExpert
    with hsorted
  have hpairwise : sorted.Pairwise fun a b => a.1 ≤ b.1 := by
    rw [hsorted]
    refine (pairwise_insertionSort byExpert _).imp fun {a b} hab => ?_
    unfold byExpert at hab
    omega
  have hfilter : sorted.filter (fun slot => slot.1 = e) =
      indices.zipIdx.filter fun slot => slot.1 = e := by
    rw [hsorted]
    exact filter_sorted he
  rw [mem_filterMap]
  constructor
  · rintro ⟨run, hrun, hhead⟩
    obtain ⟨slot, hslot, heq⟩ := Option.map_eq_some_iff.1 hhead
    rw [Prod.mk.injEq] at heq
    have hmem : slot ∈ run := mem_of_head? hslot
    have hgroup := eq_filter_of_mem_runsOf hpairwise hrun hmem
    rw [heq.1, hfilter] at hgroup
    rw [hgroup] at hmem heq
    refine ⟨?_, heq.2.symm⟩
    rw [← heq.1]
    exact fst_mem_of_mem_zipIdx (mem_filter.1 hmem).1
  · rintro ⟨hindex, rfl⟩
    obtain ⟨i, hi⟩ := mem_iff_getElem?.1 hindex
    have hslot : (e, i) ∈ sorted.filter fun slot => slot.1 = e := by
      rw [hfilter]
      exact mem_filter.2 ⟨mk_mem_zipIdx_iff_getElem?.2 hi, decide_eq_true rfl⟩
    obtain ⟨run, hrun, hmem⟩ : ∃ run ∈ runsOf Prod.fst sorted, (e, i) ∈ run :=
      exists_mem_runsOf (mem_filter.1 hslot).1
    have hgroup := eq_filter_of_mem_runsOf hpairwise hrun hmem
    refine ⟨run, hrun, ?_⟩
    obtain ⟨slot, rest, hcons⟩ := exists_cons_of_ne_nil (ne_nil_of_mem hmem)
    have hfst : slot.1 = e := by
      have hhead : slot ∈ sorted.filter fun slot => slot.1 = e := by
        rw [← hgroup, hcons]
        exact mem_cons_self
      exact of_decide_eq_true (mem_filter.1 hhead).2
    rw [show run.head? = some slot by rw [hcons]; rfl, Option.map_some, hgroup, hfilter, hfst]
    rfl

lemma ranksWith_eq_nil {k : ℕ} (he : e ∉ indices) : ranksWith k indices e = [] := by
  have hnil : indices.zipIdx.filter (fun slot => slot.1 = e) = [] := by
    refine filter_eq_nil_iff.2 fun slot hslot heq => he ?_
    rw [← of_decide_eq_true heq]
    exact fst_mem_of_mem_zipIdx hslot
  unfold ranksWith
  rw [hnil]
  rfl

/-- The receivers of an expert: ranks with a slot for it that have no slot with it. -/
def ranksNeeding (numLocalExperts : ℕ) (oldIndices newIndices : List ℤ) (expert : ℤ) : List ℕ :=
  (ranksWith numLocalExperts newIndices expert).filter fun r =>
    r ∉ ranksWith numLocalExperts oldIndices expert

lemma nodup_ranksNeeding (k : ℕ) (oldIndices newIndices : List ℤ) (e : ℤ) :
    (ranksNeeding k oldIndices newIndices e).Nodup := (nodup_ranksWith k newIndices e).filter _

/-- What a dictionary that is filled with experts and lists, with the empty list as default, says. -/
lemma get?_filled (he : e ∈ uniqueExperts) {ps : List (ℤ × List ℕ)}
    (hone : ∀ p ∈ ps, p.1 = e → p.2 = ranks) (hnone : (∀ p ∈ ps, p.1 ≠ e) → ranks = []) :
    ((Dict.empty.setAll ps).setDefaults uniqueExperts []).get? e = some ranks ∧
      ((Dict.empty.setAll ps).get? e).getD [] = ranks := by
  by_cases hmem : (e, ranks) ∈ ps
  · have hget := Dict.get?_setAll .empty hmem hone
    refine ⟨Dict.get?_setDefaults_of_some uniqueExperts [] hget, ?_⟩
    rw [hget]
    rfl
  · have hne : ∀ p ∈ ps, p.1 ≠ e := by
      rintro ⟨e', ranks'⟩ hp rfl
      exact hmem (hone _ hp rfl ▸ hp)
    have hget : (Dict.empty.setAll ps).get? e = none := Dict.get?_setAll_of_forall_ne .empty hne
    rw [hnone hne]
    refine ⟨Dict.get?_setDefaults_of_none [] he hget, ?_⟩
    rw [hget]
    rfl

/-- What `get_ep_ranks_with_experts_batch` says about an expert depends on this expert only. -/
lemma getEpRanksWithExpertsBatch_spec {expertIds : List ℤ} (he : e ∈ expertIds) (k : ℕ)
    (oldIndices newIndices : List ℤ) :
    let maps := getEpRanksWithExpertsBatch expertIds k oldIndices newIndices
    maps.1.get? e = some (ranksWith k oldIndices e) ∧
      maps.2.get? e = some (ranksNeeding k oldIndices newIndices e) := by
  have he' : e ∈ npUnique expertIds := mem_npUnique.2 he
  have hlisted : ∀ indices, (∀ p ∈ ranksByExpert k (npUnique expertIds) indices, p.1 = e →
      p.2 = ranksWith k indices e) ∧
      ((∀ p ∈ ranksByExpert k (npUnique expertIds) indices, p.1 ≠ e) →
        ranksWith k indices e = []) := by
    intro indices
    constructor
    · rintro ⟨e', ranks⟩ hp rfl
      exact ((mem_ranksByExpert he').1 hp).2
    · intro hne
      refine ranksWith_eq_nil fun hmem => ?_
      exact hne _ ((mem_ranksByExpert he').2 ⟨hmem, rfl⟩) rfl
  have hsend := get?_filled he' (hlisted oldIndices).1 (hlisted oldIndices).2
  unfold getEpRanksWithExpertsBatch
  rw [if_neg (ne_nil_of_mem he)]
  refine ⟨hsend.1, (get?_filled he' ?_ ?_).1⟩
  · intro p hp hpe
    obtain ⟨q, hq, rfl⟩ := mem_map.1 hp
    have hqe : q.1 = e := hpe
    rw [hqe, hsend.2, (hlisted newIndices).1 q hq hqe]
    rfl
  · intro hne
    have hnil : ranksWith k newIndices e = [] := by
      refine (hlisted newIndices).2 fun p hp hpe => ?_
      exact hne _ (mem_map.2 ⟨p, hp, rfl⟩) hpe
    unfold ranksNeeding
    rw [hnil]
    rfl

namespace Placement

/-- The ranks of an expert are those with a row for it. -/
lemma mem_ranksWith :
    r ∈ ranksWith n p.experts e ↔ ∃ rank : Fin R, rank = r ∧ ∃ row : Fin n, p.expertAt rank row = e := by
  unfold ranksWith
  rw [mem_uniqueInOrder, mem_map]
  constructor
  · rintro ⟨⟨e', i⟩, hslot, rfl⟩
    obtain ⟨hslot, he⟩ := mem_filter.1 hslot
    have he' : e' = e := of_decide_eq_true he
    obtain ⟨hi, hget⟩ := List.getElem?_eq_some_iff.1 (mk_mem_zipIdx_iff_getElem?.1 hslot)
    have hlt : i < R * n := p.length_eq ▸ hi
    have hn : 0 < n := pos_of_ne_zero fun hzero => by
      rw [hzero, mul_zero] at hlt
      exact absurd hlt (Nat.not_lt_zero i)
    refine ⟨⟨i / n, Nat.div_lt_of_lt_mul (Nat.mul_comm R n ▸ hlt)⟩, rfl, ⟨i % n, Nat.mod_lt i hn⟩, ?_⟩
    have hslotOf : slotOf (⟨i / n, Nat.div_lt_of_lt_mul (Nat.mul_comm R n ▸ hlt)⟩ : Fin R)
        (⟨i % n, Nat.mod_lt i hn⟩ : Fin n) = i := Nat.div_add_mod' i n
    unfold expertAt
    rw [get_eq_getElem, ← he', ← hget]
    simp only [hslotOf]
  · rintro ⟨rank, rfl, row, hrow⟩
    have hn : 0 < n := zero_lt_of_lt row.isLt
    refine ⟨(e, slotOf rank row), mem_filter.2 ⟨?_, decide_eq_true rfl⟩, ?_⟩
    · refine mk_mem_zipIdx_iff_getElem?.2 (List.getElem?_eq_some_iff.2 ⟨?_, hrow⟩)
      exact p.length_eq ▸ slotOf_lt rank row
    · show (rank * n + row) / n = rank
      rw [add_comm, add_mul_div_right _ _ hn, div_eq_of_lt row.isLt, zero_add]

/-- An expert that occurs is at a row of a rank. -/
lemma exists_expertAt (he : e ∈ p.experts) :
    ∃ (rank : Fin R) (row : Fin n), p.expertAt rank row = e := by
  obtain ⟨i, hi⟩ := mem_iff_getElem?.1 he
  have hmem : i / n ∈ ranksWith n p.experts e := by
    unfold ranksWith
    rw [mem_uniqueInOrder]
    exact mem_map.2 ⟨(e, i), mem_filter.2
      ⟨mk_mem_zipIdx_iff_getElem?.2 hi, decide_eq_true rfl⟩, rfl⟩
  obtain ⟨rank, -, row, hrow⟩ := mem_ranksWith.1 hmem
  exact ⟨rank, row, hrow⟩

lemma expertAt_mem (p : Placement R n) (rank : Fin R) (row : Fin n) :
    p.expertAt rank row ∈ p.experts := get_mem _ _

end Placement

/-! ## Senders and receivers -/

/-- The receivers of the sender at a position: a range of the receivers, and one of the remainder. -/
def recvRanks (ranksToSend ranksToRecv : List ℕ) (senderPos : ℕ) : List ℕ :=
  let numDstPerSender := ranksToRecv.length / ranksToSend.length
  let recvBegin := senderPos * numDstPerSender
  let recvEnd := recvBegin + numDstPerSender
  let remainderStart := ranksToSend.length * numDstPerSender
  let recverPos := remainderStart + senderPos
  (ranksToRecv.take recvEnd).drop recvBegin ++ ranksToRecv[recverPos]?.toList

/-- The sender of the receiver at a position. -/
def sendRank (ranksToSend ranksToRecv : List ℕ) (recverPos : ℕ) : Option ℕ :=
  let numDstPerSender := ranksToRecv.length / ranksToSend.length
  let remainderStart := ranksToSend.length * numDstPerSender
  if recverPos < remainderStart then ranksToSend[recverPos / numDstPerSender]?
  else ranksToSend[recverPos - remainderStart]?

/-- The position of an element of a list without duplicates. -/
lemma getElem?_eq_some_iff_of_nodup (hl : l.Nodup) (hi : l[i]? = some x) :
    l[j]? = some x ↔ j = i := by
  constructor
  · intro hj
    obtain ⟨hlt, -⟩ := List.getElem?_eq_some_iff.1 hj
    exact (getElem?_inj hlt hl).1 (hj.trans hi.symm)
  · rintro rfl
    exact hi

lemma mem_slice (hl : l.Nodup) {b e : ℕ} (hj : l[j]? = some x) :
    x ∈ (l.take e).drop b ↔ b ≤ j ∧ j < e := by
  rw [mem_iff_getElem?]
  constructor
  · rintro ⟨i, hi⟩
    rw [getElem?_drop, getElem?_take, Option.ite_none_right_eq_some,
      getElem?_eq_some_iff_of_nodup hl hj] at hi
    omega
  · rintro ⟨hbj, hje⟩
    refine ⟨j - b, ?_⟩
    rw [getElem?_drop, getElem?_take, Nat.add_sub_cancel' hbj, if_pos hje]
    exact hj

section Pairing

variable {ranksToSend ranksToRecv : List ℕ}

/-- The receivers of a sender: those of its range, and the one of its remainder position. -/
lemma mem_recvRanks (hrecv : ranksToRecv.Nodup) (hj : ranksToRecv[j]? = some r) :
    r ∈ recvRanks ranksToSend ranksToRecv i ↔ (i * (ranksToRecv.length / ranksToSend.length) ≤ j ∧
        j < i * (ranksToRecv.length / ranksToSend.length) + ranksToRecv.length / ranksToSend.length) ∨
      j = ranksToSend.length * (ranksToRecv.length / ranksToSend.length) + i := by
  unfold recvRanks
  rw [mem_append, mem_slice hrecv hj, Option.mem_toList, getElem?_eq_some_iff_of_nodup hrecv hj]
  exact or_congr Iff.rfl eq_comm

/-- A receiver is one of a sender's exactly if the sender is the receiver's. -/
lemma mem_recvRanks_iff (hsend : ranksToSend.Nodup) (hrecv : ranksToRecv.Nodup) {s : ℕ}
    (hi : ranksToSend[i]? = some s) (hj : ranksToRecv[j]? = some r) :
    r ∈ recvRanks ranksToSend ranksToRecv i ↔ sendRank ranksToSend ranksToRecv j = some s := by
  have hilt : i < ranksToSend.length := (List.getElem?_eq_some_iff.1 hi).1
  rw [mem_recvRanks hrecv hj]
  unfold sendRank
  dsimp only
  generalize ranksToRecv.length / ranksToSend.length = d
  -- the range of a sender ends where the remainder starts or before
  have hend : i * d + d ≤ ranksToSend.length * d := by
    rw [← succ_mul]
    exact mul_le_mul_right d hilt
  split
  · rename_i hlt
    have hpos : 0 < d := Nat.pos_of_lt_mul_left hlt
    rw [getElem?_eq_some_iff_of_nodup hsend hi, Nat.div_eq_iff hpos]
    omega
  · rename_i hge
    rw [getElem?_eq_some_iff_of_nodup hsend hi]
    omega

lemma exists_sendRank (hsend : ranksToSend ≠ []) (hj : j < ranksToRecv.length) :
    ∃ s, sendRank ranksToSend ranksToRecv j = some s := by
  obtain ⟨d, hd⟩ : ∃ d, d = ranksToRecv.length / ranksToSend.length := ⟨_, rfl⟩
  have hpos : 0 < ranksToSend.length := length_pos_iff.2 hsend
  have hlt : j - ranksToSend.length * d < ranksToSend.length ∨ j < ranksToSend.length * d := by
    have hmod := mod_lt ranksToRecv.length hpos
    have hdiv := div_add_mod ranksToRecv.length ranksToSend.length
    rw [← hd] at hdiv
    omega
  unfold sendRank
  dsimp only
  rw [← hd]
  split
  · rename_i hrange
    have hdpos : 0 < d := Nat.pos_of_lt_mul_left hrange
    exact ⟨_, getElem?_eq_getElem ((Nat.div_lt_iff_lt_mul hdpos).2 hrange)⟩
  · rename_i hnot
    exact ⟨_, getElem?_eq_getElem (hlt.resolve_right hnot)⟩

/-- The receivers of a sender are different ranks. -/
lemma nodup_recvRanks (hrecv : ranksToRecv.Nodup) (hi : i < ranksToSend.length) :
    (recvRanks ranksToSend ranksToRecv i).Nodup := by
  unfold recvRanks
  generalize ranksToRecv.length / ranksToSend.length = d
  refine nodup_append.2 ⟨?_, ?_, ?_⟩
  · exact hrecv.sublist ((drop_sublist _ _).trans (take_sublist _ _))
  · cases ranksToRecv[ranksToSend.length * d + i]? with
    | none => exact nodup_nil
    | some r => exact nodup_singleton r
  · intro r hr r' hr' heq
    rw [Option.mem_toList, ← heq] at hr'
    rw [mem_slice hrecv hr'] at hr
    have hend : i * d + d ≤ ranksToSend.length * d := by
      rw [← succ_mul]
      exact mul_le_mul_right d hi
    omega

/-- The receivers of a sender are receivers. -/
lemma mem_of_mem_recvRanks (h : r ∈ recvRanks ranksToSend ranksToRecv i) : r ∈ ranksToRecv := by
  rcases mem_append.1 h with h | h
  · exact mem_of_mem_take (mem_of_mem_drop h)
  · rw [Option.mem_toList] at h
    exact mem_of_getElem? h

/-- The sender of a receiver is a sender. -/
lemma mem_of_sendRank {s : ℕ} (h : sendRank ranksToSend ranksToRecv j = some s) :
    s ∈ ranksToSend := by
  unfold sendRank at h
  dsimp only at h
  split at h
  · exact mem_of_getElem? h
  · exact mem_of_getElem? h

end Pairing

end Lvllm
