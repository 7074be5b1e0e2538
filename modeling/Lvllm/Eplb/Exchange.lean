import Mathlib.Data.List.FinRange
import Lvllm.Eplb.Placement

/-!
# The exchange of expert weights

Every rank copies what it can from its own slots, posts sends of the experts it has and receives for the
experts it needs, waits for the transfers, and copies the buffers to its slots; a slot whose expert was
received for another slot is copied from there.

A row stands for the rows of all weight tensors of a layer.  The communicator delivers each send to the
receive that was posted for the same sender, receiver and expert; a rank that waits for a message nobody
sends makes `exchange` fail.
-/

namespace Lvllm

open List

variable {R n : ℕ} {W : Type}

/-! ## One rank -/

/-- A rank: the weights of its slots and the buffers, one row for each slot. -/
structure Worker (n : ℕ) (W : Type) where
  weights : Fin n → W
  buffers : Fin n → W

/-- `add_send`. -/
structure Send (W : Type) where
  expert : ℤ
  dst : ℕ
  payload : W

/-- `add_recv`: the row of the buffers that is filled. -/
structure Recv (n : ℕ) where
  expert : ℤ
  src : ℕ
  row : Fin n

/-- `TransferMetadata`; `received` are `recv_expert_ids` with `recv_dst_rows`, up to `recv_count`. -/
structure TransferMetadata (n : ℕ) where
  isUnchanged : Fin n → Bool
  isReceivedLocally : Fin n → Bool
  recvPrimaryMask : Fin n → Bool
  received : List (ℤ × Fin n)

/-- The different experts of some rows (`np.unique`), each with its first row. -/
def firstRows (expertOf : Fin n → ℤ) (rows : List (Fin n)) : List (ℤ × Fin n) :=
  (npUnique (rows.map expertOf)).filterMap fun e =>
    (rows.find? fun row => expertOf row = e).map (Prod.mk e)

/-- The experts of a list, sorted (`np.argsort`). -/
def sortExperts (rows : List (ℤ × Fin n)) : List (ℤ × Fin n) :=
  rows.insertionSort fun a b => a.1 ≤ b.1

section Masks

variable (old new : Placement R n) (rank : Fin R)

/-- The rows that keep their expert. -/
def isUnchanged (row : Fin n) : Bool := old.expertAt rank row = new.expertAt rank row

/-- The rows whose new expert is in a slot of the rank. -/
def canRecvLocal (row : Fin n) : Bool :=
  new.expertAt rank row ∈ (List.finRange n).map (old.expertAt rank)

/-- The rows that need no message. -/
def isReceivedLocally (row : Fin n) : Bool :=
  isUnchanged old new rank row ||
    (decide (new.expertAt rank row ≠ -1) && canRecvLocal old new rank row)

/-- The experts that a rank has, each with the row it is sent from. -/
def sendRows : List (ℤ × Fin n) :=
  firstRows (old.expertAt rank) ((List.finRange n).filter fun row => old.expertAt rank row ≠ -1)

/-- The experts that a rank has to receive, each with the row it is received for. -/
def recvRows : List (ℤ × Fin n) :=
  firstRows (new.expertAt rank) ((List.finRange n).filter fun row =>
    !isReceivedLocally old new rank row && decide (new.expertAt rank row ≠ -1))

/-- What a rank remembers of the transfers. -/
def transferMetadata : TransferMetadata n where
  isUnchanged := isUnchanged old new rank
  isReceivedLocally := isReceivedLocally old new rank
  recvPrimaryMask row := row ∈ (recvRows old new rank).map Prod.snd
  received := recvRows old new rank

end Masks

/-- Copy some rows: `f` says what is copied to a row. -/
def copyRows (rows : List (Fin n)) (f : Fin n → Option W) (buffers : Fin n → W) : Fin n → W :=
  rows.foldl (fun b dst => match f dst with | some w => Function.update b dst w | none => b) buffers

/-- What a rank has posted. -/
structure Posted (n : ℕ) (W : Type) where
  buffers : Fin n → W
  sends : List (Send W)
  recvs : List (Recv n)
  metadata : TransferMetadata n

/-- The sends of one expert. -/
def sendsOf (maps : Dict ℤ (List ℕ) × Dict ℤ (List ℕ)) (rank : ℕ) (weights : Fin n → W)
    (p : ℤ × Fin n) : Option (List (Send W)) := do
  let ranksToSend ← maps.1.get? p.1
  let ranksToRecv ← maps.2.get? p.1
  if ranksToSend = [] ∨ ranksToRecv = [] then return []
  let senderPos ← ranksToSend.idxOf? rank
  return (recvRanks ranksToSend ranksToRecv senderPos).map fun dst => ⟨p.1, dst, weights p.2⟩

/-- The receive of one expert. -/
def recvsOf (maps : Dict ℤ (List ℕ) × Dict ℤ (List ℕ)) (rank : ℕ) (p : ℤ × Fin n) :
    Option (List (Recv n)) := do
  let ranksToSend ← maps.1.get? p.1
  let ranksToRecv ← maps.2.get? p.1
  if ranksToSend = [] ∨ ranksToRecv = [] then return []
  let recverPos ← ranksToRecv.idxOf? rank
  let src ← sendRank ranksToSend ranksToRecv recverPos
  return [⟨p.1, src, p.2⟩]

/-- `move_to_buffer` until the transfers are executed. -/
def moveToBuffer (old new : Placement R n) (rank : Fin R) (worker : Worker n W) :
    Option (Posted n W) := do
  -- local moves
  let destIndices := (List.finRange n).filter fun row =>
    !isUnchanged old new rank row && isReceivedLocally old new rank row
  let expertToSrc := Dict.empty.setAll (sendRows old rank)
  let buffers := copyRows destIndices
    (fun dst => (expertToSrc.get? (new.expertAt rank dst)).map worker.weights) worker.buffers
  -- post sends
  let sends := sortExperts (sendRows old rank)
  let sent ← sends.mapM (sendsOf
    (getEpRanksWithExpertsBatch (sends.map Prod.fst) n old.experts new.experts) rank worker.weights)
  -- post receives
  let recvs := sortExperts (recvRows old new rank)
  let received ← recvs.mapM (recvsOf
    (getEpRanksWithExpertsBatch (recvs.map Prod.fst) n old.experts new.experts) rank)
  return ⟨buffers, sent.flatten, received.flatten, transferMetadata old new rank⟩

/-- `move_from_buffer`. -/
def moveFromBuffer (new : Placement R n) (rank : Fin R) (metadata : TransferMetadata n)
    (weights buffers : Fin n → W) : Fin n → W :=
  let destIndices := (List.finRange n).filter fun row =>
    !metadata.isUnchanged row && (metadata.isReceivedLocally row || metadata.recvPrimaryMask row)
  let weights := copyRows destIndices (fun row => some (buffers row)) weights
  if metadata.received = [] then weights
  else
    -- the other rows of the experts that were received
    let dupDstRows := (List.finRange n).filter fun row =>
      (!metadata.isUnchanged row && !metadata.isReceivedLocally row) &&
        (!metadata.recvPrimaryMask row && decide (new.expertAt rank row ≠ -1))
    let prim := sortExperts metadata.received
    let matched := dupDstRows.filterMap fun dst =>
      let pos := prim.findIdx fun p => new.expertAt rank dst ≤ p.1
      (prim[pos]?.filter fun p => p.1 = new.expertAt rank dst).map fun p => (dst, p.2)
    matched.foldl (fun w p => Function.update w p.1 (w p.2)) weights

/-! ## All ranks -/

/-- What a receive of a rank gets. -/
def delivered (posted : Fin R → Posted n W) (rank : ℕ) (r : Recv n) : Option W :=
  if h : r.src < R then
    ((posted ⟨r.src, h⟩).sends.find? fun s => s.dst = rank ∧ s.expert = r.expert).map Send.payload
  else none

/-- The buffers of a rank after all transfers. -/
def execute (posted : Fin R → Posted n W) (rank : Fin R) : Option (Fin n → W) :=
  (posted rank).recvs.foldlM
    (fun b r => (delivered posted rank r).map (Function.update b r.row)) (posted rank).buffers

/-- A result of every rank, if no rank fails. -/
def everyRank {α : Type} (f : Fin R → Option α) : Option (Fin R → α) :=
  if h : ∀ r, (f r).isSome then some fun r => (f r).get (h r) else none

/-- The exchange: the weights of all ranks after all of them have run `move_to_buffer` and
`move_from_buffer`. -/
def exchange (old new : Placement R n) (workers : Fin R → Worker n W) : Option (Fin R → Fin n → W) := do
  let posted ← everyRank fun rank => moveToBuffer old new rank (workers rank)
  let buffers ← everyRank (execute posted)
  return fun rank =>
    moveFromBuffer new rank (posted rank).metadata (workers rank).weights (buffers rank)

/-! ## Lists of rows -/

lemma fst_filterMap_sublist {α β : Type} (f : α → Option β) (l : List α) :
    ((l.filterMap fun e => (f e).map (Prod.mk e)).map Prod.fst).Sublist l := by
  induction l with
  | nil => exact List.Sublist.refl _
  | cons e l ih =>
    rw [filterMap_cons]
    cases f e with
    | none => exact ih.cons e
    | some b => exact ih.cons_cons e

variable {row : Fin n} {e : ℤ} {rows : List (ℤ × Fin n)} {p : ℤ × Fin n} {r : Recv n}
  {weights : Fin n → W} {experts : List ℤ}

section FirstRows

variable {expertOf : Fin n → ℤ} {rows : List (Fin n)}

lemma of_mem_firstRows (h : (e, row) ∈ firstRows expertOf rows) :
    row ∈ rows ∧ expertOf row = e := by
  obtain ⟨e', -, hfind⟩ := mem_filterMap.1 h
  obtain ⟨row', hrow, heq⟩ := Option.map_eq_some_iff.1 hfind
  rw [Prod.mk.injEq] at heq
  rw [← heq.1, ← heq.2]
  refine ⟨mem_of_find?_eq_some hrow, ?_⟩
  have hexpert := find?_some hrow
  exact of_decide_eq_true hexpert

lemma exists_mem_firstRows (h : row ∈ rows) :
    ∃ row', (expertOf row, row') ∈ firstRows expertOf rows := by
  have hfind : (rows.find? fun row' => expertOf row' = expertOf row).isSome :=
    find?_isSome.2 ⟨row, h, decide_eq_true rfl⟩
  obtain ⟨row', hrow'⟩ := Option.isSome_iff_exists.1 hfind
  refine ⟨row', mem_filterMap.2 ⟨expertOf row, ?_, ?_⟩⟩
  · exact mem_npUnique.2 (mem_map_of_mem h)
  · rw [hrow']
    rfl

variable (expertOf rows) in
/-- The experts of the first rows are different. -/
lemma nodup_firstRows : ((firstRows expertOf rows).map Prod.fst).Nodup :=
  (nodup_npUnique _).sublist (fst_filterMap_sublist _ _)

end FirstRows

lemma mem_sortExperts : p ∈ sortExperts rows ↔ p ∈ rows := mem_insertionSort _

lemma nodup_sortExperts (h : (rows.map Prod.fst).Nodup) : ((sortExperts rows).map Prod.fst).Nodup :=
  ((perm_insertionSort _ rows).map Prod.fst).nodup_iff.2 h

lemma copyRows_apply (rows : List (Fin n)) (f : Fin n → Option W) (b : Fin n → W) (row : Fin n) :
    copyRows rows f b row = if row ∈ rows then (f row).getD (b row) else b row := by
  induction rows generalizing b with
  | nil => rfl
  | cons dst rows ih =>
    show copyRows rows f (match f dst with | some w => Function.update b dst w | none => b) row = _
    rw [ih]
    by_cases hsame : row = dst
    · subst hsame
      cases hf : f row with
      | none => simp only [Option.getD_none, ite_self]
      | some w => simp only [Function.update_self, Option.getD_some, ite_self, mem_cons_self, if_true]
    · have hkept : (match f dst with | some w => Function.update b dst w | none => b) row = b row := by
        cases f dst with
        | none => rfl
        | some w => exact Function.update_of_ne hsame w b
      rw [hkept]
      simp only [mem_cons, hsame, false_or]

lemma mapM_eq_some_map {α β : Type} {f : α → Option β} {g : α → β} {l : List α}
    (h : ∀ x ∈ l, f x = some (g x)) : l.mapM f = some (l.map g) := by
  induction l with
  | nil => rfl
  | cons x l ih =>
    rw [mapM_cons, h x mem_cons_self, ih fun y hy => h y (mem_cons_of_mem _ hy)]
    rfl

lemma idxOf?_of_mem {l : List ℕ} {x : ℕ} (h : x ∈ l) : l.idxOf? x = some (l.idxOf x) := by
  obtain ⟨i, hi⟩ := Option.isSome_iff_exists.1 (isSome_idxOf?.2 h)
  rw [idxOf_eq_getD_idxOf?, hi]
  rfl

lemma everyRank_eq_some {α : Type} {f : Fin R → Option α} {g : Fin R → α}
    (h : ∀ r, f r = some (g r)) : everyRank f = some g := by
  have hsome : ∀ r, (f r).isSome := fun r => Option.isSome_iff_exists.2 ⟨g r, h r⟩
  unfold everyRank
  rw [dif_pos hsome]
  refine congrArg some (funext fun r => ?_)
  exact Option.get_of_eq_some (hsome r) (h r)

/-! ## What a rank posts -/

section Posting

variable {old new : Placement R n} {rank : Fin R}

lemma of_mem_sendRows (h : (e, row) ∈ sendRows old rank) : e ≠ -1 ∧ old.expertAt rank row = e := by
  obtain ⟨hrow, he⟩ := of_mem_firstRows h
  have hvalid := of_decide_eq_true (mem_filter.1 hrow).2
  exact ⟨he ▸ hvalid, he⟩

lemma exists_mem_sendRows (h : old.expertAt rank row ≠ -1) :
    ∃ row', (old.expertAt rank row, row') ∈ sendRows old rank :=
  exists_mem_firstRows (mem_filter.2 ⟨mem_finRange row, decide_eq_true h⟩)

/-- A row with an expert needs a message exactly if no slot of the rank has the expert. -/
lemma isReceivedLocally_eq_false (hvalid : new.expertAt rank row ≠ -1) :
    isReceivedLocally old new rank row = false ↔
      ∀ row', old.expertAt rank row' ≠ new.expertAt rank row := by
  unfold isReceivedLocally isUnchanged canRecvLocal
  rw [Bool.or_eq_false_iff, decide_eq_true hvalid, Bool.true_and]
  constructor
  · rintro ⟨-, hnot⟩ row' heq
    refine of_decide_eq_false hnot ?_
    rw [← heq]
    exact mem_map_of_mem (mem_finRange row')
  · intro hne
    refine ⟨decide_eq_false (hne row), decide_eq_false fun hmem => ?_⟩
    obtain ⟨row', -, heq⟩ := mem_map.1 hmem
    exact hne row' heq

lemma of_mem_recvRows (h : (e, row) ∈ recvRows old new rank) :
    e ≠ -1 ∧ new.expertAt rank row = e ∧ isReceivedLocally old new rank row = false := by
  obtain ⟨hrow, he⟩ := of_mem_firstRows h
  have hneed := (mem_filter.1 hrow).2
  rw [Bool.and_eq_true, Bool.not_eq_true', decide_eq_true_eq] at hneed
  exact ⟨he ▸ hneed.2, he, hneed.1⟩

lemma exists_mem_recvRows (hvalid : new.expertAt rank row ≠ -1)
    (hremote : isReceivedLocally old new rank row = false) :
    ∃ row', (new.expertAt rank row, row') ∈ recvRows old new rank := by
  refine exists_mem_firstRows (mem_filter.2 ⟨mem_finRange row, ?_⟩)
  rw [hremote, decide_eq_true hvalid]
  rfl

variable (old new) in
/-- The senders of an expert. -/
def senders (e : ℤ) : List ℕ := ranksWith n old.experts e

variable (old new) in
/-- The receivers of an expert. -/
def receivers (e : ℤ) : List ℕ := ranksNeeding n old.experts new.experts e

lemma mem_senders : (rank : ℕ) ∈ senders old e ↔ ∃ row, old.expertAt rank row = e := by
  unfold senders
  rw [Placement.mem_ranksWith]
  constructor
  · rintro ⟨rank', heq, hrow⟩
    rw [Fin.val_injective heq] at hrow
    exact hrow
  · rintro ⟨row, hrow⟩
    exact ⟨rank, rfl, row, hrow⟩

/-- A rank receives an expert exactly if the expert is needed and is not in one of its slots. -/
lemma mem_receivers : (rank : ℕ) ∈ receivers old new e ↔
    (∃ row, new.expertAt rank row = e) ∧ ∀ row, old.expertAt rank row ≠ e := by
  have hnew : (rank : ℕ) ∈ senders new e ↔ ∃ row, new.expertAt rank row = e := mem_senders
  have hold : (rank : ℕ) ∈ ranksWith n old.experts e ↔ ∃ row, old.expertAt rank row = e :=
    mem_senders
  unfold senders at hnew
  unfold receivers ranksNeeding
  rw [mem_filter, hnew, decide_eq_true_eq, hold, not_exists]

lemma exists_of_mem_receivers {r : ℕ} (h : r ∈ receivers old new e) :
    ∃ rank : Fin R, (rank : ℕ) = r := by
  obtain ⟨rank, hrank, -⟩ := Placement.mem_ranksWith.1 (mem_filter.1 h).1
  exact ⟨rank, hrank⟩

/-- A receiver is a rank that receives the expert for one of its rows. -/
lemma mem_receivers_of_recvRows (h : (e, row) ∈ recvRows old new rank) :
    (rank : ℕ) ∈ receivers old new e := by
  obtain ⟨hvalid, hrow, hremote⟩ := of_mem_recvRows h
  rw [← hrow] at hvalid
  rw [mem_receivers, ← hrow]
  exact ⟨⟨row, rfl⟩, (isReceivedLocally_eq_false hvalid).1 hremote⟩

lemma exists_recvRows_of_mem_receivers (hvalid : e ≠ -1) (h : (rank : ℕ) ∈ receivers old new e) :
    ∃ row, (e, row) ∈ recvRows old new rank := by
  obtain ⟨⟨row, rfl⟩, hnone⟩ := mem_receivers.1 h
  exact exists_mem_recvRows hvalid ((isReceivedLocally_eq_false hvalid).2 hnone)

variable (hnew : ∀ e ∈ new.experts, e ≠ -1 → e ∈ old.experts)

include hnew in
/-- The senders of an expert that a rank receives. -/
lemma senders_ne_nil (h : (e, row) ∈ recvRows old new rank) : senders old e ≠ [] := by
  obtain ⟨hvalid, hrow, -⟩ := of_mem_recvRows h
  have hmem := hnew e (hrow ▸ new.expertAt_mem rank row) hvalid
  obtain ⟨rank', row', hrow'⟩ := Placement.exists_expertAt hmem
  exact ne_nil_of_mem (mem_senders.2 ⟨row', hrow'⟩)

lemma nodup_senders (e : ℤ) : (senders old e).Nodup := nodup_ranksWith n old.experts e

lemma nodup_receivers (e : ℤ) : (receivers old new e).Nodup :=
  nodup_ranksNeeding n old.experts new.experts e

variable (old new rank) in
/-- The sends of a rank. -/
def postedSends (weights : Fin n → W) : List (Send W) :=
  (sortExperts (sendRows old rank)).flatMap fun p =>
    (recvRanks (senders old p.1) (receivers old new p.1) ((senders old p.1).idxOf (rank : ℕ))).map
      fun dst => ⟨p.1, dst, weights p.2⟩

variable (old new rank) in
/-- The receives of a rank. -/
def postedRecvs : List (Recv n) :=
  (sortExperts (recvRows old new rank)).map fun p =>
    ⟨p.1, (sendRank (senders old p.1) (receivers old new p.1)
      ((receivers old new p.1).idxOf (rank : ℕ))).getD 0, p.2⟩

lemma sendsOf_eq (weights : Fin n → W) (hp : p.1 ∈ experts) (hrank : (rank : ℕ) ∈ senders old p.1) :
    sendsOf (getEpRanksWithExpertsBatch experts n old.experts new.experts) rank weights p =
      some ((recvRanks (senders old p.1) (receivers old new p.1)
        ((senders old p.1).idxOf (rank : ℕ))).map fun dst => ⟨p.1, dst, weights p.2⟩) := by
  obtain ⟨hsend, hrecv⟩ : _ = some (senders old p.1) ∧ _ = some (receivers old new p.1) :=
    getEpRanksWithExpertsBatch_spec hp n old.experts new.experts
  simp only [sendsOf, hsend, hrecv, idxOf?_of_mem hrank, Option.bind_eq_bind, Option.bind_some,
    Option.pure_def]
  split
  · rename_i hempty
    rw [hempty.resolve_left (ne_nil_of_mem hrank)]
    unfold recvRanks
    simp only [take_nil, drop_nil, getElem?_nil, Option.toList_none, append_nil, map_nil]
  · rfl

lemma recvsOf_eq (hp : p.1 ∈ experts)
    (hrank : (rank : ℕ) ∈ receivers old new p.1) (hsenders : senders old p.1 ≠ []) :
    recvsOf (getEpRanksWithExpertsBatch experts n old.experts new.experts) rank p =
      some [⟨p.1, (sendRank (senders old p.1) (receivers old new p.1)
        ((receivers old new p.1).idxOf (rank : ℕ))).getD 0, p.2⟩] := by
  obtain ⟨hsend, hrecv⟩ : _ = some (senders old p.1) ∧ _ = some (receivers old new p.1) :=
    getEpRanksWithExpertsBatch_spec hp n old.experts new.experts
  obtain ⟨src, hsrc⟩ := exists_sendRank hsenders (idxOf_lt_length_of_mem hrank)
  simp only [recvsOf, hsend, hrecv, idxOf?_of_mem hrank, Option.bind_eq_bind, Option.bind_some,
    Option.pure_def]
  rw [if_neg (not_or.2 ⟨hsenders, ne_nil_of_mem hrank⟩), hsrc]
  rfl

variable (old new rank) in
/-- The buffers of a rank after the local moves. -/
def localMoves (worker : Worker n W) : Fin n → W :=
  copyRows ((List.finRange n).filter fun row =>
      !isUnchanged old new rank row && isReceivedLocally old new rank row)
    (fun dst => ((Dict.empty.setAll (sendRows old rank)).get? (new.expertAt rank dst)).map
      worker.weights) worker.buffers

include hnew in
lemma moveToBuffer_eq (worker : Worker n W) :
    moveToBuffer old new rank worker = some ⟨localMoves old new rank worker,
      postedSends old new rank worker.weights, postedRecvs old new rank,
      transferMetadata old new rank⟩ := by
  have hsends := mapM_eq_some_map (f := sendsOf (getEpRanksWithExpertsBatch
    ((sortExperts (sendRows old rank)).map Prod.fst) n old.experts new.experts) rank worker.weights)
    (l := sortExperts (sendRows old rank)) fun p hp => by
      refine sendsOf_eq worker.weights (mem_map_of_mem hp) ?_
      exact mem_senders.2 ⟨p.2, (of_mem_sendRows (mem_sortExperts.1 hp)).2⟩
  have hrecvs := mapM_eq_some_map (f := recvsOf (getEpRanksWithExpertsBatch
    ((sortExperts (recvRows old new rank)).map Prod.fst) n old.experts new.experts) rank)
    (l := sortExperts (recvRows old new rank)) fun p hp => by
      have hp' : (p.1, p.2) ∈ recvRows old new rank := mem_sortExperts.1 hp
      exact recvsOf_eq (mem_map_of_mem hp) (mem_receivers_of_recvRows hp') (senders_ne_nil hnew hp')
  unfold moveToBuffer
  dsimp only
  rw [hsends, hrecvs]
  show some (Posted.mk _ _ _ _) = some (Posted.mk _ _ _ _)
  rw [← flatMap_def, ← flatMap_def, ← map_eq_flatMap]
  rfl

lemma mem_postedSends {s : Send W} :
    s ∈ postedSends old new rank weights ↔ ∃ row, (s.expert, row) ∈ sendRows old rank ∧
      s.dst ∈ recvRanks (senders old s.expert) (receivers old new s.expert)
        ((senders old s.expert).idxOf (rank : ℕ)) ∧ s.payload = weights row := by
  unfold postedSends
  rw [mem_flatMap]
  constructor
  · rintro ⟨⟨e, row⟩, hp, hs⟩
    obtain ⟨dst, hdst, rfl⟩ := mem_map.1 hs
    exact ⟨row, mem_sortExperts.1 hp, hdst, rfl⟩
  · rintro ⟨row, hrow, hdst, hpayload⟩
    refine ⟨(s.expert, row), mem_sortExperts.2 hrow, mem_map.2 ⟨s.dst, hdst, ?_⟩⟩
    rw [← hpayload]

include hnew in
lemma mem_postedRecvs : r ∈ postedRecvs old new rank ↔ (r.expert, r.row) ∈ recvRows old new rank ∧
      sendRank (senders old r.expert) (receivers old new r.expert)
        ((receivers old new r.expert).idxOf (rank : ℕ)) = some r.src := by
  unfold postedRecvs
  rw [mem_map]
  constructor
  · rintro ⟨⟨e, row⟩, hp, rfl⟩
    have hp' := mem_sortExperts.1 hp
    obtain ⟨src, hsrc⟩ := exists_sendRank (senders_ne_nil hnew hp')
      (idxOf_lt_length_of_mem (mem_receivers_of_recvRows hp'))
    refine ⟨hp', ?_⟩
    rw [hsrc]
    rfl
  · rintro ⟨hrow, hsrc⟩
    refine ⟨(r.expert, r.row), mem_sortExperts.2 hrow, ?_⟩
    rw [hsrc]
    rfl

/-- A rank sends an expert to another rank at most once. -/
lemma nodup_postedSends (weights : Fin n → W) :
    ((postedSends old new rank weights).map fun s => (s.expert, s.dst)).Nodup := by
  have hexperts := nodup_sortExperts (nodup_firstRows (old.expertAt rank)
    ((List.finRange n).filter fun row => old.expertAt rank row ≠ -1))
  unfold postedSends
  rw [map_flatMap, nodup_flatMap]
  constructor
  · intro p hp
    have hrank : (rank : ℕ) ∈ senders old p.1 :=
      mem_senders.2 ⟨p.2, (of_mem_sendRows (mem_sortExperts.1 hp)).2⟩
    rw [map_map]
    refine (nodup_recvRanks (nodup_receivers p.1) (idxOf_lt_length_of_mem hrank)).map ?_
    intro dst dst' heq
    exact (Prod.mk.inj heq).2
  · refine (pairwise_map.1 hexperts).imp fun {p q} hne => ?_
    intro x hp hq
    obtain ⟨s, hs, rfl⟩ := mem_map.1 hp
    obtain ⟨s', hs', heq⟩ := mem_map.1 hq
    obtain ⟨dst, -, rfl⟩ := mem_map.1 hs
    obtain ⟨dst', -, rfl⟩ := mem_map.1 hs'
    exact hne (Prod.mk.inj heq).1.symm

/-- A rank receives an expert at most once. -/
lemma nodup_postedRecvs : ((postedRecvs old new rank).map Recv.expert).Nodup := by
  unfold postedRecvs
  rw [map_map]
  exact nodup_sortExperts (nodup_firstRows _ _)

include hnew in
/-- A rank sends an expert to a rank exactly if the latter receives it from the former. -/
lemma mem_posted_iff {src dst : Fin R} (weights : Fin n → W) :
    (∃ s ∈ postedSends old new src weights, s.expert = e ∧ s.dst = dst) ↔
      ∃ r ∈ postedRecvs old new dst, r.expert = e ∧ r.src = src := by
  have hpair : ∀ {i j : ℕ}, (senders old e)[i]? = some (src : ℕ) →
      (receivers old new e)[j]? = some (dst : ℕ) →
      ((dst : ℕ) ∈ recvRanks (senders old e) (receivers old new e) i ↔
        sendRank (senders old e) (receivers old new e) j = some (src : ℕ)) :=
    fun hi hj => mem_recvRanks_iff (nodup_senders e) (nodup_receivers e) hi hj
  constructor
  · rintro ⟨s, hs, rfl, hdst⟩
    obtain ⟨row, hrow, hmem, -⟩ := mem_postedSends.1 hs
    obtain ⟨hvalid, hold⟩ := of_mem_sendRows hrow
    rw [hdst] at hmem
    have hdst' := mem_of_mem_recvRanks hmem
    obtain ⟨row', hrow'⟩ := exists_recvRows_of_mem_receivers hvalid hdst'
    refine ⟨⟨s.expert, src, row'⟩, (mem_postedRecvs hnew).2 ⟨hrow', ?_⟩, rfl, rfl⟩
    exact (hpair (getElem?_idxOf (mem_senders.2 ⟨row, hold⟩)) (getElem?_idxOf hdst')).1 hmem
  · rintro ⟨r, hr, rfl, hsrc⟩
    obtain ⟨hrow, hsend⟩ := (mem_postedRecvs hnew).1 hr
    rw [hsrc] at hsend
    have hmem : (src : ℕ) ∈ senders old r.expert := mem_of_sendRank hsend
    obtain ⟨row', hrow'⟩ := mem_senders.1 hmem
    obtain ⟨row'', hrow''⟩ := exists_mem_sendRows (hrow' ▸ (of_mem_recvRows hrow).1)
    rw [hrow'] at hrow''
    refine ⟨⟨r.expert, dst, weights row''⟩, mem_postedSends.2 ⟨row'', hrow'', ?_, rfl⟩, rfl, rfl⟩
    exact (hpair (getElem?_idxOf hmem) (getElem?_idxOf (mem_receivers_of_recvRows hrow))).2 hsend

include hnew in
lemma src_lt (hr : r ∈ postedRecvs old new rank) : r.src < R := by
  obtain ⟨-, hsend⟩ := (mem_postedRecvs hnew).1 hr
  obtain ⟨rank', hrank', -⟩ := Placement.mem_ranksWith.1 (mem_of_sendRank hsend)
  exact hrank' ▸ rank'.isLt

lemma dst_lt {s : Send W} (hs : s ∈ postedSends old new rank weights) : s.dst < R := by
  obtain ⟨-, -, hmem, -⟩ := mem_postedSends.1 hs
  obtain ⟨rank', hrank'⟩ := exists_of_mem_receivers (mem_of_mem_recvRanks hmem)
  exact hrank' ▸ rank'.isLt

end Posting

/-! ## The transfers -/

/-- The buffers after receives, if what is received is what belongs into the rows. -/
lemma foldlM_update {rs : List (Recv n)} {d : Recv n → Option W} {v : Fin n → W}
    (h : ∀ r ∈ rs, d r = some (v r.row)) (b : Fin n → W) :
    rs.foldlM (fun b r => (d r).map (Function.update b r.row)) b =
      some (copyRows (rs.map Recv.row) (some ∘ v) b) := by
  induction rs generalizing b with
  | nil => rfl
  | cons r rs ih =>
    rw [foldlM_cons, h r mem_cons_self]
    exact ih (fun r' hr' => h r' (mem_cons_of_mem _ hr')) _

section Transfers

variable {old new : Placement R n} {workers : Fin R → Worker n W} {weightsOf : ℤ → W}

variable (old new workers) in
/-- What the ranks have posted. -/
def allPosted (rank : Fin R) : Posted n W :=
  ⟨localMoves old new rank (workers rank), postedSends old new rank (workers rank).weights,
    postedRecvs old new rank, transferMetadata old new rank⟩

variable (hnew : ∀ e ∈ new.experts, e ≠ -1 → e ∈ old.experts)
  (hold : ∀ rank row, old.expertAt rank row ≠ -1 →
    (workers rank).weights row = weightsOf (old.expertAt rank row)) {rank : Fin R}

include hnew hold

/-- A receive gets the weights of the expert of its row. -/
lemma delivered_eq (hr : r ∈ postedRecvs old new rank) :
    delivered (allPosted old new workers) rank r = some (weightsOf (new.expertAt rank r.row)) := by
  have hlt := src_lt hnew hr
  obtain ⟨src, hsrc⟩ : ∃ src : Fin R, r.src = src := ⟨⟨r.src, hlt⟩, rfl⟩
  obtain ⟨s, hs, hexpert, hdst⟩ := (mem_posted_iff hnew (workers src).weights).2 ⟨r, hr, rfl, hsrc⟩
  have hfind : ((allPosted old new workers src).sends.find? fun s =>
      s.dst = (rank : ℕ) ∧ s.expert = r.expert).isSome :=
    find?_isSome.2 ⟨s, hs, decide_eq_true ⟨hdst, hexpert⟩⟩
  obtain ⟨s', hs'⟩ := Option.isSome_iff_exists.1 hfind
  have hexpert' := find?_some hs'
  rw [decide_eq_true_eq] at hexpert'
  obtain ⟨row, hrow, -, hpayload⟩ := mem_postedSends.1 (mem_of_find?_eq_some hs')
  obtain ⟨hvalid, hheld⟩ := of_mem_sendRows hrow
  have hneeded := (of_mem_recvRows ((mem_postedRecvs hnew).1 hr).1).2.1
  have heq : (⟨r.src, hlt⟩ : Fin R) = src := Fin.ext hsrc
  unfold delivered
  rw [dif_pos hlt, heq, hs', Option.map_some, hpayload, hold _ _ (hheld ▸ hvalid), hheld, hexpert'.2, hneeded]

/-- After the transfers the buffers of rows that were received hold what belongs there, and the other
ones what was moved locally. -/
lemma execute_eq (rank : Fin R) : execute (allPosted old new workers) rank = some fun row =>
      if row ∈ (recvRows old new rank).map Prod.snd then weightsOf (new.expertAt rank row)
      else localMoves old new rank (workers rank) row := by
  have hrows : ∀ row, row ∈ (postedRecvs old new rank).map Recv.row ↔
      row ∈ (recvRows old new rank).map Prod.snd := by
    intro row
    unfold postedRecvs
    rw [map_map]
    exact ((perm_insertionSort _ _).map Prod.snd).mem_iff
  refine (foldlM_update (v := fun row => weightsOf (new.expertAt rank row))
    (fun r hr => delivered_eq hnew hold hr) _).trans (congrArg some (funext fun row => ?_))
  rw [copyRows_apply]
  exact if_congr (hrows row) rfl rfl

omit hnew in
/-- A row that gets its expert from a slot of its rank has it in its buffer. -/
lemma localMoves_eq (hvalid : new.expertAt rank row ≠ -1)
    (hchanged : isUnchanged old new rank row = false)
    (hlocal : isReceivedLocally old new rank row = true) :
    localMoves old new rank (workers rank) row = weightsOf (new.expertAt rank row) := by
  have hdest : row ∈ (List.finRange n).filter fun row =>
      !isUnchanged old new rank row && isReceivedLocally old new rank row := by
    refine mem_filter.2 ⟨mem_finRange row, ?_⟩
    rw [hchanged, hlocal]
    rfl
  obtain ⟨row', hrow'⟩ : ∃ row', old.expertAt rank row' = new.expertAt rank row := by
    by_contra hnone
    rw [not_exists] at hnone
    rw [(isReceivedLocally_eq_false hvalid).2 hnone] at hlocal
    cases hlocal
  obtain ⟨src, hsrc⟩ := exists_mem_sendRows (hrow' ▸ hvalid)
  rw [hrow'] at hsrc
  have hheld := (of_mem_sendRows hsrc).2
  have hget : (Dict.empty.setAll (sendRows old rank)).get? (new.expertAt rank row) = some src := by
    refine Dict.get?_setAll .empty hsrc ?_
    rintro ⟨e, src'⟩ hp rfl
    exact inj_on_of_nodup_map (nodup_firstRows _ _) hp hsrc rfl |> congrArg Prod.snd
  unfold localMoves
  rw [copyRows_apply, if_pos hdest, hget, Option.map_some, Option.getD_some,
    hold rank src (hheld ▸ hvalid), hheld]

end Transfers

/-! ## Copying from the buffers -/

/-- Copies from rows that are not written. -/
lemma foldl_update {ps : List (Fin n × Fin n)} {w v : Fin n → W} (hsrc : ∀ p ∈ ps, w p.2 = v p.1)
    (hapart : ∀ p ∈ ps, ∀ q ∈ ps, p.2 ≠ q.1) :
    ps.foldl (fun w p => Function.update w p.1 (w p.2)) w =
      copyRows (ps.map Prod.fst) (some ∘ v) w := by
  induction ps generalizing w with
  | nil => rfl
  | cons p ps ih =>
    rw [foldl_cons, hsrc p mem_cons_self]
    refine ih (fun q hq => ?_) fun q hq q' hq' =>
      hapart q (mem_cons_of_mem _ hq) q' (mem_cons_of_mem _ hq')
    rw [Function.update_of_ne (hapart q (mem_cons_of_mem _ hq) p mem_cons_self)]
    exact hsrc q (mem_cons_of_mem _ hq)

/-- `np.searchsorted` finds an expert that is there. -/
lemma getElem?_findIdx {prim : List (ℤ × Fin n)} (hsorted : prim.Pairwise fun a b => a.1 ≤ b.1)
    (h : (e, row) ∈ prim) :
    ∃ p, prim[prim.findIdx fun p => e ≤ p.1]? = some p ∧ p.1 = e := by
  induction prim with
  | nil => cases h
  | cons x prim ih =>
    rw [pairwise_cons] at hsorted
    rw [findIdx_cons]
    by_cases hle : e ≤ x.1
    · rw [decide_eq_true hle]
      refine ⟨x, rfl, le_antisymm ?_ hle⟩
      rcases mem_cons.1 h with rfl | h
      · exact le_refl _
      · exact hsorted.1 _ h
    · rw [decide_eq_false hle]
      refine ih hsorted.2 ((mem_cons.1 h).resolve_left ?_)
      rintro rfl
      exact hle (le_refl _)

section FromBuffer

variable {old new : Placement R n} {rank : Fin R} {weights buffers v : Fin n → W}

lemma isReceivedLocally_of_isUnchanged (h : isUnchanged old new rank row = true) :
    isReceivedLocally old new rank row = true := by
  unfold isReceivedLocally
  rw [h]
  rfl

variable (old new rank) in
/-- The copies of received rows that `move_from_buffer` makes. -/
def duplicates : List (Fin n × Fin n) :=
  ((List.finRange n).filter fun row =>
    (!isUnchanged old new rank row && !isReceivedLocally old new rank row) &&
      (!decide (row ∈ (recvRows old new rank).map Prod.snd) &&
        decide (new.expertAt rank row ≠ -1))).filterMap fun dst =>
    ((sortExperts (recvRows old new rank))[(sortExperts (recvRows old new rank)).findIdx
      fun p => new.expertAt rank dst ≤ p.1]?.filter fun p => p.1 = new.expertAt rank dst).map
      fun p => (dst, p.2)

/-- A copied row is not received itself; it is copied from the row its expert is received for. -/
lemma of_mem_duplicates {dst src : Fin n} (h : (dst, src) ∈ duplicates old new rank) :
    dst ∉ (recvRows old new rank).map Prod.snd ∧
      (new.expertAt rank dst, src) ∈ recvRows old new rank := by
  obtain ⟨dst', hdst, hmap⟩ := mem_filterMap.1 h
  obtain ⟨p, hp, heq⟩ := Option.map_eq_some_iff.1 hmap
  rw [Prod.mk.injEq] at heq
  obtain ⟨hget, hexpert⟩ := Option.filter_eq_some_iff.1 hp
  have hcond := (mem_filter.1 hdst).2
  simp only [Bool.and_eq_true, Bool.not_eq_true', decide_eq_false_iff_not] at hcond
  rw [← heq.1, ← heq.2]
  refine ⟨hcond.2.1, ?_⟩
  rw [← of_decide_eq_true hexpert]
  exact mem_sortExperts.1 (mem_of_getElem? hget)

/-- Every row whose expert is received for another row is copied. -/
lemma exists_mem_duplicates (hvalid : new.expertAt rank row ≠ -1)
    (hremote : isReceivedLocally old new rank row = false)
    (hprimary : row ∉ (recvRows old new rank).map Prod.snd) :
    row ∈ (duplicates old new rank).map Prod.fst := by
  have hchanged : isUnchanged old new rank row = false := by
    cases hunchanged : isUnchanged old new rank row with
    | false => rfl
    | true => exact absurd (isReceivedLocally_of_isUnchanged hunchanged) (by rw [hremote]; nofun)
  obtain ⟨row', hrow'⟩ := exists_mem_recvRows hvalid hremote
  have hsorted : (sortExperts (recvRows old new rank)).Pairwise fun a b => a.1 ≤ b.1 :=
    pairwise_insertionSort (fun a b : ℤ × Fin n => a.1 ≤ b.1) _
  obtain ⟨p, hp, hexpert⟩ := getElem?_findIdx hsorted (mem_sortExperts.2 hrow')
  refine mem_map.2 ⟨(row, p.2), mem_filterMap.2 ⟨row, ?_, ?_⟩, rfl⟩
  · refine mem_filter.2 ⟨mem_finRange row, ?_⟩
    rw [hchanged, hremote, decide_eq_false hprimary, decide_eq_true hvalid]
    rfl
  · rw [hp, Option.filter_some, if_pos (decide_eq_true hexpert)]
    rfl

/-- After `move_from_buffer` every row with an expert holds what belongs there, if its weights do in
case it is unchanged, and its buffer does in case it is received for itself or moved locally. -/
lemma moveFromBuffer_apply (hkept : ∀ row, isUnchanged old new rank row = true →
      new.expertAt rank row ≠ -1 → weights row = v row)
    (hmoved : ∀ row, isUnchanged old new rank row = false → new.expertAt rank row ≠ -1 →
      isReceivedLocally old new rank row = true ∨ row ∈ (recvRows old new rank).map Prod.snd →
      buffers row = v row)
    (hsame : ∀ row row', new.expertAt rank row = new.expertAt rank row' → v row = v row')
    (hvalid : new.expertAt rank row ≠ -1) :
    moveFromBuffer new rank (transferMetadata old new rank) weights buffers row = v row := by
  let w := copyRows ((List.finRange n).filter fun row =>
    !isUnchanged old new rank row && (isReceivedLocally old new rank row ||
      decide (row ∈ (recvRows old new rank).map Prod.snd))) (fun row => some (buffers row)) weights
  have hcopied : ∀ row, new.expertAt rank row ≠ -1 → isReceivedLocally old new rank row = true ∨
      row ∈ (recvRows old new rank).map Prod.snd → w row = v row := by
    intro row hvalid hor
    show copyRows _ _ _ row = _
    rw [copyRows_apply]
    cases hunchanged : isUnchanged old new rank row with
    | true =>
      rw [if_neg, hkept row hunchanged hvalid]
      intro hdest
      have hcond := (mem_filter.1 hdest).2
      rw [hunchanged] at hcond
      cases hcond
    | false =>
      rw [if_pos, Option.getD_some, hmoved row hunchanged hvalid hor]
      refine mem_filter.2 ⟨mem_finRange row, ?_⟩
      rw [hunchanged, Bool.not_false, Bool.true_and, Bool.or_eq_true, decide_eq_true_eq]
      exact hor
  have heq : moveFromBuffer new rank (transferMetadata old new rank) weights buffers =
      if recvRows old new rank = [] then w
      else (duplicates old new rank).foldl (fun w p => Function.update w p.1 (w p.2)) w := rfl
  rw [heq]
  split
  · rename_i hempty
    refine hcopied row hvalid (.inl ?_)
    cases hlocal : isReceivedLocally old new rank row with
    | true => rfl
    | false =>
      obtain ⟨row', hrow'⟩ := exists_mem_recvRows hvalid hlocal
      rw [hempty] at hrow'
      cases hrow'
  · have hapart : ∀ p ∈ duplicates old new rank, ∀ q ∈ duplicates old new rank, p.2 ≠ q.1 := by
      intro p hp q hq hpq
      refine (of_mem_duplicates hq).1 ?_
      rw [← hpq]
      exact mem_map_of_mem (of_mem_duplicates hp).2
    have hsrc : ∀ p ∈ duplicates old new rank, w p.2 = v p.1 := by
      intro p hp
      have hmem := (of_mem_duplicates hp).2
      obtain ⟨hp1, hp2, -⟩ := of_mem_recvRows hmem
      rw [hcopied p.2 (hp2 ▸ hp1) (.inr (mem_map_of_mem hmem))]
      exact hsame _ _ hp2
    rw [foldl_update hsrc hapart, copyRows_apply]
    split
    · rfl
    · rename_i hnot
      refine hcopied row hvalid ?_
      by_contra hneither
      rw [not_or, Bool.not_eq_true] at hneither
      exact hnot (exists_mem_duplicates hvalid hneither.1 hneither.2)

end FromBuffer

/-! ## The exchange -/

/-- **The exchange of expert weights realises the new placement.**  If every expert of the new placement
occurs in the old one, and every slot holds the weights of its expert, then no rank fails or waits for a
message that nobody sends, and afterwards every slot holds the weights of its new expert.  What the
ranks have posted matches one to one: a rank sends an expert to another rank at most once and receives
it at most once, and a send of an expert from one rank to another is posted exactly if the receive is. -/
theorem exchange_realises_placement (old new : Placement R n)
    (hnew : ∀ e ∈ new.experts, e ≠ -1 → e ∈ old.experts) (weightsOf : ℤ → W)
    (workers : Fin R → Worker n W) (hold : ∀ rank row, old.expertAt rank row ≠ -1 →
      (workers rank).weights row = weightsOf (old.expertAt rank row)) :
    (∃ weights, exchange old new workers = some weights ∧ ∀ rank row, new.expertAt rank row ≠ -1 →
        weights rank row = weightsOf (new.expertAt rank row)) ∧
    ∃ posted, (everyRank fun rank => moveToBuffer old new rank (workers rank)) = some posted ∧
      (∀ rank, ((posted rank).sends.map fun s => (s.expert, s.dst)).Nodup ∧
        (∀ s ∈ (posted rank).sends, s.dst < R) ∧
        ((posted rank).recvs.map fun r => (r.expert, r.src)).Nodup ∧
        ∀ r ∈ (posted rank).recvs, r.src < R) ∧
      ∀ (e : ℤ) (src dst : Fin R), (∃ s ∈ (posted src).sends, s.expert = e ∧ s.dst = dst) ↔
        ∃ r ∈ (posted dst).recvs, r.expert = e ∧ r.src = src := by
  have hposted : (everyRank fun rank => moveToBuffer old new rank (workers rank)) =
      some (allPosted old new workers) := everyRank_eq_some fun rank => moveToBuffer_eq hnew _
  have hexchange : exchange old new workers = some fun rank => moveFromBuffer new rank
      (transferMetadata old new rank) (workers rank).weights fun row =>
        if row ∈ (recvRows old new rank).map Prod.snd then weightsOf (new.expertAt rank row)
        else localMoves old new rank (workers rank) row := by
    unfold exchange
    rw [hposted, Option.bind_eq_bind, Option.bind_some, everyRank_eq_some (execute_eq hnew hold)]
    rfl
  refine ⟨⟨_, hexchange, ?_⟩, allPosted old new workers, hposted, fun rank => ⟨?_, ?_, ?_, ?_⟩, ?_⟩
  · intro rank row hvalid
    refine moveFromBuffer_apply (v := fun row => weightsOf (new.expertAt rank row)) ?_ ?_ ?_ hvalid
    · intro row hunchanged hvalid
      have heq : old.expertAt rank row = new.expertAt rank row := of_decide_eq_true hunchanged
      rw [hold rank row (heq ▸ hvalid), heq]
    · intro row hchanged hvalid hor
      split
      · rfl
      · rename_i hnot
        exact localMoves_eq hold hvalid hchanged (hor.resolve_right hnot)
    · intro row row' heq
      rw [heq]
  · exact nodup_postedSends _
  · exact fun s hs => dst_lt hs
  · refine List.Nodup.of_map Prod.fst ?_
    rw [map_map]
    exact nodup_postedRecvs
  · exact fun r hr => src_lt hnew hr
  · exact fun e src dst => mem_posted_iff hnew _

/-- The slots of two ranks, before an exchange. -/
def twoRanksOld : Placement 2 3 := ⟨[0, 1, -1, 2, 1, 2], rfl⟩

/-- The slots of two ranks, after an exchange. -/
def twoRanksNew : Placement 2 3 := ⟨[2, 0, 2, 1, -1, 0], rfl⟩

/-- A rank gets an expert for two slots, and both move an expert to another slot. -/
theorem exchange_two_ranks : ∃ weights : Fin 2 → Fin 3 → ℤ,
    exchange twoRanksOld twoRanksNew (fun rank => ⟨twoRanksOld.expertAt rank, fun _ => 7⟩) =
      some weights ∧ weights 0 0 = 2 ∧ weights 0 1 = 0 ∧ weights 0 2 = 2 ∧ weights 1 0 = 1 ∧
      weights 1 2 = 0 := by
  obtain ⟨⟨weights, hweights, hplaced⟩, -⟩ := exchange_realises_placement twoRanksOld twoRanksNew
    (by decide) id (fun rank => ⟨twoRanksOld.expertAt rank, fun _ => 7⟩) fun rank row _ => rfl
  exact ⟨weights, hweights, hplaced 0 0 (by decide), hplaced 0 1 (by decide), hplaced 0 2 (by decide),
    hplaced 1 0 (by decide), hplaced 1 2 (by decide)⟩

end Lvllm
