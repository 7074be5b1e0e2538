import Lvllm.Foundation.Dict
import Lvllm.Foundation.StateExcept
import Lvllm.Request.Request
import Mathlib.Data.List.Perm.Subperm

/-!
# Asynchronous lookups of a secondary tier

The lookup manager of a tier (`vllm/v1/kv_offload/tiering/async_lookup.py`).  The scheduler thread
asks for keys, hands the new ones to a worker thread in batches, and applies the answers when it
next asks.  The two threads meet only in two queues, so that what the worker does to a batch is one
step here: it takes the batch, probes the tier and posts the answers.

Two numbers are kept beside the data of the source: every call of `lookup` has a number, an entry
knows the call that created it and a probe the call that issued it.  No function reads them; they
say which probe an answer comes from.

The lemmas say what a drain and a cleanup do to the entries when they return, and that they return
when every answer meets an undecided entry or none, and every key of a request has an entry.
-/

namespace Lvllm

open List

/-- `LookupState`: the cached verdict and the requests that asked for it. -/
structure LookupState (Req : Type) where
  /-- Found, not found, or not known yet. -/
  result : Option Bool
  /-- The requests asking for the lookup. -/
  requestIds : List Req
  /-- The call of `lookup` that created the entry. -/
  created : ℕ
  deriving DecidableEq, Repr

/-- The entry without a request; it goes with the last one. -/
def LookupState.discard {Req : Type} [DecidableEq Req] (state : LookupState Req) (reqId : Req) :
    Option (LookupState Req) :=
  let requestIds := state.requestIds.filter (· ≠ reqId)
  if requestIds = [] then none else some { state with requestIds }

/-- What is left of an entry has the other requests, and there are some. -/
lemma LookupState.discard_eq_some {Req : Type} [DecidableEq Req] {state state' : LookupState Req}
    {reqId : Req} : state.discard reqId = some state' ↔ state.requestIds.filter (· ≠ reqId) ≠ [] ∧
        { state with requestIds := state.requestIds.filter (· ≠ reqId) } = state' := by
  show (if state.requestIds.filter (· ≠ reqId) = [] then none else some _) = some state' ↔ _
  split
  · rename_i hnil
    exact iff_of_false nofun fun hright => hright.1 hnil
  · rename_i hne
    rw [Option.some.injEq, and_iff_right hne]

/-- A key on its way to the worker and back, with the request that asked first. -/
structure Probe (Key Req : Type) where
  key : Key
  reqId : Req
  /-- The call of `lookup` that issued the probe. -/
  issued : ℕ
  deriving DecidableEq, Repr

/-- `AsyncLookupManager`, with both of its queues. -/
structure AsyncLookupManager (Key Req : Type) where
  /-- The entry of each key. -/
  lookupState : Dict Key (LookupState Req)
  /-- The keys looked up by each request. -/
  reqKeys : Dict Req (List Key)
  /-- The probes collected in this step. -/
  lookupBatch : List (Probe Key Req)
  /-- Scheduler to worker, one batch an item. -/
  lookupQueue : List (List (Probe Key Req))
  /-- Worker to scheduler, the answers of one batch an item. -/
  pendingResults : List (List (Probe Key Req × Bool))
  needToDrain : Bool
  /-- The calls of `lookup` so far. -/
  calls : ℕ

/-- Code of the manager. -/
abbrev AsyncM (Key Req : Type) := EStateM PyErr (AsyncLookupManager Key Req)

namespace AsyncLookupManager

variable {Key Req : Type} [DecidableEq Key] [DecidableEq Req]

/-- A new manager. -/
def init : AsyncLookupManager Key Req where
  lookupState := .empty
  reqKeys := .empty
  lookupBatch := []
  lookupQueue := []
  pendingResults := []
  needToDrain := false
  calls := 0

/-! ## The scheduler thread -/

/-- Apply one answer: an entry that is already decided must not get one. -/
def applyResult (r : Probe Key Req × Bool) : AsyncM Key Req PUnit := do
  let s ← get
  match s.lookupState.get? r.1.key with
  | none => pure ⟨⟩
  | some state =>
    if state.result = none then
      set { s with lookupState := s.lookupState.set r.1.key { state with result := some r.2 } }
    else throw .assertionError

/-- Take the answers from the queue, one batch after another. -/
def drainBatches : List (List (Probe Key Req × Bool)) → AsyncM Key Req PUnit
  | [] => pure ⟨⟩
  | batch :: rest => do
    modify fun s => { s with pendingResults := rest }
    batch.forM applyResult
    drainBatches rest

/-- `drain_results`. -/
def drainResults : AsyncM Key Req PUnit := do
  let s ← get
  drainBatches s.pendingResults

variable (s : AsyncLookupManager Key Req)

/-- The entry of a key once a request has asked for it. -/
def entryFor (key : Key) (reqId : Req) : LookupState Req :=
  let state := (s.lookupState.get? key).getD ⟨none, [], s.calls⟩
  { state with requestIds := state.requestIds.insert reqId }

/-- The part of `lookup` behind the drain: create the entry of a new key and its probe, and note
the request. -/
def ask (key : Key) (reqId : Req) : AsyncLookupManager Key Req :=
  { s with
    lookupState := s.lookupState.set key (s.entryFor key reqId)
    lookupBatch :=
      if s.lookupState.get? key = none then s.lookupBatch ++ [⟨key, reqId, s.calls⟩]
      else s.lookupBatch
    reqKeys := s.reqKeys.set reqId (((s.reqKeys.get? reqId).getD []).insert key)
    calls := s.calls + 1 }

/-- Drain if a batch was posted since the last drain. -/
def drainIfNeeded : AsyncM Key Req PUnit := do
  let s ← get
  if s.needToDrain then
    drainResults
    modify fun s => { s with needToDrain := false }
  else pure ⟨⟩

/-- `lookup`. -/
def lookup (key : Key) (reqId : Req) : AsyncM Key Req (Option Bool) := do
  drainIfNeeded
  modify fun s => s.ask key reqId
  let s ← get
  return (s.lookupState.get? key).bind LookupState.result

/-- `flush`. -/
def flush : AsyncLookupManager Key Req :=
  if s.lookupBatch = [] then { s with needToDrain := true }
  else
    { s with
      needToDrain := true
      lookupQueue := s.lookupQueue ++ [s.lookupBatch]
      lookupBatch := [] }

/-- Force the verdict of one key, if it is cached. -/
def markMissKey (key : Key) : AsyncLookupManager Key Req :=
  match s.lookupState.get? key with
  | none => s
  | some state =>
    { s with lookupState := s.lookupState.set key { state with result := some false } }

/-- `mark_miss`. -/
def markMiss (keys : List Key) : AsyncLookupManager Key Req :=
  keys.foldl markMissKey s

/-- One round of `cleanup`. -/
def cleanupKey (reqId : Req) (key : Key) : AsyncM Key Req PUnit := do
  let s ← get
  match s.lookupState.get? key with
  | none => throw .keyError
  | some state =>
    match state.discard reqId with
    | none => set { s with lookupState := s.lookupState.erase key }
    | some state' => set { s with lookupState := s.lookupState.set key state' }

/-- `cleanup`. -/
def cleanup (reqId : Req) : AsyncM Key Req PUnit := do
  let s ← get
  set { s with reqKeys := s.reqKeys.erase reqId }
  ((s.reqKeys.get? reqId).getD []).forM (cleanupKey reqId)

/-! ## The worker thread -/

/-- The probes of a batch by request, in the order of first occurrence. -/
def groupByReq (pending : List (Probe Key Req)) : Dict Req (List (Probe Key Req)) :=
  pending.foldl (fun d p => d.set p.reqId ((d.get? p.reqId).getD [] ++ [p])) .empty

/-- The answers to a batch: `batchLookup` is asked once for each request, a failure (`none`) counts
as not found, and answers are paired with keys as far as both go. -/
def results (batchLookup : Req → List Key → Option (List Bool)) (pending : List (Probe Key Req)) :
    List (Probe Key Req × Bool) :=
  (groupByReq pending).entries.flatMap fun e =>
    e.2.zip ((batchLookup e.1 (e.2.map Probe.key)).getD (e.2.map fun _ => false))

/-- One round of `_worker`: with an empty queue it waits. -/
def worker (batchLookup : Req → List Key → Option (List Bool)) (s : AsyncLookupManager Key Req) :
    AsyncLookupManager Key Req :=
  match s.lookupQueue with
  | [] => s
  | pending :: rest =>
    let answers := results batchLookup pending
    if answers = [] then { s with lookupQueue := rest }
    else { s with lookupQueue := rest, pendingResults := s.pendingResults ++ [answers] }

/-! ## Probes on their way -/

/-- The probes in the queues and in the batch being collected. -/
def probes : List (Probe Key Req) :=
  s.lookupQueue.flatten ++ s.lookupBatch

/-- The probes whose answer has not been applied. -/
def outstanding : List (Probe Key Req) :=
  s.pendingResults.flatten.map Prod.fst ++ s.probes

/-- The probes `l` are of distinct keys, and each was issued with the entry its answer will meet,
which is still undecided. -/
structure Awaits (s : AsyncLookupManager Key Req) (l : List (Probe Key Req)) : Prop where
  once : (l.map Probe.key).Nodup
  undecided : ∀ p ∈ l, ∀ state, s.lookupState.get? p.key = some state →
    state.result = none ∧ state.created = p.issued

variable {s s' : AsyncLookupManager Key Req} {l : List (Probe Key Req)}

omit [DecidableEq Req] in
lemma Awaits.mono {l' : List (Probe Key Req)} (h : s.Awaits l) (hsub : l'.Subperm l) :
    s.Awaits l' := by
  obtain ⟨m, hperm, hsublist⟩ := hsub
  refine ⟨?_, fun p hp => h.undecided p (hsublist.subset (hperm.mem_iff.2 hp))⟩
  exact ((hperm.map _).nodup_iff).1 (h.once.sublist (hsublist.map _))

omit [DecidableEq Req] in
/-- What is awaited depends on the entries of the keys on their way. -/
lemma Awaits.congr (h : s.Awaits l)
    (heq : ∀ p ∈ l, s'.lookupState.get? p.key = s.lookupState.get? p.key) : s'.Awaits l :=
  ⟨h.once, fun p hp state hstate => h.undecided p hp state (heq p hp ▸ hstate)⟩

/-! ## A drain -/

section

omit [DecidableEq Req]

/-- What applying the answers `rs` does: it decides the entries they meet. -/
structure Drained (s : AsyncLookupManager Key Req) (rs : List (Probe Key Req × Bool))
    (s' : AsyncLookupManager Key Req) : Prop where
  others : ∀ key, key ∉ rs.map (·.1.key) → s'.lookupState.get? key = s.lookupState.get? key
  decided : ∀ r ∈ rs, s'.lookupState.get? r.1.key =
    (s.lookupState.get? r.1.key).map fun state => { state with result := some r.2 }
  rest : s' = { s with lookupState := s'.lookupState, pendingResults := s'.pendingResults }

lemma Drained.refl (s : AsyncLookupManager Key Req) : Drained s [] s := ⟨fun _ _ => rfl, nofun, rfl⟩

variable {rs : List (Probe Key Req × Bool)}

/-- Answers of distinct keys can be applied one after another. -/
lemma Drained.trans {s₁ s₂ s₃ : AsyncLookupManager Key Req} {rs' : List (Probe Key Req × Bool)}
    (h : Drained s₁ rs s₂) (h' : Drained s₂ rs' s₃) (hnodup : ((rs ++ rs').map (·.1.key)).Nodup) :
    Drained s₁ (rs ++ rs') s₃ := by
  rw [map_append] at hnodup
  refine ⟨fun key hkey => ?_, fun r hr => ?_, ?_⟩
  · rw [map_append, mem_append, not_or] at hkey
    rw [h'.others key hkey.2, h.others key hkey.1]
  · rcases mem_append.1 hr with hr | hr
    · have hkey : r.1.key ∉ rs'.map (·.1.key) := fun hmem =>
        disjoint_of_nodup_append hnodup (mem_map_of_mem hr) hmem
      rw [h'.others _ hkey, h.decided r hr]
    · have hkey : r.1.key ∉ rs.map (·.1.key) := fun hmem =>
        disjoint_of_nodup_append hnodup hmem (mem_map_of_mem hr)
      rw [h'.decided r hr, h.others _ hkey]
  · rw [h'.rest, h.rest]

lemma Drained.requestIds (h : Drained s rs s') (key : Key) :
    (s'.lookupState.get? key).map LookupState.requestIds =
      (s.lookupState.get? key).map LookupState.requestIds := by
  by_cases hkey : key ∈ rs.map (·.1.key)
  · obtain ⟨r, hr, rfl⟩ := mem_map.1 hkey
    rw [h.decided r hr, Option.map_map]
    rfl
  · rw [h.others key hkey]

/-- What is awaited behind the answers is still awaited. -/
lemma Drained.awaits (h : Drained s rs s') (hs : s.Awaits (rs.map Prod.fst ++ l)) :
    s'.Awaits l := by
  have hl : s.Awaits l := hs.mono (sublist_append_right _ _).subperm
  have hnodup := hs.once
  rw [map_append, map_map] at hnodup
  refine hl.congr fun p hp => h.others _ fun hmem => ?_
  exact disjoint_of_nodup_append hnodup hmem (mem_map_of_mem hp)

lemma applyResult_ok {r : Probe Key Req × Bool}
    (h : ∀ state, s.lookupState.get? r.1.key = some state → state.result = none) :
    ∃ s', applyResult r s = .ok ⟨⟩ s' ∧ Drained s [r] s' ∧
      s'.pendingResults = s.pendingResults := by
  have hrun : applyResult r s = match s.lookupState.get? r.1.key with
      | none => .ok ⟨⟩ s
      | some state =>
        if state.result = none then .ok ⟨⟩ { s with
          lookupState := s.lookupState.set r.1.key { state with result := some r.2 } }
        else .error .assertionError s := by
    unfold applyResult
    rw [bind_get]
    cases s.lookupState.get? r.1.key with
    | none => rfl
    | some state =>
      dsimp only
      split <;> rfl
  rw [hrun]
  cases hentry : s.lookupState.get? r.1.key with
  | none =>
    refine ⟨s, rfl, ⟨fun _ _ => rfl, ?_, rfl⟩, rfl⟩
    intro r' hr'
    rw [mem_singleton.1 hr', hentry]
    rfl
  | some state =>
    refine ⟨_, if_pos (h state hentry), ⟨?_, ?_, rfl⟩, rfl⟩
    · intro key hkey
      exact Dict.get?_set_ne _ (fun heq => hkey (mem_singleton.2 heq)) _
    · intro r' hr'
      rw [mem_singleton.1 hr', hentry]
      exact Dict.get?_set_self _ _ _

/-- A batch of awaited answers can be applied. -/
lemma applyResults_ok (h : s.Awaits (rs.map Prod.fst)) :
    ∃ s', rs.forM applyResult s = .ok ⟨⟩ s' ∧ Drained s rs s' ∧
      s'.pendingResults = s.pendingResults := by
  induction rs generalizing s with
  | nil => exact ⟨s, rfl, Drained.refl s, rfl⟩
  | cons r rs ih =>
    obtain ⟨s₁, hfirst, hdrained, hpending⟩ := applyResult_ok (s := s) (r := r)
      fun state hstate => (h.undecided r.1 mem_cons_self state hstate).1
    have h1 : s₁.Awaits (rs.map Prod.fst) := hdrained.awaits h
    obtain ⟨s₂, hrest, hdrained', hpending'⟩ := ih h1
    have hnodup := h.once
    rw [map_map] at hnodup
    exact ⟨s₂, forM_cons_ok hfirst hrest, hdrained.trans hdrained' hnodup, hpending'.trans hpending⟩

lemma drainBatches_ok {batches : List (List (Probe Key Req × Bool))}
    (hs : s.pendingResults = batches) (h : s.Awaits (batches.flatten.map Prod.fst)) :
    ∃ s', drainBatches batches s = .ok ⟨⟩ s' ∧ Drained s batches.flatten s' ∧
      s'.pendingResults = [] := by
  induction batches generalizing s with
  | nil => exact ⟨s, rfl, Drained.refl s, hs⟩
  | cons batch rest ih =>
    let t := { s with pendingResults := rest }
    have hst : Drained s [] t := ⟨fun _ _ => rfl, nofun, rfl⟩
    have hawaits : t.Awaits (batch.map Prod.fst ++ rest.flatten.map Prod.fst) := by
      rw [flatten_cons, map_append] at h
      exact h.congr fun _ _ => rfl
    obtain ⟨s₁, hfirst, hdrained, hpending⟩ :=
      applyResults_ok (hawaits.mono (sublist_append_left _ _).subperm)
    obtain ⟨s₂, hrest, hdrained', hpending'⟩ := ih hpending (hdrained.awaits hawaits)
    have hnodup := h.once
    rw [map_map] at hnodup
    refine ⟨s₂, ?_, (hst.trans hdrained ?_).trans hdrained' hnodup, hpending'⟩
    · unfold drainBatches
      rw [bind_modify, bind_ok hfirst, hrest]
    · rw [flatten_cons, map_append] at hnodup
      exact (nodup_append.1 hnodup).1

/-- When all answers are awaited, a drain returns, and the assertion of the source holds. -/
lemma drainResults_ok (h : s.Awaits s.outstanding) :
    ∃ s', drainResults s = .ok ⟨⟩ s' ∧ Drained s s.pendingResults.flatten s' ∧
      s'.pendingResults = [] ∧ s'.Awaits s'.outstanding := by
  obtain ⟨s', hrun, hdrained, hpending⟩ :=
    drainBatches_ok rfl (h.mono (sublist_append_left _ _).subperm)
  refine ⟨s', ?_, hdrained, hpending, ?_⟩
  · unfold drainResults
    rw [bind_get, hrun]
  · have hprobes : s'.probes = s.probes := by
      rw [hdrained.rest]
      rfl
    rw [outstanding, hpending, hprobes]
    exact hdrained.awaits h

end

/-! ## A cleanup -/

/-- The entries of a manager replaced. -/
def withEntries (entries : Dict Key (LookupState Req)) :
    AsyncLookupManager Key Req :=
  { s with lookupState := entries }

/-- A cleanup takes the request from the entries of its keys. -/
lemma cleanupKeys_ok (reqId : Req) {keys : List Key} (hnodup : keys.Nodup)
    (h : ∀ key ∈ keys, s.lookupState.get? key ≠ none) :
    ∃ entries, keys.forM (cleanupKey reqId) s = .ok ⟨⟩ (s.withEntries entries) ∧
      ∀ key, entries.get? key = if key ∈ keys then
        (s.lookupState.get? key).bind (·.discard reqId) else s.lookupState.get? key := by
  induction keys generalizing s with
  | nil => exact ⟨s.lookupState, rfl, fun _ => (if_neg not_mem_nil).symm⟩
  | cons key keys ih =>
    rw [nodup_cons] at hnodup
    obtain ⟨state, hstate⟩ := Option.ne_none_iff_exists'.1 (h key mem_cons_self)
    obtain ⟨entries1, hfirst, hself, hother⟩ : ∃ entries,
        cleanupKey reqId key s = .ok ⟨⟩ (s.withEntries entries) ∧
          entries.get? key = state.discard reqId ∧
          ∀ key', key' ≠ key → entries.get? key' = s.lookupState.get? key' := by
      unfold cleanupKey
      rw [bind_get, hstate]
      dsimp only
      cases state.discard reqId with
      | none =>
        exact ⟨_, rfl, Dict.get?_erase_self _ _, fun _ hne => Dict.get?_erase_ne _ hne⟩
      | some state' =>
        exact ⟨_, rfl, Dict.get?_set_self _ _ _, fun _ hne => Dict.get?_set_ne _ hne _⟩
    have hrest : ∀ key' ∈ keys, (s.withEntries entries1).lookupState.get? key' ≠ none := by
      intro key' hmem
      rw [withEntries, hother key' fun heq => hnodup.1 (heq ▸ hmem)]
      exact h key' (mem_cons_of_mem _ hmem)
    obtain ⟨entries2, hrun, hentries⟩ := ih hnodup.2 hrest
    refine ⟨entries2, forM_cons_ok hfirst hrun, fun key' => ?_⟩
    rw [hentries, withEntries]
    by_cases heq : key' = key
    · rw [heq, if_neg hnodup.1, if_pos mem_cons_self, hself, hstate]
      rfl
    · simp only [hother key' heq, mem_cons, heq, false_or]

/-! ## A round of the worker -/

omit [DecidableEq Key] in
lemma groupByReq_perm (pending : List (Probe Key Req)) :
    ((groupByReq pending).entries.flatMap Prod.snd).Perm pending := by
  suffices h : ∀ d : Dict Req (List (Probe Key Req)),
      ((pending.foldl (fun d p => d.set p.reqId ((d.get? p.reqId).getD [] ++ [p])) d).entries.flatMap
        Prod.snd).Perm (d.entries.flatMap Prod.snd ++ pending) from h .empty
  induction pending with
  | nil => intro d; simp
  | cons p pending ih =>
    intro d
    refine (ih _).trans ?_
    rw [← singleton_append, ← append_assoc]
    refine List.Perm.append_right _ ?_
    dsimp only
    cases hgroup : d.get? p.reqId with
    | none =>
      rw [Dict.entries_set_of_get?_eq_none hgroup]
      simp
    | some group =>
      have hset := (Dict.entries_set_perm d p.reqId (group ++ [p])).flatMap_right Prod.snd
      have hold := (Dict.entries_perm_cons_erase hgroup).flatMap_right Prod.snd
      have hmove : ((group ++ [p]) ++ (d.erase p.reqId).entries.flatMap Prod.snd).Perm
          ((group ++ (d.erase p.reqId).entries.flatMap Prod.snd) ++ [p]) := by
        rw [append_assoc, append_assoc]
        exact List.Perm.append_left _ perm_append_comm
      exact (hset.trans hmove).trans (List.Perm.append_right _ hold.symm)

/-- Pairing keeps the order of what it pairs. -/
private lemma map_fst_zip_sublist {α β : Type} (l : List α) (l' : List β) :
    ((l.zip l').map Prod.fst).Sublist l := by
  induction l generalizing l' with
  | nil => exact List.Sublist.refl _
  | cons a l ih =>
    cases l' with
    | nil => exact nil_sublist _
    | cons b l' => exact (ih l').cons_cons a

omit [DecidableEq Key] in
/-- Every answer is to a probe of the batch, and to each probe there is at most one. -/
lemma results_subperm (batchLookup : Req → List Key → Option (List Bool))
    (pending : List (Probe Key Req)) :
    ((results batchLookup pending).map Prod.fst).Subperm pending := by
  refine List.Subperm.trans ?_ (groupByReq_perm pending).subperm
  rw [results, map_flatMap]
  refine List.Sublist.subperm ?_
  induction (groupByReq pending).entries with
  | nil => exact List.Sublist.refl _
  | cons e entries ih =>
    refine List.Sublist.append ?_ ih
    exact map_fst_zip_sublist _ _

end AsyncLookupManager

end Lvllm
