import Lvllm.Foundation.Run
import Lvllm.Offload.AsyncLookup

/-!
# Runs of the asynchronous lookups

A run is any interleaving of the calls of the scheduler thread with rounds of the worker.  Beside
the manager it keeps who has asked for which key and has not finished, and the keys that were marked
as a miss while somebody was asking for them.

`second_verdict` is a run in which the assertion of the drain fails: the only request of a key
finishes while its probe is queued, another request asks for the key, and both probes are answered.
`async_verdicts` is what holds in every run in which this does not happen: no key is asked for anew
while an earlier probe of it is on its way, and no key is marked as a miss while its probe is.
-/

namespace Lvllm

open List Option

/-- The calls of the scheduler thread, and a round of the worker with the answers of the tier. -/
inductive AsyncOp (Key Req : Type) where
  | lookup (key : Key) (reqId : Req)
  | flush
  | drainResults
  | markMiss (keys : List Key)
  | cleanup (reqId : Req)
  | worker (batchLookup : Req → List Key → Option (List Bool))

/-- A manager with who asks for what, and the keys marked as a miss. -/
structure AsyncRun (Key Req : Type) where
  manager : AsyncLookupManager Key Req
  /-- The keys asked for by requests that have not finished. -/
  asked : List (Key × Req)
  /-- The keys marked as a miss that some request has asked for ever since. -/
  missed : List Key

variable {Key Req : Type} [DecidableEq Key] [DecidableEq Req]

/-- The code of a step. -/
def AsyncOp.call : AsyncOp Key Req → AsyncM Key Req PUnit
  | .lookup key reqId => (fun _ => ⟨⟩) <$> AsyncLookupManager.lookup key reqId
  | .flush => modify AsyncLookupManager.flush
  | .drainResults => AsyncLookupManager.drainResults
  | .markMiss keys => modify (·.markMiss keys)
  | .cleanup reqId => AsyncLookupManager.cleanup reqId
  | .worker batchLookup => modify (·.worker batchLookup)

namespace AsyncRun

open AsyncLookupManager

/-- Some request that asked for the key has not finished. -/
def IsAsked (asked : List (Key × Req)) (key : Key) : Prop := ∃ a ∈ asked, a.1 = key

instance decidableIsAsked (asked : List (Key × Req)) (key : Key) : Decidable (IsAsked asked key) :=
  inferInstanceAs (Decidable (∃ a ∈ asked, a.1 = key))

/-- Who asks for what behind a step. -/
def askedAfter (asked : List (Key × Req)) : AsyncOp Key Req → List (Key × Req)
  | .lookup key reqId => asked.insert (key, reqId)
  | .cleanup reqId => asked.filter (·.2 ≠ reqId)
  | _ => asked

/-- The keys marked as a miss behind a step. -/
def missedAfter (r : AsyncRun Key Req) : AsyncOp Key Req → List Key
  | .markMiss keys => r.missed ++ keys.filter (IsAsked r.asked ·)
  | .cleanup reqId => r.missed.filter (IsAsked (askedAfter r.asked (.cleanup reqId)) ·)
  | _ => r.missed

/-- A step that returns. -/
def step (r : AsyncRun Key Req) (op : AsyncOp Key Req) : Option (AsyncRun Key Req) :=
  match op.call r.manager with
  | .ok _ m => some ⟨m, askedAfter r.asked op, r.missedAfter op⟩
  | .error _ _ => none

section

omit [DecidableEq Key] [DecidableEq Req]

/-- A run starts with a new manager. -/
def Initial (r : AsyncRun Key Req) : Prop := r = ⟨init, [], []⟩

lemma initial_new : Initial (⟨init, [], []⟩ : AsyncRun Key Req) := rfl

/-- The probes on their way when a lookup looks at the entries. -/
def onTheirWay (s : AsyncLookupManager Key Req) : List (Probe Key Req) :=
  if s.needToDrain then s.probes else s.outstanding

end

/-- A step that meets no probe of an earlier entry: a key without an entry is asked for only when no
probe of it is on its way, and an entry is marked as a miss only then. -/
def Timely (r : AsyncRun Key Req) : AsyncOp Key Req → Prop
  | .lookup key _ => r.manager.lookupState.get? key = none →
      ∀ p ∈ onTheirWay r.manager, p.key ≠ key
  | .markMiss keys => ∀ key ∈ keys, r.manager.lookupState.get? key ≠ none →
      ∀ p ∈ r.manager.outstanding, p.key ≠ key
  | _ => True

instance decidableTimely (r : AsyncRun Key Req) (op : AsyncOp Key Req) : Decidable (r.Timely op) :=
  match op with
  | .lookup key _ => inferInstanceAs (Decidable (r.manager.lookupState.get? key = none →
      ∀ p ∈ onTheirWay r.manager, p.key ≠ key))
  | .markMiss keys => inferInstanceAs (Decidable (∀ key ∈ keys,
      r.manager.lookupState.get? key ≠ none → ∀ p ∈ r.manager.outstanding, p.key ≠ key))
  | .flush | .drainResults | .cleanup _ | .worker _ => inferInstanceAs (Decidable True)

/-- The states that any interleaving leads to. -/
def Reachable (r : AsyncRun Key Req) : Prop := Reached Initial step (fun _ _ => True) r

/-- The states that timely steps lead to. -/
def ReachableTimely (r : AsyncRun Key Req) : Prop := Reached Initial step Timely r

/-! ## Who asks for what -/

/-- The entries and the reverse index record who asks for what. -/
structure Records (s : AsyncLookupManager Key Req) (asked : List (Key × Req)) : Prop where
  cached : ∀ key state, s.lookupState.get? key = some state →
    state.requestIds ≠ [] ∧ ∀ reqId, reqId ∈ state.requestIds ↔ (key, reqId) ∈ asked
  uncached : ∀ key, s.lookupState.get? key = none → ∀ reqId, (key, reqId) ∉ asked
  keys : ∀ reqId, ((s.reqKeys.get? reqId).getD []).Nodup ∧
    ∀ key, key ∈ (s.reqKeys.get? reqId).getD [] ↔ (key, reqId) ∈ asked

variable {s : AsyncLookupManager Key Req} {asked : List (Key × Req)} {r : AsyncRun Key Req}

/-- The records do not depend on verdicts and queues. -/
lemma Records.congr {s' : AsyncLookupManager Key Req} (h : Records s asked)
    (hkeys : s'.reqKeys = s.reqKeys)
    (hentries : ∀ key, (s'.lookupState.get? key).map LookupState.requestIds =
      (s.lookupState.get? key).map LookupState.requestIds) : Records s' asked := by
  refine ⟨fun key state hstate => ?_, fun key hnone => ?_, fun reqId => ?_⟩
  · have hmap := hentries key
    rw [hstate] at hmap
    obtain ⟨state0, hstate0, hids⟩ := map_eq_some_iff.1 hmap.symm
    rw [← hids]
    exact h.cached key state0 hstate0
  · have hmap := hentries key
    rw [hnone] at hmap
    exact h.uncached key (map_eq_none_iff.1 hmap.symm)
  · rw [hkeys]
    exact h.keys reqId

/-- A key has an entry exactly while somebody asks for it. -/
lemma Records.ne_none (h : Records s asked) {key : Key} (hasked : IsAsked asked key) :
    s.lookupState.get? key ≠ none := by
  obtain ⟨⟨key', reqId⟩, hmem, rfl⟩ := hasked
  exact fun hnone => h.uncached _ hnone reqId hmem

/-- The keys marked as a miss are cached as a miss. -/
def Misses (s : AsyncLookupManager Key Req) (missed : List Key) : Prop :=
  ∀ key ∈ missed, (s.lookupState.get? key).bind LookupState.result = some false

/-- What holds of a run with timely steps. -/
structure RunInv (r : AsyncRun Key Req) : Prop where
  awaits : r.manager.Awaits r.manager.outstanding
  records : Records r.manager r.asked
  misses : Misses r.manager r.missed

lemma runInv_init (h : Initial r) : RunInv r := by
  cases h
  refine ⟨⟨nodup_nil, nofun⟩, ⟨nofun, nofun, fun reqId => ⟨nodup_nil, ?_⟩⟩, nofun⟩
  intro key
  exact iff_of_false not_mem_nil not_mem_nil

/-- With the same entries, fewer probes on their way and the flag of the drain in any state. -/
lemma RunInv.requeue (h : RunInv r) {s : AsyncLookupManager Key Req}
    (hstate : s.lookupState = r.manager.lookupState) (hkeys : s.reqKeys = r.manager.reqKeys)
    (hsub : s.outstanding.Subperm r.manager.outstanding) : RunInv ⟨s, r.asked, r.missed⟩ := by
  refine ⟨(h.awaits.congr fun _ _ => by rw [hstate]).mono hsub,
    h.records.congr hkeys fun _ => by rw [hstate], fun key hmem => ?_⟩
  rw [hstate]
  exact h.misses key hmem

/-! ## The calls -/

/-- What a drain leaves: the same records, the same misses and the probes still on their way. -/
lemma RunInv.drained (h : RunInv r) :
    ∃ s, drainResults r.manager = .ok ⟨⟩ s ∧ RunInv ⟨s, r.asked, r.missed⟩ ∧
      s.outstanding = r.manager.probes ∧
      ∀ key, s.lookupState.get? key = none ↔ r.manager.lookupState.get? key = none := by
  obtain ⟨s, hrun, hdrained, hpending, hawaits⟩ := drainResults_ok h.awaits
  refine ⟨s, hrun, ⟨hawaits, ?_, ?_⟩, ?_, ?_⟩
  · refine h.records.congr ?_ hdrained.requestIds
    rw [hdrained.rest]
  · -- the entry of a missed key is decided, so no answer is for it
    intro key hkey
    have hmiss := h.misses key hkey
    obtain ⟨state, hstate, hresult⟩ := bind_eq_some_iff.1 hmiss
    rw [hdrained.others key, hmiss]
    intro hmem
    obtain ⟨a, ha, rfl⟩ := mem_map.1 hmem
    have hout : a.1 ∈ r.manager.outstanding := mem_append_left _ (mem_map_of_mem ha)
    rw [(h.awaits.undecided a.1 hout state hstate).1] at hresult
    cases hresult
  · rw [outstanding, hpending, hdrained.rest]
    rfl
  · intro key
    rw [← map_eq_none_iff (f := LookupState.requestIds), hdrained.requestIds, map_eq_none_iff]

lemma RunInv.drainedIfNeeded (h : RunInv r) :
    ∃ s, drainIfNeeded r.manager = .ok ⟨⟩ s ∧ RunInv ⟨s, r.asked, r.missed⟩ ∧
      s.outstanding = onTheirWay r.manager ∧
      ∀ key, s.lookupState.get? key = none ↔ r.manager.lookupState.get? key = none := by
  have hunfold : drainIfNeeded r.manager = (if r.manager.needToDrain then do
        drainResults
        modify fun s => { s with needToDrain := false }
      else pure ⟨⟩ : AsyncM Key Req PUnit) r.manager := rfl
  rw [hunfold, onTheirWay]
  cases hneed : r.manager.needToDrain with
  | false => exact ⟨r.manager, rfl, h, rfl, fun _ => Iff.rfl⟩
  | true =>
    obtain ⟨s, hrun, hs, hout, hnone⟩ := h.drained
    refine ⟨{ s with needToDrain := false }, ?_, hs.requeue rfl rfl (List.Subperm.refl _), hout,
      hnone⟩
    rw [if_pos rfl, bind_ok hrun]
    rfl

/-- The entry made for a request lists the requests before it and this one. -/
lemma Records.mem_entryFor (h : Records s asked) (key : Key) (reqId reqId' : Req) :
    reqId' ∈ (s.entryFor key reqId).requestIds ↔ (key, reqId') ∈ asked.insert (key, reqId) := by
  have hold : reqId' ∈ ((s.lookupState.get? key).getD ⟨none, [], s.calls⟩).requestIds ↔
      (key, reqId') ∈ asked := by
    cases hentry : s.lookupState.get? key with
    | none => exact iff_of_false not_mem_nil (h.uncached key hentry reqId')
    | some state => exact (h.cached key state hentry).2 reqId'
  rw [entryFor, mem_insert_iff, mem_insert_iff, hold, Prod.mk.injEq]
  simp

/-- A request that asks for a key is recorded. -/
lemma Records.ask (h : Records s asked) (key : Key) (reqId : Req) :
    Records (s.ask key reqId) (asked.insert (key, reqId)) := by
  have hother : ∀ key', key' ≠ key → ∀ reqId',
      (key', reqId') ∈ asked.insert (key, reqId) ↔ (key', reqId') ∈ asked := by
    intro key' hne reqId'
    simp [hne]
  refine ⟨fun key' state hstate => ?_, fun key' hnone reqId' => ?_, fun reqId' => ?_⟩
  · change (s.lookupState.set key (s.entryFor key reqId)).get? key' = some state at hstate
    by_cases heq : key' = key
    · rw [heq, Dict.get?_set_self] at hstate
      cases hstate
      rw [heq]
      exact ⟨ne_nil_of_mem mem_insert_self, h.mem_entryFor key reqId⟩
    · rw [Dict.get?_set_ne _ heq] at hstate
      obtain ⟨hne, hiff⟩ := h.cached key' state hstate
      exact ⟨hne, fun reqId' => (hiff reqId').trans (hother key' heq reqId').symm⟩
  · change (s.lookupState.set key (s.entryFor key reqId)).get? key' = none at hnone
    have heq : key' ≠ key := by
      rintro rfl
      rw [Dict.get?_set_self] at hnone
      cases hnone
    rw [Dict.get?_set_ne _ heq] at hnone
    rw [hother key' heq]
    exact h.uncached key' hnone reqId'
  · obtain ⟨hnodup, hiff⟩ := h.keys reqId'
    show (((s.reqKeys.set reqId _).get? reqId').getD []).Nodup ∧ ∀ key',
      key' ∈ ((s.reqKeys.set reqId _).get? reqId').getD [] ↔ _
    by_cases heq : reqId' = reqId
    · subst heq
      rw [Dict.get?_set_self, getD_some]
      refine ⟨hnodup.insert, fun key' => ?_⟩
      rw [mem_insert_iff, mem_insert_iff, hiff, Prod.mk.injEq]
      simp
    · rw [Dict.get?_set_ne _ heq]
      refine ⟨hnodup, fun key' => ?_⟩
      rw [mem_insert_iff, hiff, Prod.mk.injEq]
      simp [heq]

/-- The verdict of a cached key stays when it is asked for. -/
lemma misses_ask {missed : List Key} (h : Misses s missed) (key : Key) (reqId : Req) :
    Misses (s.ask key reqId) missed := by
  intro key' hmem
  have hmiss := h key' hmem
  show ((s.lookupState.set key (s.entryFor key reqId)).get? key').bind _ = _
  by_cases heq : key' = key
  · obtain ⟨state, hstate, hresult⟩ := bind_eq_some_iff.1 hmiss
    rw [heq] at hstate
    rw [heq, Dict.get?_set_self, entryFor, hstate]
    exact hresult
  · rw [Dict.get?_set_ne _ heq]
    exact hmiss

/-- A key asked for when no probe of it is on its way gets one, unless it is cached. -/
lemma awaits_ask (h : s.Awaits s.outstanding) {key : Key} (reqId : Req)
    (hfresh : s.lookupState.get? key = none → ∀ p ∈ s.outstanding, p.key ≠ key) :
    (s.ask key reqId).Awaits (s.ask key reqId).outstanding := by
  have hold : ∀ p ∈ s.outstanding, ∀ state,
      (s.lookupState.set key (s.entryFor key reqId)).get? p.key = some state →
        state.result = none ∧ state.created = p.issued := by
    intro p hp state hstate
    by_cases heq : p.key = key
    · rw [heq, Dict.get?_set_self] at hstate
      cases hstate
      cases hentry : s.lookupState.get? key with
      | none => exact absurd heq (hfresh hentry p hp)
      | some state =>
        rw [entryFor, hentry]
        exact h.undecided p hp state (heq ▸ hentry)
    · rw [Dict.get?_set_ne _ heq] at hstate
      exact h.undecided p hp state hstate
  by_cases hentry : s.lookupState.get? key = none
  · have hout : (s.ask key reqId).outstanding = s.outstanding ++ [⟨key, reqId, s.calls⟩] := by
      simp only [outstanding, probes, AsyncLookupManager.ask, if_pos hentry, append_assoc]
    rw [hout]
    refine ⟨?_, fun p hp state hstate => ?_⟩
    · rw [map_append]
      refine List.Nodup.append h.once (nodup_singleton _) ?_
      intro key' hmem hkey'
      obtain ⟨p, hp, rfl⟩ := mem_map.1 hmem
      exact hfresh hentry p hp (mem_singleton.1 hkey')
    · rcases mem_append.1 hp with hp | hp
      · exact hold p hp state hstate
      · rw [mem_singleton.1 hp] at hstate ⊢
        change (s.lookupState.set key (s.entryFor key reqId)).get? key = some state at hstate
        rw [Dict.get?_set_self, entryFor, hentry] at hstate
        cases hstate
        exact ⟨rfl, rfl⟩
  · have hout : (s.ask key reqId).outstanding = s.outstanding := by
      simp only [outstanding, probes, AsyncLookupManager.ask, if_neg hentry]
    rw [hout]
    exact ⟨h.once, hold⟩

omit [DecidableEq Req] in
/-- Marking keys as a miss decides the entries they have. -/
lemma markMiss_spec (s : AsyncLookupManager Key Req) (keys : List Key) :
    ∃ entries, s.markMiss keys = s.withEntries entries ∧ ∀ key, entries.get? key =
      (s.lookupState.get? key).map fun state =>
        if key ∈ keys then { state with result := some false } else state := by
  induction keys generalizing s with
  | nil => exact ⟨s.lookupState, rfl, fun key => by simp⟩
  | cons key keys ih =>
    obtain ⟨entries1, hfirst, hget1⟩ : ∃ entries, s.markMissKey key = s.withEntries entries ∧
        ∀ key', entries.get? key' = (s.lookupState.get? key').map fun state =>
          if key' = key then { state with result := some false } else state := by
      unfold markMissKey
      cases hentry : s.lookupState.get? key with
      | none =>
        refine ⟨s.lookupState, rfl, fun key' => ?_⟩
        by_cases heq : key' = key
        · rw [heq, hentry]
          rfl
        · simp [heq]
      | some state =>
        refine ⟨_, rfl, fun key' => ?_⟩
        by_cases heq : key' = key
        · simp [heq, hentry]
        · simp [heq]
    obtain ⟨entries2, hrest, hget2⟩ := ih (s.withEntries entries1)
    refine ⟨entries2, ?_, fun key' => ?_⟩
    · rw [markMiss, foldl_cons, hfirst]
      exact hrest
    · rw [hget2, withEntries, hget1, Option.map_map]
      congr 1
      funext state
      by_cases heq : key' = key
      · simp [heq]
      · simp [heq]

lemma RunInv.markMiss (h : RunInv r) {keys : List Key} (htimely : r.Timely (.markMiss keys)) :
    RunInv ⟨r.manager.markMiss keys, r.asked, r.missedAfter (.markMiss keys)⟩ := by
  obtain ⟨entries, heq, hget⟩ := markMiss_spec r.manager keys
  rw [heq]
  refine ⟨⟨h.awaits.once, fun p hp state hstate => ?_⟩, h.records.congr rfl fun key => ?_, ?_⟩
  · change entries.get? p.key = some state at hstate
    rw [hget] at hstate
    obtain ⟨state0, hstate0, rfl⟩ := map_eq_some_iff.1 hstate
    have hkey : p.key ∉ keys := fun hmem =>
      htimely p.key hmem (by rw [hstate0]; exact some_ne_none _) p hp rfl
    rw [if_neg hkey]
    exact h.awaits.undecided p hp state0 hstate0
  · show (entries.get? key).map _ = _
    rw [hget, Option.map_map]
    congr 1
    funext state
    split <;> rfl
  · intro key hmem
    show (entries.get? key).bind _ = _
    rw [hget]
    rcases mem_append.1 hmem with hmem | hmem
    · obtain ⟨state, hstate, hresult⟩ := bind_eq_some_iff.1 (h.misses key hmem)
      rw [hstate, map_some, bind_some]
      split
      · rfl
      · exact hresult
    · obtain ⟨hkey, hasked⟩ := mem_filter.1 hmem
      obtain ⟨state, hstate⟩ := ne_none_iff_exists'.1 (h.records.ne_none (of_decide_eq_true hasked))
      rw [hstate, map_some, bind_some, if_pos hkey]

/-- A cleanup takes the request from every entry. -/
lemma Records.cleanup_ok (h : Records s asked) (reqId : Req) : ∃ entries, cleanup reqId s =
        .ok ⟨⟩ { s with lookupState := entries, reqKeys := s.reqKeys.erase reqId } ∧
      ∀ key, entries.get? key = (s.lookupState.get? key).bind (·.discard reqId) := by
  obtain ⟨hnodup, hkeys⟩ := h.keys reqId
  obtain ⟨entries, hrun, hget⟩ := cleanupKeys_ok
    (s := { s with reqKeys := s.reqKeys.erase reqId }) reqId hnodup fun key hmem hnone =>
      h.uncached key hnone reqId ((hkeys key).1 hmem)
  refine ⟨entries, ?_, fun key => ?_⟩
  · unfold AsyncLookupManager.cleanup
    rw [bind_get, bind_ok (set_apply _ _), hrun]
    rfl
  · rw [hget]
    split
    · rfl
    · -- the request did not ask for this key, so its entry loses nobody
      rename_i hkey
      cases hold : s.lookupState.get? key with
      | none => rfl
      | some state =>
        obtain ⟨hne, hiff⟩ := h.cached key state hold
        have hno : reqId ∉ state.requestIds := fun hmem => hkey ((hkeys key).2 ((hiff reqId).1 hmem))
        have hsame : state.requestIds.filter (· ≠ reqId) = state.requestIds :=
          filter_eq_self.2 fun x hx => decide_eq_true fun heq => hno (heq ▸ hx)
        exact (LookupState.discard_eq_some.2 ⟨by rwa [hsame], by rw [hsame]⟩).symm

/-- Without a request, the records are of the others. -/
lemma Records.discard (h : Records s asked) (reqId : Req) {entries : Dict Key (LookupState Req)}
    (hentries : ∀ key, entries.get? key = (s.lookupState.get? key).bind (·.discard reqId)) :
    Records { s with lookupState := entries, reqKeys := s.reqKeys.erase reqId }
      (askedAfter asked (.cleanup reqId)) := by
  have hmem : ∀ key reqId', (key, reqId') ∈ askedAfter asked (.cleanup reqId) ↔
      (key, reqId') ∈ asked ∧ reqId' ≠ reqId := by
    intro key reqId'
    rw [askedAfter, mem_filter, decide_eq_true_iff]
  refine ⟨fun key state hstate => ?_, fun key hnone reqId' hasked => ?_, fun reqId' => ?_⟩
  · rw [hentries] at hstate
    obtain ⟨state0, hstate0, hdiscard⟩ := bind_eq_some_iff.1 hstate
    obtain ⟨hne, rfl⟩ := LookupState.discard_eq_some.1 hdiscard
    refine ⟨hne, fun reqId' => ?_⟩
    rw [mem_filter, decide_eq_true_iff, hmem, (h.cached key state0 hstate0).2 reqId']
  · obtain ⟨hasked, hne⟩ := (hmem key reqId').1 hasked
    rw [hentries] at hnone
    cases hold : s.lookupState.get? key with
    | none => exact h.uncached key hold reqId' hasked
    | some state =>
      have hstays : reqId' ∈ state.requestIds.filter (· ≠ reqId) :=
        mem_filter.2 ⟨((h.cached key state hold).2 reqId').2 hasked, decide_eq_true hne⟩
      rw [hold, bind_some, LookupState.discard_eq_some.2 ⟨ne_nil_of_mem hstays, rfl⟩] at hnone
      cases hnone
  · by_cases heq : reqId' = reqId
    · rw [heq, Dict.get?_erase_self, getD_none]
      exact ⟨nodup_nil, fun key =>
        iff_of_false not_mem_nil fun hasked => ((hmem key reqId).1 hasked).2 rfl⟩
    · rw [Dict.get?_erase_ne _ heq]
      obtain ⟨hnodup', hiff⟩ := h.keys reqId'
      refine ⟨hnodup', fun key => ?_⟩
      rw [hiff, hmem]
      exact (and_iff_left heq).symm

/-- A cleanup returns, and the entries that stay keep their verdicts. -/
lemma RunInv.cleanup (h : RunInv r) (reqId : Req) : ∃ s, cleanup reqId r.manager = .ok ⟨⟩ s ∧
      RunInv ⟨s, askedAfter r.asked (.cleanup reqId), r.missedAfter (.cleanup reqId)⟩ := by
  obtain ⟨entries, hrun, hentries⟩ := h.records.cleanup_ok reqId
  have hrecords := h.records.discard reqId hentries
  refine ⟨_, hrun, ⟨h.awaits.once, fun p hp state hstate => ?_⟩, hrecords, fun key hkey => ?_⟩
  · dsimp only at hstate
    rw [hentries] at hstate
    obtain ⟨state0, hstate0, hdiscard⟩ := bind_eq_some_iff.1 hstate
    obtain ⟨-, rfl⟩ := LookupState.discard_eq_some.1 hdiscard
    exact h.awaits.undecided p hp state0 hstate0
  · obtain ⟨hmissed, hasked⟩ := mem_filter.1 hkey
    obtain ⟨state, hstate⟩ := ne_none_iff_exists'.1 (hrecords.ne_none (of_decide_eq_true hasked))
    rw [hstate, bind_some]
    rw [hentries] at hstate
    obtain ⟨state0, hstate0, hdiscard⟩ := bind_eq_some_iff.1 hstate
    obtain ⟨-, rfl⟩ := LookupState.discard_eq_some.1 hdiscard
    have hmiss := h.misses key hmissed
    rwa [hstate0] at hmiss

/-- A round of the worker turns probes into answers, and may drop some. -/
lemma RunInv.worker (h : RunInv r) (batchLookup : Req → List Key → Option (List Bool)) :
    RunInv ⟨r.manager.worker batchLookup, r.asked, r.missed⟩ := by
  unfold AsyncLookupManager.worker
  cases hqueue : r.manager.lookupQueue with
  | nil => exact h
  | cons pending rest =>
    have hanswers := results_subperm batchLookup pending
    have hold : r.manager.outstanding = r.manager.pendingResults.flatten.map Prod.fst ++
        (pending ++ (rest.flatten ++ r.manager.lookupBatch)) := by
      rw [outstanding, probes, hqueue, flatten_cons, append_assoc]
    dsimp only
    split
    · refine h.requeue rfl rfl ?_
      rw [hold]
      exact (List.Sublist.append_left (sublist_append_right _ _) _).subperm
    · refine h.requeue rfl rfl ?_
      rw [hold]
      simp only [outstanding, probes, flatten_append, flatten_singleton, map_append, append_assoc]
      exact (subperm_append_left _).2 ((subperm_append_right _).2 hanswers)

/-- Posting a batch moves its probes to the queue. -/
lemma RunInv.flush (h : RunInv r) : RunInv ⟨r.manager.flush, r.asked, r.missed⟩ := by
  unfold AsyncLookupManager.flush
  split
  · exact h.requeue rfl rfl (List.Subperm.refl _)
  · exact h.requeue rfl rfl (List.Perm.of_eq (by simp [outstanding, probes])).subperm

/-- A timely step returns and keeps what holds of a run. -/
lemma RunInv.step (h : RunInv r) {op : AsyncOp Key Req} (htimely : r.Timely op) :
    ∃ r', r.step op = some r' ∧ RunInv r' := by
  cases op with
  | lookup key reqId =>
    obtain ⟨s, hrun, hs, hout, hnone⟩ := h.drainedIfNeeded
    have hfresh : s.lookupState.get? key = none → ∀ p ∈ s.outstanding, p.key ≠ key := by
      intro hkey
      rw [hout]
      exact htimely ((hnone key).1 hkey)
    refine ⟨⟨s.ask key reqId, r.asked.insert (key, reqId), r.missed⟩, ?_,
      awaits_ask hs.awaits reqId hfresh, hs.records.ask key reqId, misses_ask hs.misses key reqId⟩
    rw [AsyncRun.step, AsyncOp.call, map_apply, AsyncLookupManager.lookup, bind_ok hrun]
    rfl
  | flush => exact ⟨_, rfl, h.flush⟩
  | drainResults =>
    obtain ⟨s, hrun, hs, -, -⟩ := h.drained
    refine ⟨_, ?_, hs⟩
    rw [AsyncRun.step, AsyncOp.call, hrun]
    rfl
  | markMiss keys => exact ⟨_, rfl, h.markMiss htimely⟩
  | cleanup reqId =>
    obtain ⟨s, hrun, hs⟩ := h.cleanup reqId
    refine ⟨_, ?_, hs⟩
    rw [AsyncRun.step, AsyncOp.call, hrun]
  | worker batchLookup => exact ⟨_, rfl, h.worker batchLookup⟩

lemma ReachableTimely.runInv (h : ReachableTimely r) : RunInv r := by
  refine Reached.invariant (I := RunInv) (fun _ hinit => runInv_init hinit) ?_ h
  intro r op r' hr htimely hstep
  obtain ⟨r'', hstep', hr''⟩ := hr.step htimely
  rw [hstep] at hstep'
  cases hstep'
  exact hr''

/-! ## Verdicts -/

/-- In every state that timely steps lead to: a drain finds no decided entry, and every timely step
returns; a key marked as a miss is cached as a miss as long as a request that asked for it has not
finished; and the answers to be applied come from probes that are no older than the entries they
meet. -/
theorem async_verdicts {r : AsyncRun Key Req} (h : ReachableTimely r) :
    (∃ s, drainResults r.manager = .ok ⟨⟩ s) ∧
    (∀ op, r.Timely op → ∃ r', r.step op = some r') ∧
    (∀ key ∈ r.missed, ∃ state, r.manager.lookupState.get? key = some state ∧
      state.result = some false) ∧
    (∀ a ∈ r.manager.pendingResults.flatten, ∀ state,
      r.manager.lookupState.get? a.1.key = some state → state.created ≤ a.1.issued) := by
  have hinv := h.runInv
  refine ⟨?_, ?_, ?_, ?_⟩
  · obtain ⟨s, hrun, -⟩ := hinv.drained
    exact ⟨s, hrun⟩
  · intro op htimely
    obtain ⟨r', hstep, -⟩ := hinv.step htimely
    exact ⟨r', hstep⟩
  · intro key hmem
    exact bind_eq_some_iff.1 (hinv.misses key hmem)
  · intro a ha state hstate
    have hout : a.1 ∈ r.manager.outstanding := mem_append_left _ (mem_map_of_mem ha)
    exact (hinv.awaits.undecided a.1 hout state hstate).2.le

/-- The only request of a key finishes while its probe is queued and another request asks for the
key before the answer comes. -/
def lateProbe : List (AsyncOp ℕ ℕ) :=
  [.lookup 7 1, .flush, .cleanup 1, .lookup 7 2, .flush,
    .worker fun _ _ => none, .worker fun _ keys => some (keys.map fun _ => true)]

/-- A request is answered, its load fails, and another request asks for the key. -/
def failedLoad : List (AsyncOp ℕ ℕ) :=
  [.lookup 7 1, .flush, .worker fun _ keys => some (keys.map fun _ => true), .lookup 7 1,
    .markMiss [7], .lookup 7 2, .cleanup 1, .lookup 8 2, .flush,
    .worker fun _ keys => some (keys.map fun _ => true)]

theorem async_verdicts_of_failed_load : ∃ r : AsyncRun ℕ ℕ, ReachableTimely r ∧ 7 ∈ r.missed ∧
    (∃ s, drainResults r.manager = .ok ⟨⟩ s) ∧
    (∀ key ∈ r.missed, ∃ state, r.manager.lookupState.get? key = some state ∧
      state.result = some false) ∧
    (∀ a ∈ r.manager.pendingResults.flatten, ∀ state,
      r.manager.lookupState.get? a.1.key = some state → state.created ≤ a.1.issued) := by
  obtain ⟨r, hreach, hmissed⟩ : ∃ r, ReachableTimely r ∧ 7 ∈ r.missed :=
    Reached.exists_runAll initial_new failedLoad _ (by decide +kernel)
  obtain ⟨hdrain, -, hmiss, hissued⟩ := async_verdicts hreach
  exact ⟨r, hreach, hmissed, hdrain, hmiss, hissued⟩

/-- The assertion of the drain can fail: the answer to the first probe is applied to the entry of
the second request, which was created later, and the answer to the second probe finds the entry
decided. -/
theorem second_verdict : ∃ r : AsyncRun ℕ ℕ, Reachable r ∧
    (∃ s, drainResults r.manager = .error .assertionError s) ∧
    ∃ a ∈ r.manager.pendingResults.flatten, ∃ state,
      r.manager.lookupState.get? a.1.key = some state ∧ a.1.issued < state.created := by
  obtain ⟨r, hreach, hdrain, hlate⟩ : ∃ r : AsyncRun ℕ ℕ, Reachable r ∧
      (match drainResults r.manager with
        | .error .assertionError _ => true
        | _ => false) = true ∧
      ∃ a ∈ r.manager.pendingResults.flatten, ∃ state ∈ r.manager.lookupState.get? a.1.key,
        a.1.issued < state.created :=
    Reached.exists_runAll initial_new lateProbe _ (by decide +kernel)
  refine ⟨r, hreach, ?_, hlate⟩
  split at hdrain
  · rename_i s hs
    exact ⟨s, hs⟩
  · cases hdrain

end AsyncRun

end Lvllm
