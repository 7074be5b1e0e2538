import Lvllm.Sched.Advance
import Lvllm.Sched.Engine
import Lvllm.Sched.UpdateSteps
import Mathlib.Data.List.Dedup

/-!
# The queues under the processing of outputs

The loop of `update_from_output` stops requests one by one and takes them out of the queues at its end.
While it runs, stopped requests are still in the queues; what is kept is that the queues are in order
once those are taken out.  A stopped request that was not running is taken out of both waiting queues.
If it is a session that goes on, it has been put there just before, and is then in no queue.
-/

namespace Lvllm

open List Request RequestQueue

variable {H K : Type} {res : Option Processed}

namespace Scheduler

/-! ## Some requests leave or change -/

/-- Requests outside of `refs` keep their place and their status, and stay tracked. -/
structure Touches (refs : List Ref) (s s' : Scheduler H K) : Prop where
  nextRef : s'.nextRef = s.nextRef
  ids : ∀ ref, (s'.objs ref).requestId = (s.objs ref).requestId
  statuses : ∀ ref, ref ∉ refs → (s'.objs ref).status = (s.objs ref).status
  tracked : ∀ reqId ref, s'.requests.get? reqId = some ref → s.requests.get? reqId = some ref
  kept : ∀ reqId ref, ref ∉ refs → s.requests.get? reqId = some ref →
    s'.requests.get? reqId = some ref
  running : ∀ ref, ref ∉ refs → (ref ∈ s'.running ↔ ref ∈ s.running)
  mem : ∀ ref, ref ∉ refs → (ref ∈ s'.allQueued [] ↔ ref ∈ s.allQueued [])
  nodup : (s'.allQueued []).Nodup

variable {s s' : Scheduler H K} {refs : List Ref} {ref : Ref} {acc acc' : UpdatePass}
  {mro : ModelRunnerOutput} {out : SchedulerOutput} {failed : List String} {aside : List Ref}
  {reqId : String} {reqIds : List String}

lemma QueueInv.touch (hs : QueueInv s []) (h : Touches refs s s')
    (hself : ∀ ref ∈ refs, ref ∈ s'.allQueued [] →
      s'.requests.get? (s'.objs ref).requestId = some ref ∧ (s'.objs ref).isFinished = false)
    (hrunning : ∀ ref ∈ refs, ∀ reqId, s'.requests.get? reqId = some ref →
      ((s'.objs ref).status = .running ↔ ref ∈ s'.running))
    (hstreaming : (s'.numStreaming : ℤ) ≤ s'.numWaitingForStreamingInput) : QueueInv s' [] where
  tracked reqId ref hget := by
    rw [h.ids, h.nextRef]
    exact hs.tracked reqId ref (h.tracked reqId ref hget)
  nodup := h.nodup
  queued ref hmem := by
    by_cases hin : ref ∈ refs
    · exact hself ref hin hmem
    · obtain ⟨hget, hfinished⟩ := hs.queued ref ((h.mem ref hin).1 hmem)
      rw [h.ids, isFinished, h.statuses ref hin]
      exact ⟨h.kept _ ref hin hget, hfinished⟩
  running_iff reqId ref hget := by
    by_cases hin : ref ∈ refs
    · exact hrunning ref hin reqId hget
    · rw [h.statuses ref hin, h.running ref hin]
      exact hs.running_iff reqId ref (h.tracked reqId ref hget)
  streaming := hstreaming

lemma Complete.touch (hs : Complete s []) (h : Touches refs s s')
    (hself : ∀ ref ∈ refs, ∀ reqId, s'.requests.get? reqId = some ref →
      (s'.objs ref).isFinished = false → ref ∈ s'.allQueued []) : Complete s' [] := by
  intro reqId ref hget hfinished
  by_cases hin : ref ∈ refs
  · exact hself ref hin reqId hget hfinished
  · refine (h.mem ref hin).2 (hs reqId ref (h.tracked reqId ref hget) ?_)
    rw [isFinished, h.statuses ref hin] at hfinished
    exact hfinished

/-! ## Counting the sessions that wait -/

/-- The requests that wait for the next input of their session. -/
def streamingRefs (s : Scheduler H K) : List Ref :=
  (List.range s.nextRef).filter fun ref => decide ((s.objs ref).status = .waitingForStreamingReq)

lemma length_streamingRefs (s : Scheduler H K) : s.streamingRefs.length = s.numStreaming :=
  countP_eq_length_filter.symm

lemma nodup_streamingRefs (s : Scheduler H K) : s.streamingRefs.Nodup := nodup_range.filter _

lemma mem_streamingRefs :
    ref ∈ s.streamingRefs ↔ ref < s.nextRef ∧ (s.objs ref).status = .waitingForStreamingReq := by
  rw [streamingRefs, mem_filter, mem_range, decide_eq_true_iff]

/-- Requests that no longer wait are taken off the count, and none is added. -/
lemma numStreaming_add_le (hnext : s'.nextRef = s.nextRef) (hnodup : refs.Nodup)
    (hlt : ∀ ref ∈ refs, ref < s.nextRef)
    (hnew : ∀ ref ∈ refs, (s'.objs ref).status ≠ .waitingForStreamingReq)
    (hothers : ∀ ref, ref ∉ refs → (s'.objs ref).status = .waitingForStreamingReq →
      (s.objs ref).status = .waitingForStreamingReq) :
    s'.numStreaming +
        refs.countP (fun ref => decide ((s.objs ref).status = .waitingForStreamingReq)) ≤
      s.numStreaming := by
  rw [← length_streamingRefs, ← length_streamingRefs, countP_eq_length_filter, ← length_append]
  refine (subperm_of_subset ?_ ?_).length_le
  · refine nodup_append.2 ⟨nodup_streamingRefs s', hnodup.filter _, ?_⟩
    rintro ref hmem ref' hmem' rfl
    exact hnew ref (mem_of_mem_filter hmem') (mem_streamingRefs.1 hmem).2
  · intro ref hmem
    rw [mem_streamingRefs]
    rcases mem_append.1 hmem with hmem | hmem
    · obtain ⟨hbelow, hstatus⟩ := mem_streamingRefs.1 hmem
      rw [hnext] at hbelow
      exact ⟨hbelow, hothers ref (fun hin => hnew ref hin hstatus) hstatus⟩
    · exact ⟨hlt ref (mem_of_mem_filter hmem), of_decide_eq_true (mem_filter.1 hmem).2⟩

/-- No more requests wait when no status becomes the waiting one. -/
lemma numStreaming_le (hnext : s'.nextRef = s.nextRef)
    (h : ∀ ref, (s'.objs ref).status = .waitingForStreamingReq →
      (s.objs ref).status = .waitingForStreamingReq) : s'.numStreaming ≤ s.numStreaming := by
  have hle : s'.numStreaming + ([] : List Ref).countP _ ≤ s.numStreaming :=
    numStreaming_add_le hnext nodup_nil nofun nofun fun ref _ => h ref
  simpa using hle

lemma numStreaming_le_succ (ref : Ref) (hnext : s'.nextRef = s.nextRef)
    (h : ∀ ref', ref' ≠ ref → (s'.objs ref').status = (s.objs ref').status) :
    s'.numStreaming ≤ s.numStreaming + 1 := by
  rw [← length_streamingRefs, ← length_streamingRefs, ← length_cons (a := ref)]
  refine (subperm_of_subset (nodup_streamingRefs s') fun ref' hmem => ?_).length_le
  by_cases heq : ref' = ref
  · rw [heq]
    exact mem_cons_self
  · refine mem_cons_of_mem _ (mem_streamingRefs.2 ?_)
    rw [← hnext, ← h ref' heq]
    exact mem_streamingRefs.1 hmem

/-! ## Taking requests out of the queues -/

/-- `remove_all` on a list without repetition. -/
lemma removeAll_eq_filter (h : refs.Nodup) (items : List Ref) :
    removeAll refs items = refs.filter (· ∉ items) := by
  match items with
  | [] => simp [removeAll]
  | [item] =>
    show refs.erase item = _
    rw [h.erase_eq_filter]
    refine filter_congr fun ref _ => ?_
    rw [Bool.eq_iff_iff]
    simp
  | _ :: _ :: _ => rfl

/-- Taking requests out of a waiting queue, if there are any. -/
lemma removeFrom_perm (s : Scheduler H K) (queue items : List Ref) :
    (if items.isEmpty then queue else s.removeFrom queue items).Perm
      (queue.filter (· ∉ items)) := by
  cases items with
  | nil => simp
  | cons item items => exact removeRequests_perm _ _

/-- The queues without some requests: `running` without those of `A`, the waiting ones without those
of `B`. -/
structure TakenOut (A B : List Ref) (s s' : Scheduler H K) : Prop where
  running : s'.running = s.running.filter (· ∉ A)
  waiting : s'.waiting.Perm (s.waiting.filter (· ∉ B))
  skippedWaiting : s'.skippedWaiting.Perm (s.skippedWaiting.filter (· ∉ B))

namespace TakenOut

variable {A B : List Ref} {s s' : Scheduler H K}

section

variable (h : TakenOut A B s s')

include h

lemma mem_running : ref ∈ s'.running ↔ ref ∈ s.running ∧ ref ∉ A := by
  rw [h.running, mem_filter, decide_eq_true_iff]

lemma mem_waiting : ref ∈ s'.waiting ↔ ref ∈ s.waiting ∧ ref ∉ B := by
  rw [h.waiting.mem_iff, mem_filter, decide_eq_true_iff]

lemma mem_skippedWaiting : ref ∈ s'.skippedWaiting ↔ ref ∈ s.skippedWaiting ∧ ref ∉ B := by
  rw [h.skippedWaiting.mem_iff, mem_filter, decide_eq_true_iff]

lemma perm : (s'.allQueued []).Perm (s.running.filter (· ∉ A) ++
      (s.waiting.filter (· ∉ B) ++ s.skippedWaiting.filter (· ∉ B) ++ [])) := by
  unfold allQueued
  rw [h.running]
  exact ((h.waiting.append h.skippedWaiting).append_right _).append_left _

lemma nodup (hs : (s.allQueued []).Nodup) : (s'.allQueued []).Nodup := by
  refine h.perm.nodup_iff.2 (hs.sublist ?_)
  exact List.Sublist.append filter_sublist
    ((List.Sublist.append filter_sublist filter_sublist).append_right [])

end

end TakenOut

lemma takenOut_removeStopped (hs : s.running.Nodup) (acc : UpdatePass) :
    TakenOut acc.stoppedRunningReqs acc.stoppedPreemptedReqs s (s.removeStopped acc) :=
  ⟨removeAll_eq_filter hs _, removeFrom_perm s _ _, removeFrom_perm s _ _⟩

/-- A named request that is taken up is tracked and not finished. -/
lemma of_validRequest (h : (match s.requests.get? reqId with
      | none => none
      | some ref => if (s.objs ref).isFinished then none else some ref : Option Ref) = some ref) :
    s.requests.get? reqId = some ref ∧ (s.objs ref).isFinished = false := by
  cases hget : s.requests.get? reqId with
  | none =>
    rw [hget] at h
    cases h
  | some ref' =>
    rw [hget] at h
    dsimp only at h
    split at h
    · cases h
    · rename_i hfinished
      cases h
      exact ⟨rfl, Bool.eq_false_of_not_eq_true hfinished⟩

/-- The tracked requests among those named are different. -/
lemma QueueInv.nodup_validRequests (hs : QueueInv s aside)
    (h : reqIds.Nodup) : (s.validRequests reqIds).Nodup := by
  refine h.filterMap fun reqId reqId' ref href href' => ?_
  exact hs.distinctRefs reqId reqId' ref (of_validRequest href).1 (of_validRequest href').1

lemma mem_validRequests (h : ref ∈ s.validRequests reqIds) :
    ∃ reqId, s.requests.get? reqId = some ref ∧ (s.objs ref).isFinished = false := by
  obtain ⟨reqId, -, hvalid⟩ := mem_filterMap.1 h
  exact ⟨reqId, of_validRequest hvalid⟩

/-- The members of the running queue are those with the status `RUNNING`, and no other queue has
one. -/
lemma QueueInv.status_of_mem (hs : QueueInv s aside) :
    (ref ∈ s.running → (s.objs ref).status = .running) ∧
      (ref ∈ s.waiting ++ s.skippedWaiting ++ aside → (s.objs ref).status ≠ .running) := by
  constructor
  · intro hmem
    have hget := (hs.queued ref (mem_append_left _ hmem)).1
    exact (hs.running_iff _ ref hget).2 hmem
  · intro hmem hstatus
    have hget := (hs.queued ref (mem_append_right _ hmem)).1
    have hrunning := (hs.running_iff _ ref hget).1 hstatus
    exact (nodup_append.1 hs.nodup).2.2 ref hrunning ref hmem rfl

/-! ## Keeping the queues in order -/

/-- The queues are in order behind a call, no request has got lost, and no more requests run than
may. -/
structure QueuesKept (s s' : Scheduler H K) : Prop where
  config : s'.config = s.config
  queueInv : QueueInv s' []
  complete : Complete s [] → Complete s' []
  bounded : s.running.length ≤ s.config.maxNumRunningReqs →
    s'.running.length ≤ s.config.maxNumRunningReqs

/-- Some code keeps the queues in order. -/
def KeepsQueues (s s' : Scheduler H K) : Prop := QueueInv s [] → QueuesKept s s'

namespace KeepsQueues

variable {s s' s'' : Scheduler H K}

lemma trans (h : KeepsQueues s s') (h' : KeepsQueues s' s'') : KeepsQueues s s'' := by
  intro hs
  have hkept := h hs
  have hkept' := h' hkept.queueInv
  refine ⟨hkept'.config.trans hkept.config, hkept'.queueInv,
    fun hc => hkept'.complete (hkept.complete hc), fun hle => ?_⟩
  rw [← hkept.config]
  refine hkept'.bounded ?_
  rw [hkept.config]
  exact hkept.bounded hle

lemma of_change (h : QueueInv s [] → QueueChange s [] s' [])
    (hrunning : s'.running.length ≤ s.running.length) : KeepsQueues s s' :=
  fun hs => ⟨(h hs).config, (h hs).queueInv hs, (h hs).complete, hrunning.trans⟩

lemma of_frame (h : QueueFrame s s') : KeepsQueues s s' :=
  of_change (fun _ => h.queueChange []) (by rw [h.running])

lemma refl (s : Scheduler H K) : KeepsQueues s s := of_frame (.refl s)

end KeepsQueues

variable [KvCache H K]

/-- `finish_requests` keeps the queues in order. -/
lemma finishRequests_keepsQueues {delay : String → Bool} {reqIds : Option (List String)}
    {status : RequestStatus} (h : Scheduler.finishRequests delay reqIds status s = .ok refs s') :
    KeepsQueues s s' := by
  intro hs
  have hids : ((reqIds.map List.dedup).getD s.requests.keys).Nodup := by
    cases reqIds with
    | none => exact s.requests.nodup
    | some ids => exact nodup_dedup ids
  have hnodup := hs.nodup_validRequests hids
  obtain ⟨hrefs, hstatus, hlists, hfinish⟩ := finishRequests_eq_ok hnodup h
  rw [← hrefs] at hnodup
  have hvalid : ∀ ref ∈ refs, ∃ reqId, s.requests.get? reqId = some ref ∧
      (s.objs ref).isFinished = false := by
    intro ref hmem
    rw [hrefs] at hmem
    exact mem_validRequests hmem
  have hrunningNodup : s.running.Nodup := (nodup_append.1 hs.nodup).1
  have hout : TakenOut (refs.filter fun ref => decide ((s.objs ref).status = .running))
      (refs.filter fun ref => decide ((s.objs ref).status ≠ .running)) s s' := by
    refine ⟨?_, ?_, ?_⟩
    · rw [hlists.running]
      exact removeAll_eq_filter hrunningNodup _
    · rw [hlists.waiting]
      exact removeFrom_perm s _ _
    · rw [hlists.skippedWaiting]
      exact removeFrom_perm s _ _
  have hfinished : ∀ ref ∈ refs, (s'.objs ref).isFinished = true := by
    intro ref hmem
    rw [hfinish.finished ref hmem]
    exact hstatus
  -- A running request is taken off the running queue, another one off the waiting queues.
  have hrunning : ∀ ref, ref ∈ s'.running ↔ ref ∈ s.running ∧ ref ∉ refs := by
    intro ref
    rw [hout.mem_running, mem_filter, decide_eq_true_iff]
    exact and_congr_right fun hin => not_congr (and_iff_left (hs.status_of_mem.1 hin))
  have hwaiting : ∀ ref, ref ∈ s'.waiting ++ s'.skippedWaiting ++ [] ↔
      ref ∈ s.waiting ++ s.skippedWaiting ++ [] ∧ ref ∉ refs := by
    intro ref
    rw [append_nil, append_nil, mem_append, mem_append, hout.mem_waiting,
      hout.mem_skippedWaiting, mem_filter, decide_eq_true_iff, ← or_and_right]
    refine and_congr_right fun hin => not_congr (and_iff_left (hs.status_of_mem.2 ?_))
    rw [append_nil, mem_append]
    exact hin
  have hmem : ∀ ref, ref ∈ s'.allQueued [] ↔ ref ∈ s.allQueued [] ∧ ref ∉ refs := by
    intro ref
    unfold allQueued
    rw [mem_append, mem_append (s := s.running), hrunning, hwaiting, ← or_and_right]
  have htouch : Touches refs s s' := by
    refine ⟨hfinish.nextRef, ?_, ?_, hfinish.tracked, ?_, ?_, ?_, hout.nodup hs.nodup⟩
    · intro ref
      by_cases hin : ref ∈ refs
      · rw [hfinish.finished ref hin]
      · rw [hfinish.others ref hin]
    · intro ref hin
      rw [hfinish.others ref hin]
    · intro reqId ref hin hget
      rcases hfinish.kept reqId ref hget with hget' | ⟨gone, hgone, hid⟩
      · exact hget'
      · -- The ids of finished requests lead to themselves.
        obtain ⟨goneId, hgoneGet, -⟩ := hvalid gone hgone
        rw [(hs.tracked goneId gone hgoneGet).1] at hid
        rw [hid, hget] at hgoneGet
        cases hgoneGet
        exact absurd hgone hin
    · intro ref hin
      rw [hrunning]
      exact and_iff_left hin
    · intro ref hin
      rw [hmem]
      exact and_iff_left hin
  refine ⟨hfinish.config, hs.touch htouch ?_ ?_ ?_, fun hcomplete => hcomplete.touch htouch ?_,
    fun hle => le_trans ?_ hle⟩
  · intro ref hin hqueued
    exact absurd hin ((hmem ref).1 hqueued).2
  · intro ref hin reqId _
    refine iff_of_false ?_ fun hrun => ((hrunning ref).1 hrun).2 hin
    intro hrun
    have hdone := hfinished ref hin
    rw [isFinished, hrun] at hdone
    cases hdone
  · rw [hlists.streaming]
    show (s'.numStreaming : ℤ) ≤ s.numWaitingForStreamingInput - _
    have hcount := numStreaming_add_le hfinish.nextRef hnodup (fun ref hin => by
        obtain ⟨reqId, hget, -⟩ := hvalid ref hin
        exact (hs.tracked reqId ref hget).2)
      (fun ref hin hwait => by
        have hdone := hfinished ref hin
        rw [isFinished, hwait] at hdone
        cases hdone)
      (fun ref hin hwait => by rwa [hfinish.others ref hin] at hwait)
    have hstreaming := hs.streaming
    omega
  · intro ref hin reqId _ hunfinished
    rw [hfinished ref hin] at hunfinished
    cases hunfinished
  · rw [hout.running]
    exact length_filter_le _ _

/-! ## The loop of `update_from_output` -/

omit [KvCache H K] in
lemma mem_setAdd {a b : Ref} {l : List Ref} : a ∈ setAdd b l ↔ a = b ∨ a ∈ l := by
  unfold setAdd
  split
  · rename_i hmem
    constructor
    · exact .inr
    · rintro (rfl | h)
      · exact hmem
      · exact h
  · rw [mem_append, mem_singleton, or_comm]

/-- A session that is not running, because it was preempted meanwhile, gets output on which it stops,
and is to go on. -/
def stopsAsSession (c : SchedulerConfig H) (mro : ModelRunnerOutput) (reqId : String)
    (r : Request H) : Prop :=
  r.status ≠ .running ∧ r.isFinished = false ∧
    (isStaleOutput r = true → r.dropStaleOutput = false) ∧ r.sessionGoesOn = true ∧
    ∃ generated ∈ mro.sampledTokenIds reqId, r.stopsOn c generated (mro.poolerOutput reqId) = true

instance (c : SchedulerConfig H) (mro : ModelRunnerOutput) (reqId : String) (r : Request H) :
    Decidable (stopsAsSession c mro reqId r) :=
  inferInstanceAs (Decidable (_ ∧ _))

/-- The output of a step stops no session that is not running. -/
def KeepsSessions (s : Scheduler H K) (mro : ModelRunnerOutput) (reqIds : List String) : Prop :=
  ∀ reqId ∈ reqIds, ∀ ref ∈ s.requests.get? reqId, ¬ stopsAsSession s.config mro reqId (s.objs ref)

instance (s : Scheduler H K) (mro : ModelRunnerOutput) (reqIds : List String) :
    Decidable (s.KeepsSessions mro reqIds) :=
  inferInstanceAs (Decidable (∀ _ ∈ _, _))

/-- What holds while `update_from_output` works off the requests `rest`: once the stopped ones are
taken out, the queues are in order.  If `c` held when the loop started, no session that is not running
stops and goes on, and no request is missing. -/
structure LoopInv (mro : ModelRunnerOutput) (c : Prop) (rest : List (String × ℕ))
    (s : Scheduler H K) (acc : UpdatePass) : Prop where
  nodup : s.running.Nodup
  queues : QueueInv (s.removeStopped acc) []
  /-- The stopped requests have been worked off. -/
  worked : ∀ ref, ref ∈ acc.stoppedRunningReqs ∨ ref ∈ acc.stoppedPreemptedReqs →
    (s.objs ref).requestId ∉ rest.map Prod.fst
  sessions : c → s.KeepsSessions mro (rest.map Prod.fst)
  complete : c → Complete (s.removeStopped acc) []

/-- What a stop does to the request at hand: it is finished and stays where it is until the end of
the loop, or it is put into a waiting queue. -/
inductive Stopped (ref : Ref) (s s' : Scheduler H K) : Prop
  | finished (hfinished : (s'.objs ref).isFinished = true) (hwaiting : s'.waiting = s.waiting)
      (hskipped : s'.skippedWaiting = s.skippedWaiting)
  | waiting (hfinished : (s'.objs ref).isFinished = false) (hrequests : s'.requests = s.requests)
      (hwaiting : s'.waiting.Perm (ref :: s.waiting))
      (hskipped : s'.skippedWaiting = s.skippedWaiting)
  | skipped (hfinished : (s'.objs ref).isFinished = false) (hrequests : s'.requests = s.requests)
      (hwaiting : s'.waiting = s.waiting)
      (hskipped : s'.skippedWaiting.Perm (ref :: s.skippedWaiting))

omit [KvCache H K] in
lemma Stopped.mem (h : Stopped ref s s') : (∀ r, r ≠ ref → (r ∈ s'.waiting ↔ r ∈ s.waiting)) ∧
      ∀ r, r ≠ ref → (r ∈ s'.skippedWaiting ↔ r ∈ s.skippedWaiting) := by
  cases h with
  | finished _ hwaiting hskipped =>
    exact ⟨fun r _ => by rw [hwaiting], fun r _ => by rw [hskipped]⟩
  | waiting _ _ hwaiting hskipped =>
    refine ⟨fun r hne => ?_, fun r _ => by rw [hskipped]⟩
    rw [hwaiting.mem_iff, mem_cons]
    exact or_iff_right hne
  | skipped _ _ hwaiting hskipped =>
    refine ⟨fun r _ => by rw [hwaiting], fun r hne => ?_⟩
    rw [hskipped.mem_iff, mem_cons]
    exact or_iff_right hne

/-- What is left of the queues when some requests are taken out. -/
def remaining (s : Scheduler H K) (A B : List Ref) : List Ref :=
  s.running.filter (· ∉ A) ++ (s.waiting.filter (· ∉ B) ++ s.skippedWaiting.filter (· ∉ B) ++ [])

omit [KvCache H K] in
lemma remaining_sublist (s : Scheduler H K) {A A' B B' : List Ref} (hA : A ⊆ A') (hB : B ⊆ B') :
    (s.remaining A' B').Sublist (s.remaining A B) := by
  have hfilter : ∀ (l : List Ref) {C C' : List Ref}, C ⊆ C' →
      (l.filter (· ∉ C')).Sublist (l.filter (· ∉ C)) := by
    intro l C C' hC
    refine monotone_filter_right l fun ref hnot => ?_
    rw [decide_eq_true_iff] at hnot ⊢
    exact fun hmem => hnot (hC hmem)
  exact (hfilter _ hA).append (((hfilter _ hB).append (hfilter _ hB)).append_right [])

omit [KvCache H K] in
/-- A request that is put into one of the waiting queues is one more in the queues. -/
lemma perm_cons_enqueued {running waiting waiting' skipped skipped' : List Ref}
    (h : waiting'.Perm (ref :: waiting) ∧ skipped' = skipped ∨
      waiting' = waiting ∧ skipped'.Perm (ref :: skipped)) :
    (running ++ (waiting' ++ skipped' ++ aside)).Perm
      (ref :: (running ++ (waiting ++ skipped ++ aside))) := by
  rcases h with ⟨hperm, rfl⟩ | ⟨rfl, hperm⟩
  · exact (((hperm.append_right _).append_right _).append_left _).trans perm_middle
  · refine (((hperm.append_left _).append_right _).append_left _).trans ?_
    rw [append_assoc, append_assoc]
    exact (List.Perm.append_left _ perm_middle).trans perm_middle

omit [KvCache H K] in
/-- The request at hand is out of the queues, or it has been put into one that is not cleared of
it. -/
lemma Stopped.remaining_perm (h : Stopped ref s s') (hrunning : s'.running = s.running)
    (A B : List Ref) :
    (s'.remaining A B).Perm (s.remaining A B) ∧ ((s'.objs ref).isFinished = true ∨ ref ∈ B) ∨
      (s'.remaining A B).Perm (ref :: s.remaining A B) ∧ (s'.objs ref).isFinished = false ∧
        s'.requests = s.requests ∧ ref ∉ B := by
  have hout : ref ∈ B → ∀ l : List Ref, (ref :: l).filter (· ∉ B) = l.filter (· ∉ B) :=
    fun hmem l => filter_cons_of_neg (by simpa using hmem)
  have hin : ref ∉ B → ∀ l : List Ref, (ref :: l).filter (· ∉ B) = ref :: l.filter (· ∉ B) :=
    fun hmem l => filter_cons_of_pos (by simpa using hmem)
  unfold remaining
  rw [hrunning]
  cases h with
  | finished hfinished hwaiting hskipped =>
    rw [hwaiting, hskipped]
    exact .inl ⟨.refl _, .inl hfinished⟩
  | waiting hfinished hrequests hwaiting hskipped =>
    rw [hskipped]
    have hperm := hwaiting.filter (· ∉ B)
    by_cases hmem : ref ∈ B
    · rw [hout hmem] at hperm
      exact .inl ⟨((hperm.append_right _).append_right _).append_left _, .inr hmem⟩
    · rw [hin hmem] at hperm
      exact .inr ⟨perm_cons_enqueued (.inl ⟨hperm, rfl⟩), hfinished, hrequests, hmem⟩
  | skipped hfinished hrequests hwaiting hskipped =>
    rw [hwaiting]
    have hperm := hskipped.filter (· ∉ B)
    by_cases hmem : ref ∈ B
    · rw [hout hmem] at hperm
      exact .inl ⟨((hperm.append_left _).append_right _).append_left _, .inr hmem⟩
    · rw [hin hmem] at hperm
      exact .inr ⟨perm_cons_enqueued (.inr ⟨rfl, hperm⟩), hfinished, hrequests, hmem⟩

/-- What a stop of the request `ref` does to the queues. -/
structure StopEffect (ref : Ref) (s s' : Scheduler H K) : Prop where
  nextRef : s'.nextRef = s.nextRef
  ids : ∀ r, (s'.objs r).requestId = (s.objs r).requestId
  others : ∀ r, r ≠ ref → s'.objs r = s.objs r
  tracked : ∀ reqId r, s'.requests.get? reqId = some r → s.requests.get? reqId = some r
  kept : ∀ reqId r, r ≠ ref → s.requests.get? reqId = some r → s'.requests.get? reqId = some r
  running : s'.running = s.running
  stopped : Stopped ref s s'
  status : (s'.objs ref).status ≠ .running
  streaming : (s.numStreaming : ℤ) ≤ s.numWaitingForStreamingInput →
    (s'.numStreaming : ℤ) ≤ s'.numWaitingForStreamingInput

omit [KvCache H K] in
/-- A round of the loop touches one request only, also in the queues that the loop leaves. -/
lemma StopEffect.touches (h : StopEffect ref s s') (hnodup : s.running.Nodup)
    (hA : ∀ r, r ≠ ref → (r ∈ acc'.stoppedRunningReqs ↔ r ∈ acc.stoppedRunningReqs))
    (hB : ∀ r, r ≠ ref → (r ∈ acc'.stoppedPreemptedReqs ↔ r ∈ acc.stoppedPreemptedReqs))
    (hqueues : ((s'.removeStopped acc').allQueued []).Nodup) :
    Touches [ref] (s.removeStopped acc) (s'.removeStopped acc') := by
  have hold := takenOut_removeStopped hnodup acc
  have hnew : TakenOut _ _ _ _ := takenOut_removeStopped (s := s') (h.running ▸ hnodup) acc'
  have hne : ∀ r, r ∉ [ref] → r ≠ ref := fun r hr heq => hr (mem_singleton.2 heq)
  have hrun : ∀ r, r ∉ [ref] →
      (r ∈ (s'.removeStopped acc').running ↔ r ∈ (s.removeStopped acc).running) := by
    intro r hr
    rw [hnew.mem_running, hold.mem_running, h.running, hA r (hne r hr)]
  refine ⟨h.nextRef, h.ids, fun r hr => congrArg Request.status (h.others r (hne r hr)), h.tracked,
    fun reqId r hr => h.kept reqId r (hne r hr), hrun, ?_, hqueues⟩
  intro r hr
  simp only [mem_allQueued, Queued, hrun r hr, hnew.mem_waiting, hold.mem_waiting,
    hnew.mem_skippedWaiting, hold.mem_skippedWaiting, h.stopped.mem.1 r (hne r hr),
    h.stopped.mem.2 r (hne r hr), hB r (hne r hr)]

namespace LoopInv

variable {c : Prop} {reqId : String} {n : ℕ} {rest : List (String × ℕ)} {s s' : Scheduler H K}
  {acc acc' : UpdatePass} {ref : Ref} (h : LoopInv mro c ((reqId, n) :: rest) s acc)

omit [KvCache H K]

include h

lemma id_eq (href : s.requests.get? reqId = some ref) : (s.objs ref).requestId = reqId :=
  (h.queues.tracked reqId ref href).1

/-- The request at hand has not been stopped yet. -/
lemma not_stopped (href : s.requests.get? reqId = some ref) :
    ref ∉ acc.stoppedRunningReqs ∧ ref ∉ acc.stoppedPreemptedReqs := by
  have hnot : ¬ (ref ∈ acc.stoppedRunningReqs ∨ ref ∈ acc.stoppedPreemptedReqs) := by
    intro hmem
    refine h.worked ref hmem ?_
    rw [h.id_eq href]
    exact mem_cons_self
  exact not_or.1 hnot

lemma place (href : s.requests.get? reqId = some ref) :
    ((s.objs ref).status = .running → ref ∉ s.waiting ∧ ref ∉ s.skippedWaiting) ∧
      ((s.objs ref).status ≠ .running → ref ∉ s.running) := by
  have hout := takenOut_removeStopped h.nodup acc
  obtain ⟨hA, hB⟩ := h.not_stopped href
  constructor
  · intro hstatus
    constructor
    · intro hmem
      refine h.queues.status_of_mem.2 ?_ hstatus
      exact mem_append_left _ (mem_append_left _ (hout.mem_waiting.2 ⟨hmem, hB⟩))
    · intro hmem
      refine h.queues.status_of_mem.2 ?_ hstatus
      exact mem_append_left _ (mem_append_right _ (hout.mem_skippedWaiting.2 ⟨hmem, hB⟩))
  · intro hstatus hmem
    exact hstatus (h.queues.status_of_mem.1 (hout.mem_running.2 ⟨hmem, hA⟩))

lemma worked_rest (hids : ∀ r, (s'.objs r).requestId = (s.objs r).requestId) (r : Ref)
    (hr : r ∈ acc.stoppedRunningReqs ∨ r ∈ acc.stoppedPreemptedReqs) :
    (s'.objs r).requestId ∉ rest.map Prod.fst := by
  rw [hids r]
  intro hmem
  exact h.worked r hr (mem_cons_of_mem _ hmem)

lemma sessions_rest (hrest : reqId ∉ rest.map Prod.fst) (hconfig : s'.config = s.config)
    (htracked : ∀ reqId r, s'.requests.get? reqId = some r → s.requests.get? reqId = some r)
    (hothers : ∀ r, s.requests.get? reqId ≠ some r → s'.objs r = s.objs r) (hc : c) :
    s'.KeepsSessions mro (rest.map Prod.fst) := by
  intro reqId' hmem r hget
  have hget' := htracked reqId' r hget
  rw [hothers r fun hsame => hrest ?_, hconfig]
  · exact h.sessions hc reqId' (mem_cons_of_mem _ hmem) r hget'
  · rw [← (h.queues.tracked reqId r hsame).1, (h.queues.tracked reqId' r hget').1]
    exact hmem

lemma frame (hrest : reqId ∉ rest.map Prod.fst) (hframe : QueueFrame s s')
    (hothers : ∀ r, s.requests.get? reqId ≠ some r → s'.objs r = s.objs r)
    (hA : acc'.stoppedRunningReqs = acc.stoppedRunningReqs)
    (hB : acc'.stoppedPreemptedReqs = acc.stoppedPreemptedReqs) : LoopInv mro c rest s' acc' := by
  have hnodup : s'.running.Nodup := hframe.running ▸ h.nodup
  have hold := takenOut_removeStopped h.nodup acc
  have hnew := takenOut_removeStopped hnodup acc'
  have hchange : QueueChange (s.removeStopped acc) [] (s'.removeStopped acc') [] := by
    refine { hframe with perm := ?_, request := fun r => .inl ⟨hframe.statuses r, ?_⟩ }
    · refine hnew.perm.trans ?_
      rw [hframe.running, hframe.waiting, hframe.skippedWaiting, hA, hB]
      exact hold.perm.symm
    · rw [hnew.mem_running, hold.mem_running, hframe.running, hA]
  refine ⟨hnodup, hchange.queueInv h.queues, ?_, h.sessions_rest hrest hframe.config (fun _ _ hget =>
    hframe.requests ▸ hget) hothers, fun hc => hchange.complete (h.complete hc)⟩
  rw [hA, hB]
  exact h.worked_rest hframe.ids

/-- A round that stops the request at hand. -/
lemma stop (hrest : reqId ∉ rest.map Prod.fst)
    (href : s.requests.get? reqId = some ref) (heffect : StopEffect ref s s')
    (hconfig : s'.config = s.config)
    (hsession : ¬ stopsAsSession s.config mro reqId (s.objs ref) → (s.objs ref).status ≠ .running →
      (s'.objs ref).isFinished = true)
    (hA : ∀ r, r ∈ acc'.stoppedRunningReqs ↔
      r ∈ acc.stoppedRunningReqs ∨ r = ref ∧ (s.objs ref).status = .running)
    (hB : ∀ r, r ∈ acc'.stoppedPreemptedReqs ↔
      r ∈ acc.stoppedPreemptedReqs ∨ r = ref ∧ (s.objs ref).status ≠ .running) :
    LoopInv mro c rest s' acc' := by
  have hnodup : s'.running.Nodup := heffect.running ▸ h.nodup
  have hold := takenOut_removeStopped h.nodup acc
  have hout := takenOut_removeStopped hnodup acc'
  obtain ⟨hrun, hwait⟩ := h.place href
  obtain ⟨hnotA, hnotB⟩ := h.not_stopped href
  -- What is left from before, without the request at hand.
  have hleft : (s.remaining acc'.stoppedRunningReqs acc'.stoppedPreemptedReqs).Nodup := by
    refine (hold.perm.nodup_iff.1 h.queues.nodup).sublist (remaining_sublist s ?_ ?_)
    · exact fun r hr => (hA r).2 (.inl hr)
    · exact fun r hr => (hB r).2 (.inl hr)
  have hnotLeft : ref ∉ s.remaining acc'.stoppedRunningReqs acc'.stoppedPreemptedReqs := by
    simp only [remaining, mem_append, mem_filter, decide_eq_true_iff, hA, hB]
    by_cases hstatus : (s.objs ref).status = .running
    · tauto
    · tauto
  have hnotRunning : ref ∉ (s'.removeStopped acc').running := by
    rw [hout.mem_running, heffect.running, hA]
    by_cases hstatus : (s.objs ref).status = .running
    · exact fun hmem => hmem.2 (.inr ⟨rfl, hstatus⟩)
    · exact fun hmem => hwait hstatus hmem.1
  have hplace := heffect.stopped.remaining_perm heffect.running acc'.stoppedRunningReqs
    acc'.stoppedPreemptedReqs
  have hqueues : ((s'.removeStopped acc').allQueued []).Nodup := by
    refine hout.perm.nodup_iff.2 ?_
    rcases hplace with ⟨hperm, -⟩ | ⟨hperm, -⟩
    · exact hperm.nodup_iff.2 hleft
    · exact hperm.nodup_iff.2 (nodup_cons.2 ⟨hnotLeft, hleft⟩)
  have htouch : Touches [ref] (s.removeStopped acc) (s'.removeStopped acc') := by
    refine heffect.touches h.nodup (fun r hne => ?_) (fun r hne => ?_) hqueues
    · rw [hA]
      exact or_iff_left fun hr => hne hr.1
    · rw [hB]
      exact or_iff_left fun hr => hne hr.1
  refine ⟨hnodup, h.queues.touch htouch ?_ ?_ (heffect.streaming h.queues.streaming), ?_,
    h.sessions_rest hrest hconfig heffect.tracked ?_, ?_⟩
  · intro r hr hmem
    obtain rfl : r = ref := mem_singleton.1 hr
    rcases hplace with ⟨hperm, -⟩ | ⟨-, hfinished, hrequests, -⟩
    · exact absurd (hperm.mem_iff.1 (hout.perm.mem_iff.1 hmem)) hnotLeft
    · refine ⟨?_, hfinished⟩
      show s'.requests.get? (s'.objs r).requestId = some r
      rw [heffect.ids, h.id_eq href, hrequests]
      exact href
  · intro r hr _ _
    obtain rfl : r = ref := mem_singleton.1 hr
    exact iff_of_false heffect.status hnotRunning
  · intro r hr
    rw [hA, hB] at hr
    by_cases heq : r = ref
    · subst heq
      rw [heffect.ids, h.id_eq href]
      exact hrest
    · refine h.worked_rest heffect.ids r ?_
      tauto
  · exact fun r hne => heffect.others r fun heq => hne (heq ▸ href)
  · intro hc
    refine (h.complete hc).touch htouch ?_
    intro r hr _ _ hunfinished
    obtain rfl : r = ref := mem_singleton.1 hr
    have hunfinished' : (s'.objs r).isFinished = false := hunfinished
    rcases hplace with ⟨-, hdone | hmem⟩ | ⟨hperm, -⟩
    · rw [hdone] at hunfinished'
      cases hunfinished'
    · have hstatus := ((hB r).1 hmem).resolve_left hnotB
      rw [hsession (h.sessions hc reqId mem_cons_self r href) hstatus.2] at hunfinished'
      cases hunfinished'
    · exact hout.perm.mem_iff.2 (hperm.mem_iff.2 mem_cons_self)

end LoopInv

omit [KvCache H K] in
/-- A request is put into one of the two waiting queues; all else stays. -/
lemma enqueueWaitingRequest_eq (s : Scheduler H K) (ref : Ref) :
    ∃ waiting skipped, s.enqueueWaitingRequest ref =
        { s with waiting := waiting, skippedWaiting := skipped } ∧
      (waiting.Perm (ref :: s.waiting) ∧ skipped = s.skippedWaiting ∨
        waiting = s.waiting ∧ skipped.Perm (ref :: s.skippedWaiting)) := by
  unfold enqueueWaitingRequest
  split
  · exact ⟨_, _, rfl, .inr ⟨rfl, addRequest_perm _ _⟩⟩
  · exact ⟨_, _, rfl, .inl ⟨addRequest_perm _ _, rfl⟩⟩

variable [DecidableEq H] {r' : Request H} {s₁ : Scheduler H K}

omit [KvCache H K] in
/-- The next input of a session keeps its id and lets it wait. -/
lemma updateAsSession_frame {bh : Option (BlockHasher H)} {r : Request H}
    {update : StreamingUpdate} (h : r.updateAsSession bh update = .ok r') :
    r'.requestId = r.requestId ∧ r'.status = .waiting := by
  unfold updateAsSession at h
  cases hprompt : r.promptTokenIds with
  | none =>
    rw [hprompt] at h
    cases h
  | some prompt =>
    rw [hprompt] at h
    cases h
    constructor
    · unfold updateBlockHashes
      split
      · rfl
      · rfl
    · rfl

section

omit [KvCache H K] [DecidableEq H]

lemma SetsRequest.others (h : SetsRequest ref r' s s₁) (r : Ref) (hne : r ≠ ref) :
    s₁.objs r = s.objs r := by
  rw [h.objs, Function.update_of_ne hne]

lemma SetsRequest.ids (h : SetsRequest ref r' s s₁) (hid : r'.requestId = (s.objs ref).requestId)
    (r : Ref) : (s₁.objs r).requestId = (s.objs r).requestId := by
  by_cases hr : r = ref
  · rw [hr, h.self, hid]
  · rw [h.others r hr]

/-- The session that goes on stands in a waiting queue. -/
lemma stopEffect_enqueue {num : ℤ} (h : SetsRequest ref r' s s₁)
    (hid : r'.requestId = (s.objs ref).requestId) (hfinished : r'.isFinished = false)
    (hstatus : r'.status ≠ .running)
    (hstreaming : (s.numStreaming : ℤ) ≤ s.numWaitingForStreamingInput →
      (s₁.numStreaming : ℤ) ≤ num) :
    StopEffect ref s
      ({ s₁ with numWaitingForStreamingInput := num }.enqueueWaitingRequest ref) := by
  obtain ⟨waiting, skipped, heq, hplace⟩ :=
    enqueueWaitingRequest_eq { s₁ with numWaitingForStreamingInput := num } ref
  have hrequests : s₁.requests = s.requests := h.books.requests
  have hunfinished : (s₁.objs ref).isFinished = false := by rw [h.self, hfinished]
  rw [heq]
  refine ⟨h.books.nextRef, h.ids hid, h.others, ?_, ?_, h.books.running, ?_, ?_, hstreaming⟩
  · intro reqId r hget
    rwa [← hrequests]
  · intro reqId r _ hget
    rwa [← hrequests] at hget
  · rcases hplace with ⟨hperm, hsame⟩ | ⟨hsame, hperm⟩
    · exact .waiting hunfinished hrequests (h.books.waiting ▸ hperm) (hsame.trans h.books.skippedWaiting)
    · exact .skipped hunfinished hrequests (hsame.trans h.books.waiting) (h.books.skippedWaiting ▸ hperm)
  · rw [h.self]
    exact hstatus

end

omit [KvCache H K] in
/-- What a stop of the request does, from the state before its tokens are taken. -/
lemma stopEffect_of_handled
    (href : s.requests.get? reqId = some ref) (hreqId : (s.objs ref).requestId = reqId)
    (hset : SetsRequest ref r' s s₁) (hid : r'.requestId = (s.objs ref).requestId)
    (hfinished : r'.isFinished = true) (hhandled : StopHandled ref s₁ s') :
    StopEffect ref s s' := by
  have hself : s₁.objs ref = r' := hset.self
  have hwaits1 : s₁.numWaitingForStreamingInput = s.numWaitingForStreamingInput :=
    hset.books.streaming
  -- A request that does not wait for input is no more to count.
  have hcount : ∀ {s2 : Scheduler H K}, s2.nextRef = s.nextRef →
      (∀ r, r ≠ ref → s2.objs r = s.objs r) →
      (s2.objs ref).status ≠ .waitingForStreamingReq → s2.numStreaming ≤ s.numStreaming := by
    intro s2 hnext hothers hstatus
    refine numStreaming_le hnext fun r hr => ?_
    by_cases heq : r = ref
    · subst heq
      exact absurd hr hstatus
    · rwa [hothers r heq] at hr
  cases hhandled with
  | @finished r'' s2 _ hr hset2 hs' =>
    obtain ⟨queue, hr⟩ := hr
    have hall := hset.trans hset2
    have hself2 : s2.objs ref = r'' := hall.self
    have hr''status : r''.status = r'.status := by rw [hr, hself]
    have hr''id : r''.requestId = reqId := by rw [hr, hself, hid, hreqId]
    have hdone : r''.isFinished = true := by
      rw [isFinished, hr''status]
      exact hfinished
    obtain ⟨requests', hs2⟩ := eq_setRequests hs'
    have hobjs' : s'.objs = s2.objs := by rw [hs2]
    have hothers : ∀ r, r ≠ ref → s'.objs r = s.objs r := by
      intro r hne
      rw [hobjs', hall.others r hne]
    have hself' : s'.objs ref = r'' := by rw [hobjs', hself2]
    have hnext : s'.nextRef = s.nextRef := by
      rw [hs2]
      exact hall.books.nextRef
    have hwaits : s'.numWaitingForStreamingInput = s.numWaitingForStreamingInput := by
      rw [hs2]
      exact hall.books.streaming
    have hrequests : s'.requests = s.requests ∨ s'.requests = s.requests.erase reqId := by
      rcases hs' with rfl | rfl
      · exact .inl hall.books.requests
      · refine .inr ?_
        rw [hself, hid, hreqId]
        rw [hset.books.requests]
        rfl
    refine ⟨hnext, ?_, hothers, ?_, ?_, ?_, ?_, ?_, ?_⟩
    · rw [hobjs']
      exact hall.ids (hr''id.trans hreqId.symm)
    · intro reqId' r hget
      rcases hrequests with hrequests | hrequests
      · rwa [hrequests] at hget
      · rw [hrequests] at hget
        exact Dict.get?_of_erase hget
    · intro reqId' r hne hget
      rcases hrequests with hrequests | hrequests
      · rwa [hrequests]
      · rw [hrequests, Dict.get?_erase_ne]
        · exact hget
        · rintro rfl
          rw [href] at hget
          cases hget
          exact hne rfl
    · rw [hs2]
      exact hall.books.running
    · refine .finished (by rw [hself', hdone]) ?_ ?_
      · rw [hs2]
        exact hall.books.waiting
      · rw [hs2]
        exact hall.books.skippedWaiting
    · rw [hself']
      intro hrun
      rw [isFinished, hrun] at hdone
      cases hdone
    · have hnotWaiting : (s'.objs ref).status ≠ .waitingForStreamingReq := by
        rw [hself']
        intro hwait
        rw [isFinished, hwait] at hdone
        cases hdone
      have := hcount hnext hothers hnotWaiting
      omega
  | @continued update rest r'' _ _ hupdate =>
    obtain ⟨hr''id, hr''status⟩ := updateAsSession_frame hupdate
    have hall := hset.trans (.of_modifyReq s₁ ref fun _ => r'')
    have hr''unfinished : r''.isFinished = false := by
      rw [isFinished, hr''status]
      rfl
    refine stopEffect_enqueue hall ?_ hr''unfinished ?_ ?_
    · rw [hr''id, hself, hid]
    · rw [hr''status]
      exact RequestStatus.noConfusion
    · have hcountLe : (s₁.modifyReq ref fun _ => r'').numStreaming ≤ s.numStreaming := by
        refine hcount hall.books.nextRef hall.others ?_
        rw [hall.self, hr''status]
        exact RequestStatus.noConfusion
      omega
  | waits _ _ =>
    have hall := hset.trans
      (.of_modifyReq s₁ ref fun r => { r with status := .waitingForStreamingReq })
    refine stopEffect_enqueue hall ?_ rfl RequestStatus.noConfusion ?_
    · rw [hself, hid]
    · intro hle
      have hcountLe := numStreaming_le_succ (s := s) ref hall.books.nextRef fun r hne =>
        congrArg status (hall.others r hne)
      omega

section

omit [KvCache H K] [DecidableEq H]

lemma requestId_countedDown (c : SchedulerConfig H) (out : SchedulerOutput) (reqId : String)
    (n : ℕ) (generated : List Token) (r : Request H) :
    (countedDown c out reqId n generated r).requestId = r.requestId := by
  unfold countedDown settleDrafts
  split
  · rfl
  · rfl

lemma streamingQueue_countedDown (c : SchedulerConfig H) (out : SchedulerOutput) (reqId : String)
    (n : ℕ) (generated : List Token) (r : Request H) :
    (countedDown c out reqId n generated r).streamingQueue = r.streamingQueue := by
  unfold countedDown settleDrafts
  split
  · rfl
  · rfl

lemma requestId_takesTokens {c : SchedulerConfig H} {generated tokens : List Token}
    {isStale stopped : Bool} {r r' : Request H}
    (h : TakesTokens c generated tokens isStale stopped r r') : r'.requestId = r.requestId := by
  obtain ⟨_, _, _, _, _, heq⟩ := h.eq
  rw [heq]

lemma SetsRequest.queueFrame {r' : Request H} (h : SetsRequest ref r' s s')
    (hid : r'.requestId = (s.objs ref).requestId) (hstatus : r'.status = (s.objs ref).status) :
    QueueFrame s s' := by
  refine (QueueFrame.modifyReq s ref (fun _ => r') hid hstatus).trans ?_
  exact { h.books with ids := fun r => by rw [h.books.objs], statuses := fun r => by rw [h.books.objs] }

end

section

omit [KvCache H K]

/-- A stop leaves the configuration and the running queue alone. -/
lemma StopHandled.running (h : StopHandled ref s s') :
    s'.config = s.config ∧ s'.running = s.running := by
  cases h with
  | finished _ hset hs' =>
    obtain ⟨_, rfl⟩ := eq_setRequests hs'
    exact ⟨hset.books.config, hset.books.running⟩
  | @continued _ _ r' _ _ _ =>
    obtain ⟨_, _, heq, -⟩ := enqueueWaitingRequest_eq (s.modifyReq ref fun _ => r') ref
    rw [heq]
    exact ⟨rfl, rfl⟩
  | waits _ _ =>
    obtain ⟨_, _, heq, -⟩ := enqueueWaitingRequest_eq
      { s.modifyReq ref fun r => { r with status := .waitingForStreamingReq } with
        numWaitingForStreamingInput := s.numWaitingForStreamingInput + 1 } ref
    rw [heq]
    exact ⟨rfl, rfl⟩

/-- A stopped request that is no session to go on is finished. -/
lemma StopHandled.isFinished (h : StopHandled ref s s') (hfinished : (s.objs ref).isFinished = true)
    (hsession : ¬ (s.objs ref).sessionGoesOn = true) : (s'.objs ref).isFinished = true := by
  cases h with
  | @finished r' s₁ _ hr hset hs' =>
    obtain ⟨queue, rfl⟩ := hr
    obtain ⟨_, rfl⟩ := eq_setRequests hs'
    rw [show _ = _ from hset.self]
    exact hfinished
  | continued hresumable hqueue _ =>
    simp [Request.sessionGoesOn, hresumable, hqueue] at hsession
  | waits hresumable hqueue =>
    simp [Request.sessionGoesOn, hresumable, hqueue] at hsession

lemma LoopInv.updateRequest {c : Prop} {reqId : String} {n : ℕ} {rest : List (String × ℕ)}
    (h : LoopInv mro c ((reqId, n) :: rest) s acc)
    (hrest : reqId ∉ rest.map Prod.fst) (hupdate : RequestUpdate out mro failed reqId n s res s') :
    LoopInv mro c rest s' (acc.add s' res) := by
  cases hupdate with
  | untracked _ => exact h.frame hrest (.refl s) (fun _ _ => rfl) rfl rfl
  | @skipped ref href _ =>
    exact h.frame hrest (.modifyReq s ref _ rfl rfl)
      (fun r hne => modifyReq_objs_of_ne _ (fun heq : r = ref => hne (heq ▸ href)) _) rfl rfl
  | @goesOn ref generated r' s' x href _ _ _ _ htakes hset hstopped =>
    refine h.frame hrest (hset.queueFrame ?_ ?_)
      (fun r hne => hset.others r fun heq => hne (heq ▸ href)) ?_ ?_
    · rw [requestId_takesTokens htakes, requestId_countedDown]
    · rw [(htakes.goes_on rfl).2.1, status_countedDown]
    · simp [UpdatePass.add, hstopped]
    · simp [UpdatePass.add, hstopped]
  | @stops ref generated tokens r' s₁ s' x href _ hunfinished hdelivered hgenerated htakes hstops hset
      hhandled hx =>
    have heffect := stopEffect_of_handled href (h.id_eq href) hset
      (by rw [requestId_takesTokens htakes, requestId_countedDown]) (htakes.stops rfl) hhandled
    obtain ⟨hxref, hxstopped, hxstatus⟩ := hx
    have hsession : ¬ stopsAsSession s.config mro reqId (s.objs ref) →
        (s.objs ref).status ≠ .running → (s'.objs ref).isFinished = true := by
      intro hkept hstatus
      refine hhandled.isFinished (hset.self.symm ▸ htakes.stops rfl) fun hgoes => ?_
      rw [hset.self] at hgoes
      have hqueue : r'.streamingQueue = (s.objs ref).streamingQueue := by
        obtain ⟨_, _, _, _, _, heq⟩ := htakes.eq
        rw [heq, streamingQueue_countedDown]
      obtain ⟨hresumable, hhead⟩ := Bool.and_eq_true_iff.1 hgoes
      obtain ⟨hresumable, hon⟩ := hstops hresumable
      rw [hqueue] at hhead
      exact hkept ⟨hstatus, hunfinished, hdelivered, Bool.and_eq_true_iff.2 ⟨hresumable, hhead⟩,
        generated, hgenerated, hon⟩
    have hconfig := hhandled.running.1.trans hset.config
    refine h.stop hrest href heffect hconfig hsession ?_ ?_
    all_goals
      intro r
      simp only [UpdatePass.add, hxref, hxstopped, hxstatus, true_and]
      split
      · rename_i hstatus
        rw [mem_setAdd, or_comm]
        simp [hstatus]
      · rename_i hstatus
        simp [hstatus]

lemma RequestUpdate.running {reqId : String} {n : ℕ}
    (h : RequestUpdate out mro failed reqId n s res s') :
    s'.config = s.config ∧ s'.running = s.running := by
  cases h with
  | untracked _ | skipped _ _ => exact ⟨rfl, rfl⟩
  | goesOn _ _ _ _ _ _ hset _ => exact ⟨hset.books.config, hset.books.running⟩
  | stops _ _ _ _ _ _ _ hset hhandled _ =>
    obtain ⟨hconfig, hrunning⟩ := hhandled.running
    exact ⟨hconfig.trans hset.books.config, hrunning.trans hset.books.running⟩

end

lemma LoopInv.updateLoop {c : Prop} {entries : List (String × ℕ)} (h : LoopInv mro c entries s acc)
    (hids : (entries.map Prod.fst).Nodup)
    (hloop : Scheduler.updateLoop out mro failed entries acc s = .ok acc' s') :
    LoopInv mro c [] s' acc' ∧ s'.config = s.config ∧ s'.running = s.running := by
  induction entries generalizing s acc with
  | nil =>
    cases hloop
    exact ⟨h, rfl, rfl⟩
  | cons entry rest ih =>
    obtain ⟨res, s₁, hround, hthen⟩ := bind_eq_ok.1 hloop
    have hupdate := updateRequest_cases hround
    obtain ⟨hconfig, hrunning⟩ := hupdate.running
    rw [map_cons, nodup_cons] at hids
    obtain ⟨hinv, hconfig', hrunning'⟩ := ih (h.updateRequest hids.1 hupdate) hids.2 hthen
    exact ⟨hinv, hconfig'.trans hconfig, hrunning'.trans hrunning⟩

end Scheduler

end Lvllm
