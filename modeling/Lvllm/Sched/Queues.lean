import Lvllm.Sched.PassSteps
import Mathlib.Data.List.Count

/-!
# The queues of the scheduler

Every request in a queue is tracked, is not finished and stands in one queue once; the running ones
are those with the status `RUNNING`.  `QueueInv` says so, with the requests that a call of `schedule`
has set aside as a fourth queue.  A request can be missing from the queues; `Complete` says that none
is.  Both are kept by what `QueueChange` describes, and each action of `schedule` is such a change.
-/

namespace Lvllm

open Relation (ReflTransGen)

namespace Scheduler

variable {H K : Type}

/-- The requests in the queues and those set aside. -/
def allQueued (s : Scheduler H K) (aside : List Ref) : List Ref :=
  s.running ++ (s.waiting ++ s.skippedWaiting ++ aside)

variable {s s' : Scheduler H K} {ref : Ref} {which : WaitingQueue} {p : Pass}

lemma mem_allQueued {aside : List Ref} : ref ∈ s.allQueued aside ↔ s.Queued ref ∨ ref ∈ aside := by
  simp only [allQueued, Queued, List.mem_append]
  tauto

/-- The number of requests that wait for the next input of their session. -/
def numStreaming (s : Scheduler H K) : ℕ :=
  (List.range s.nextRef).countP fun ref => decide ((s.objs ref).status = .waitingForStreamingReq)

/-- What holds of the queues, with some requests set aside. -/
structure QueueInv (s : Scheduler H K) (aside : List Ref) : Prop where
  /-- A tracked request is found under its own id. -/
  tracked : ∀ reqId ref, s.requests.get? reqId = some ref →
    (s.objs ref).requestId = reqId ∧ ref < s.nextRef
  nodup : (s.allQueued aside).Nodup
  queued : ∀ ref ∈ s.allQueued aside,
    s.requests.get? (s.objs ref).requestId = some ref ∧ (s.objs ref).isFinished = false
  running_iff : ∀ reqId ref, s.requests.get? reqId = some ref →
    ((s.objs ref).status = .running ↔ ref ∈ s.running)
  streaming : (s.numStreaming : ℤ) ≤ s.numWaitingForStreamingInput

/-- No tracked request that is not finished is missing from the queues. -/
def Complete (s : Scheduler H K) (aside : List Ref) : Prop :=
  ∀ reqId ref, s.requests.get? reqId = some ref → (s.objs ref).isFinished = false →
    ref ∈ s.allQueued aside

/-- Requests move between the queues and change their status to match. -/
structure QueueChange (s : Scheduler H K) (aside : List Ref) (s' : Scheduler H K)
    (aside' : List Ref) : Prop where
  config : s'.config = s.config
  requests : s'.requests = s.requests
  nextRef : s'.nextRef = s.nextRef
  streaming : s'.numWaitingForStreamingInput = s.numWaitingForStreamingInput
  ids : ∀ ref, (s'.objs ref).requestId = (s.objs ref).requestId
  perm : (s'.allQueued aside').Perm (s.allQueued aside)
  /-- A request keeps its status and stays running or not, or changes both together. -/
  request : ∀ ref,
    (s'.objs ref).status = (s.objs ref).status ∧ (ref ∈ s'.running ↔ ref ∈ s.running) ∨
      ref ∈ s.allQueued aside ∧ (s'.objs ref).isFinished = false ∧
        (s.objs ref).status ≠ .waitingForStreamingReq ∧
        (s'.objs ref).status ≠ .waitingForStreamingReq ∧
        ((s'.objs ref).status = .running ↔ ref ∈ s'.running)

namespace QueueChange

variable {s s' : Scheduler H K} {aside aside' : List Ref}

lemma numStreaming_eq (h : QueueChange s aside s' aside') : s'.numStreaming = s.numStreaming := by
  unfold numStreaming
  rw [h.nextRef]
  refine List.countP_congr fun ref _ => ?_
  rw [decide_eq_true_iff, decide_eq_true_iff]
  rcases h.request ref with ⟨hstatus, -⟩ | ⟨-, -, hold, hnew, -⟩
  · rw [hstatus]
  · exact iff_of_false hnew hold

lemma queueInv (h : QueueChange s aside s' aside') (hs : QueueInv s aside) :
    QueueInv s' aside' where
  tracked reqId ref hget := by
    rw [h.requests] at hget
    rw [h.ids, h.nextRef]
    exact hs.tracked reqId ref hget
  nodup := h.perm.nodup_iff.2 hs.nodup
  queued ref hmem := by
    have hold := h.perm.mem_iff.1 hmem
    obtain ⟨hget, hfinished⟩ := hs.queued ref hold
    rw [h.requests, h.ids]
    refine ⟨hget, ?_⟩
    rcases h.request ref with ⟨hstatus, -⟩ | ⟨-, hnew, -⟩
    · rw [Request.isFinished, hstatus]
      exact hfinished
    · exact hnew
  running_iff reqId ref hget := by
    rw [h.requests] at hget
    rcases h.request ref with ⟨hstatus, hrunning⟩ | ⟨-, -, -, -, hiff⟩
    · rw [hstatus, hrunning]
      exact hs.running_iff reqId ref hget
    · exact hiff
  streaming := by
    rw [h.numStreaming_eq, h.streaming]
    exact hs.streaming

lemma complete (h : QueueChange s aside s' aside') (hs : Complete s aside) :
    Complete s' aside' := by
  intro reqId ref hget hfinished
  rw [h.requests] at hget
  refine h.perm.mem_iff.2 ?_
  rcases h.request ref with ⟨hstatus, -⟩ | ⟨hmem, -⟩
  · rw [Request.isFinished, hstatus] at hfinished
    exact hs reqId ref hget hfinished
  · exact hmem

end QueueChange

/-- The queues and the statuses stay as they are. -/
structure QueueFrame (s s' : Scheduler H K) : Prop where
  config : s'.config = s.config
  requests : s'.requests = s.requests
  nextRef : s'.nextRef = s.nextRef
  streaming : s'.numWaitingForStreamingInput = s.numWaitingForStreamingInput
  running : s'.running = s.running
  waiting : s'.waiting = s.waiting
  skippedWaiting : s'.skippedWaiting = s.skippedWaiting
  ids : ∀ ref, (s'.objs ref).requestId = (s.objs ref).requestId
  statuses : ∀ ref, (s'.objs ref).status = (s.objs ref).status

namespace QueueFrame

variable {s s' s'' : Scheduler H K}

lemma of_eq (h : (s'.config, s'.requests, s'.nextRef, s'.numWaitingForStreamingInput, s'.running,
      s'.waiting, s'.skippedWaiting, s'.objs) = (s.config, s.requests, s.nextRef,
        s.numWaitingForStreamingInput, s.running, s.waiting, s.skippedWaiting, s.objs)) :
    QueueFrame s s' := by
  simp only [Prod.mk.injEq] at h
  obtain ⟨hconfig, hrequests, hnextRef, hstreaming, hrunning, hwaiting, hskipped, hobjs⟩ := h
  exact ⟨hconfig, hrequests, hnextRef, hstreaming, hrunning, hwaiting, hskipped,
    fun _ => by rw [hobjs], fun _ => by rw [hobjs]⟩

lemma refl (s : Scheduler H K) : QueueFrame s s := .of_eq rfl

lemma trans (h : QueueFrame s s') (h' : QueueFrame s' s'') : QueueFrame s s'' where
  config := h'.config.trans h.config
  requests := h'.requests.trans h.requests
  nextRef := h'.nextRef.trans h.nextRef
  streaming := h'.streaming.trans h.streaming
  running := h'.running.trans h.running
  waiting := h'.waiting.trans h.waiting
  skippedWaiting := h'.skippedWaiting.trans h.skippedWaiting
  ids ref := (h'.ids ref).trans (h.ids ref)
  statuses ref := (h'.statuses ref).trans (h.statuses ref)

/-- A change of a request that keeps its id and its status. -/
lemma modifyReq (s : Scheduler H K) (ref : Ref) (f : Request H → Request H)
    (hid : (f (s.objs ref)).requestId = (s.objs ref).requestId)
    (hstatus : (f (s.objs ref)).status = (s.objs ref).status) :
    QueueFrame s (s.modifyReq ref f) := by
  refine ⟨rfl, rfl, rfl, rfl, rfl, rfl, rfl, fun ref' => ?_, fun ref' => ?_⟩
  · by_cases heq : ref' = ref
    · subst heq
      rw [modifyReq_objs_self, hid]
    · rw [modifyReq_objs_of_ne _ heq]
  · by_cases heq : ref' = ref
    · subst heq
      rw [modifyReq_objs_self, hstatus]
    · rw [modifyReq_objs_of_ne _ heq]

lemma setKv (s : Scheduler H K) (k : K) : QueueFrame s { s with kv := k } := .of_eq rfl

lemma setEncoder (s : Scheduler H K) (e : EncoderCacheManager) :
    QueueFrame s { s with encoder := e } := .of_eq rfl

lemma allQueued (h : QueueFrame s s') (aside : List Ref) :
    s'.allQueued aside = s.allQueued aside := by
  simp only [Scheduler.allQueued, h.running, h.waiting, h.skippedWaiting]

lemma queueChange (h : QueueFrame s s') (aside : List Ref) : QueueChange s aside s' aside :=
  { h with
    perm := by rw [h.allQueued]
    request := fun ref => .inl ⟨h.statuses ref, by rw [h.running]⟩ }

end QueueFrame

/-! ## Moves -/

/-- One request moves, with the status that its new place asks for. -/
lemma QueueChange.move {aside aside' : List Ref} (ref : Ref) (f : Request H → Request H)
    (hframe : (s'.config, s'.requests, s'.nextRef, s'.numWaitingForStreamingInput, s'.objs) =
      (s.config, s.requests, s.nextRef, s.numWaitingForStreamingInput,
        Function.update s.objs ref (f (s.objs ref))))
    (hid : (f (s.objs ref)).requestId = (s.objs ref).requestId)
    (hperm : (s'.allQueued aside').Perm (s.allQueued aside)) (hmem : ref ∈ s.allQueued aside)
    (hfinished : (f (s.objs ref)).isFinished = false)
    (hold : (s.objs ref).status ≠ .waitingForStreamingReq)
    (hnew : (f (s.objs ref)).status ≠ .waitingForStreamingReq)
    (hrunning : (f (s.objs ref)).status = .running ↔ ref ∈ s'.running)
    (hothers : ∀ ref', ref' ≠ ref → (ref' ∈ s'.running ↔ ref' ∈ s.running)) :
    QueueChange s aside s' aside' := by
  simp only [Prod.mk.injEq] at hframe
  obtain ⟨hconfig, hrequests, hnextRef, hstreaming, hobjs⟩ := hframe
  refine ⟨hconfig, hrequests, hnextRef, hstreaming, fun ref' => ?_, hperm, fun ref' => ?_⟩
  · by_cases heq : ref' = ref
    · subst heq
      rw [hobjs, Function.update_self, hid]
    · rw [hobjs, Function.update_of_ne heq]
  · by_cases heq : ref' = ref
    · subst heq
      rw [hobjs, Function.update_self]
      exact .inr ⟨hmem, hfinished, hold, hnew, hrunning⟩
    · rw [hobjs, Function.update_of_ne heq]
      exact .inl ⟨rfl, hothers ref' heq⟩

/-- The front of a queue of waiting requests is taken off. -/
lemma popWaiting_perm (h : s.frontWaiting = some (which, ref)) :
    (ref :: ((s.popWaiting which).waiting ++ (s.popWaiting which).skippedWaiting)).Perm
      (s.waiting ++ s.skippedWaiting) := by
  obtain ⟨rest, hqueue⟩ := queue_of_frontWaiting h
  cases which with
  | waiting =>
    have hwaiting : s.waiting = ref :: rest := hqueue
    show (ref :: (s.popFrom s.waiting ++ s.skippedWaiting)).Perm _
    rw [hwaiting, List.cons_append]
    exact ((RequestQueue.popRequest_perm ref rest).append_right _).cons ref
  | skipped =>
    have hskipped : s.skippedWaiting = ref :: rest := hqueue
    show (ref :: (s.waiting ++ s.popFrom s.skippedWaiting)).Perm _
    rw [hskipped]
    exact (((RequestQueue.popRequest_perm ref rest).append_left _).cons ref).trans
      List.perm_middle.symm

section

variable (s : Scheduler H K) (which : WaitingQueue)

@[simp] lemma popWaiting_objs : (s.popWaiting which).objs = s.objs := by
  cases which with
  | waiting | skipped => rfl

@[simp] lemma popWaiting_running : (s.popWaiting which).running = s.running := by
  cases which with
  | waiting | skipped => rfl

@[simp] lemma popWaiting_requests : (s.popWaiting which).requests = s.requests := by
  cases which with
  | waiting | skipped => rfl

@[simp] lemma popWaiting_nextRef : (s.popWaiting which).nextRef = s.nextRef := by
  cases which with
  | waiting | skipped => rfl

@[simp] lemma popWaiting_config : (s.popWaiting which).config = s.config := by
  cases which with
  | waiting | skipped => rfl

@[simp] lemma popWaiting_streaming :
    (s.popWaiting which).numWaitingForStreamingInput = s.numWaitingForStreamingInput := by
  cases which with
  | waiting | skipped => rfl

end

/-- The request at the front of a waiting queue is not running. -/
lemma QueueInv.front_not_running {aside : List Ref} (hs : QueueInv s aside)
    (h : s.frontWaiting = some (which, ref)) :
    ref ∉ s.running := by
  have hmem : ref ∈ s.waiting ++ s.skippedWaiting :=
    (popWaiting_perm h).mem_iff.1 List.mem_cons_self
  intro hrunning
  have hdisjoint := (List.nodup_append.1 hs.nodup).2.2
  exact hdisjoint ref hrunning ref (List.mem_append_left _ hmem) rfl

lemma queueChange_setAside (h : s.frontWaiting = some (which, ref)) :
    QueueChange s p.stepSkippedWaiting (setAside which ref (s, p)).1
      (setAside which ref (s, p)).2.stepSkippedWaiting where
  config := popWaiting_config s which
  requests := popWaiting_requests s which
  nextRef := popWaiting_nextRef s which
  streaming := popWaiting_streaming s which
  ids ref' := by rw [show (setAside which ref (s, p)).1 = s.popWaiting which from rfl, popWaiting_objs]
  perm := by
    show ((s.popWaiting which).running ++ ((s.popWaiting which).waiting ++
      (s.popWaiting which).skippedWaiting ++ s.prependTo p.stepSkippedWaiting ref)).Perm _
    rw [popWaiting_running]
    refine List.Perm.append_left _ ?_
    refine ((RequestQueue.prependRequest_perm p.stepSkippedWaiting ref).append_left _).trans ?_
    exact List.perm_middle.trans ((popWaiting_perm h).append_right _)
  request ref' := by
    refine .inl ⟨?_, ?_⟩
    · rw [show (setAside which ref (s, p)).1 = s.popWaiting which from rfl, popWaiting_objs]
    · rw [show (setAside which ref (s, p)).1 = s.popWaiting which from rfl, popWaiting_running]

/-- Putting the requests that were set aside back. -/
lemma queueChange_requeueSkipped (s : Scheduler H K) (p : Pass) :
    QueueChange s p.stepSkippedWaiting (requeueSkipped (s, p)).1
      (requeueSkipped (s, p)).2.stepSkippedWaiting where
  config := rfl
  requests := rfl
  nextRef := rfl
  streaming := rfl
  ids _ := rfl
  perm := by
    show (s.running ++ (s.waiting ++ RequestQueue.prependRequests s.config.policy s.lt
      s.skippedWaiting p.stepSkippedWaiting ++ [])).Perm _
    rw [List.append_nil, allQueued, List.append_assoc]
    refine List.Perm.append_left _ (List.Perm.append_left _ ?_)
    exact (RequestQueue.prependRequests_perm _ _).trans List.perm_append_comm
  request _ := .inl ⟨rfl, .rfl⟩

variable [KvCache H K] {victim : Ref} {a : Admission}

omit [KvCache H K] in
/-- Nothing is set aside when a request is withdrawn. -/
lemma Withdrawal.aside {p' : Pass} (h : Withdrawal s p victim p') :
    p'.stepSkippedWaiting = p.stepSkippedWaiting := by
  cases h with
  | unscheduled _ | scheduled _ _ _ _ _ => rfl

/-- A preempted request moves to the waiting queue. -/
lemma queueChange_preempt {aside : List Ref} {i : ℕ} {drop : Bool}
    (hs : QueueInv s aside) (hvictim : s.running[i]? = some victim)
    (h : preemptRequest victim drop { s with running := s.running.eraseIdx i } = .ok () s') :
    QueueChange s aside s' aside := by
  have hstatus : (s.objs victim).status = .running := (preemptRequest_eq_ok h).1
  obtain ⟨k, d, e, rfl⟩ := preemptRequest_frame h
  obtain ⟨hlt, hget⟩ := List.getElem?_eq_some_iff.1 hvictim
  have hperm : (victim :: s.running.eraseIdx i).Perm s.running := by
    rw [← hget]
    exact List.getElem_cons_eraseIdx_perm hlt
  have hnodup : (victim :: s.running.eraseIdx i).Nodup :=
    hperm.nodup_iff.2 (List.nodup_append.1 hs.nodup).1
  refine QueueChange.move victim (·.preempt drop) rfl rfl ?_ ?_ rfl ?_ ?_ ?_ ?_
  · have hmove : (s.running.eraseIdx i ++ (RequestQueue.prependRequest s.config.policy
        ((s.modifyReq victim (·.preempt drop)).lt) s.waiting victim ++
          s.skippedWaiting ++ aside)).Perm
        (s.running.eraseIdx i ++ (victim :: s.waiting ++ s.skippedWaiting ++ aside)) :=
      List.Perm.append_left _ (((RequestQueue.prependRequest_perm _ _).append_right _).append_right _)
    refine hmove.trans ?_
    exact List.perm_middle.trans (hperm.append_right _)
  · exact List.mem_append_left _ (List.mem_of_getElem? hvictim)
  · rw [hstatus]
    exact nofun
  · exact nofun
  · refine iff_of_false nofun ?_
    exact (List.nodup_cons.1 hnodup).1
  · intro ref hne
    rw [← hperm.mem_iff, List.mem_cons]
    exact ⟨.inr, fun hmem => hmem.resolve_left hne⟩

omit [KvCache H K] in
/-- A request starts to load its blocks and is set aside. -/
lemma queueChange_enterLoading {k : K}
    (hs : QueueInv s p.stepSkippedWaiting) (h : s.frontWaiting = some (which, ref))
    (hstatus : isBlockedWaitingStatus (s.objs ref).status = false) :
    QueueChange s p.stepSkippedWaiting (enterLoading which ref a ({ s with kv := k }, p)).1
      (enterLoading which ref a ({ s with kv := k }, p)).2.stepSkippedWaiting := by
  have hpop := popWaiting_perm (s := { s with kv := k }) h
  refine QueueChange.move ref
    (fun r => { r with status := .waitingForRemoteKvs, numComputedTokens := a.numComputedTokens })
    ?_ rfl ?_ ?_ rfl ?_ ?_ ?_ ?_
  · simp [enterLoading, modifyReq]
  · show ((popWaiting _ which).running ++ ((popWaiting _ which).waiting ++
      (popWaiting _ which).skippedWaiting ++ RequestQueue.prependRequest _ _ _ ref)).Perm _
    rw [popWaiting_running]
    refine List.Perm.append_left _ ?_
    refine ((RequestQueue.prependRequest_perm p.stepSkippedWaiting ref).append_left _).trans ?_
    exact List.perm_middle.trans (hpop.append_right _)
  · exact mem_allQueued.2 (.inl (queued_of_frontWaiting h))
  · intro hstreaming
    rw [hstreaming] at hstatus
    cases hstatus
  · simp
  · refine iff_of_false (by simp) ?_
    show ref ∉ (popWaiting _ which).running
    rw [popWaiting_running]
    exact hs.front_not_running h
  · intro ref' _
    show ref' ∈ (popWaiting _ which).running ↔ _
    rw [popWaiting_running]

/-- A request moves from its waiting queue to the end of the running queue. -/
lemma queueChange_enterAdmitted {chunk : Chunk} {resumed : Bool} {k : K}
    (h : s.frontWaiting = some (which, ref))
    (hstatus : (s.objs ref).status = if resumed then .preempted else .waiting) :
    QueueChange s p.stepSkippedWaiting
      (enterAdmitted which ref a chunk resumed ({ s with kv := k }, p)).1
      (enterAdmitted which ref a chunk resumed ({ s with kv := k }, p)).2.stepSkippedWaiting := by
  have hpop := popWaiting_perm (s := { s with kv := k }) h
  refine QueueChange.move ref (·.setRunning a.numComputedTokens) ?_ rfl ?_ ?_ rfl ?_ ?_ ?_ ?_
  · simp [enterAdmitted, modifyReq]
  · show ((popWaiting _ which).running ++ [ref] ++ ((popWaiting _ which).waiting ++
      (popWaiting _ which).skippedWaiting ++ p.stepSkippedWaiting)).Perm _
    rw [popWaiting_running, List.append_assoc, List.singleton_append]
    refine List.Perm.append_left _ ?_
    exact hpop.append_right _
  · exact mem_allQueued.2 (.inl (queued_of_frontWaiting h))
  · intro hstreaming
    rw [hstreaming] at hstatus
    cases resumed with
    | true | false => cases hstatus
  · simp [Request.setRunning]
  · refine iff_of_true rfl ?_
    exact List.mem_append_right _ (List.mem_singleton.2 rfl)
  · intro ref' hne
    show ref' ∈ (popWaiting _ which).running ++ [ref] ↔ _
    rw [popWaiting_running, List.mem_append, List.mem_singleton]
    exact ⟨fun hmem => hmem.resolve_right hne, .inl⟩

omit [KvCache H K] in
/-- A blocked request that may go on stays where it is. -/
lemma queueChange_unblock {aside : List Ref} (f : Request H → Request H)
    (hs : QueueInv s aside) (h : s.frontWaiting = some (which, ref))
    (hframe : (s'.config, s'.requests, s'.nextRef, s'.numWaitingForStreamingInput, s'.objs) =
      (s.config, s.requests, s.nextRef, s.numWaitingForStreamingInput,
        Function.update s.objs ref (f (s.objs ref))))
    (hrunning : s'.running = s.running) (hqueued : s'.allQueued aside = s.allQueued aside)
    (hid : (f (s.objs ref)).requestId = (s.objs ref).requestId)
    (hold : (s.objs ref).status ≠ .waitingForStreamingReq)
    (hnew : (f (s.objs ref)).status = .waiting ∨ (f (s.objs ref)).status = .preempted) :
    QueueChange s aside s' aside := by
  have hwaits : (f (s.objs ref)).isFinished = false ∧
      (f (s.objs ref)).status ≠ .waitingForStreamingReq ∧ (f (s.objs ref)).status ≠ .running := by
    rw [Request.isFinished]
    rcases hnew with hnew | hnew
    · rw [hnew]
      decide
    · rw [hnew]
      decide
  refine QueueChange.move ref f hframe hid (by rw [hqueued])
    (mem_allQueued.2 (.inl (queued_of_frontWaiting h))) hwaits.1 hold hwaits.2.1 ?_ ?_
  · rw [hrunning]
    exact iff_of_false hwaits.2.2 (hs.front_not_running h)
  · intro ref' _
    rw [hrunning]

omit [KvCache H K] in
/-- A request whose load has ended waits, or is preempted if it was before. -/
lemma status_loadedRequest (failed : Bool) (r : Request H) :
    (loadedRequest failed r).status = .waiting ∨ (loadedRequest failed r).status = .preempted := by
  unfold loadedRequest
  dsimp only
  split
  · split
    · exact .inl rfl
    · exact .inr rfl
  · split
    · exact .inl rfl
    · exact .inr rfl

/-- Every action of `schedule` moves requests between the queues at most. -/
lemma PassStep.queueChange {inp : ScheduleInput H} {phase : Phase} {x y : Scheduler H K × Pass}
    (h : PassStep inp phase x y) (hx : QueueInv x.1 x.2.stepSkippedWaiting) :
    QueueChange x.1 x.2.stepSkippedWaiting y.1 y.2.stepSkippedWaiting := by
  have hframe : ∀ {s s' : Scheduler H K} {aside : List Ref}, QueueFrame s s' →
      QueueChange s aside s' aside := fun hframe => hframe.queueChange _
  cases h with
  | look _ _ | encode _ _ _ | dropInputs _ _ => exact hframe (.setEncoder _ _)
  | next _ | loras => exact hframe (.refl _)
  | refuse _ _ => exact hframe (.setKv _ _)
  | preempt _ hvictim _ hwithdrawal hpreempt =>
    have haside := hwithdrawal.aside
    rw [haside]
    exact queueChange_preempt hx hvictim hpreempt
  | @run s p ref n blocks k _ _ =>
    exact hframe ((QueueFrame.setKv s k).trans
      (QueueFrame.modifyReq { s with kv := k } ref (fun r => { r with specTokenIds := [] }) rfl rfl))
  | grammarFailed _ _ => exact hframe (.of_eq rfl)
  | grammarReady hfront hstatus =>
    refine queueChange_unblock (fun r => { r with status := .waiting }) hx hfront rfl rfl rfl rfl ?_
      (.inl rfl)
    rw [hstatus]
    exact nofun
  | loaded hfront hstatus _ hsettle =>
    obtain ⟨k, rfl⟩ := settleRemoteKv_frame hsettle
    refine queueChange_unblock (loadedRequest _) hx hfront rfl rfl rfl ?_ ?_
      (status_loadedRequest _ _)
    · exact congrArg (fun key => key.2.2) (queueKey_loadedRequest _ _)
    · rw [hstatus]
      exact nofun
  | skip hfront => exact queueChange_setAside hfront
  | @boundary s _ _ ref boundary _ _ =>
    exact hframe (QueueFrame.modifyReq s ref (fun r => { r with sharedPrefixBoundary := boundary })
      rfl rfl)
  | load hfront hstatus _ _ _ _ _ => exact queueChange_enterLoading hx hfront hstatus
  | admitted hfront _ hstatus _ _ _ _ _ => exact queueChange_enterAdmitted hfront hstatus

end Scheduler

end Lvllm
