import Lvllm.Sched.QueueRuns

/-!
# First come, first served

Under the FCFS policy the skipped and the waiting queue are one line, in which the skipped queue comes
first.  A call of `schedule` takes admitted requests out of the line and leaves the others in their
order: a request that is skipped goes through a temporary queue, which reverses the order twice.
-/

namespace Lvllm

open List RequestQueue

namespace Scheduler

variable {H K : Type} {s : Scheduler H K} {x y : Scheduler H K × Pass} {ref : Ref}
  {which : WaitingQueue} {before : List Ref}

/-- The line of waiting requests, with those that were set aside in front. -/
def line (x : Scheduler H K × Pass) : List Ref :=
  x.2.stepSkippedWaiting.reverse ++ (x.1.skippedWaiting ++ x.1.waiting)

/-- The request that the waiting loop looks at is the first of the two queues. -/
lemma frontWaiting_fcfs (hpolicy : s.config.policy = .fcfs)
    (h : s.frontWaiting = some (which, ref)) :
    s.skippedWaiting ++ s.waiting =
      ref :: ((s.popWaiting which).skippedWaiting ++ (s.popWaiting which).waiting) := by
  unfold frontWaiting selectWaitingQueue at h
  rw [hpolicy] at h
  cases hskipped : s.skippedWaiting with
  | cons first rest =>
    obtain ⟨rfl, rfl⟩ : WaitingQueue.skipped = which ∧ first = ref := by
      simpa [hskipped, queue] using h
    simp [popWaiting, popFrom, popRequest, hpolicy, hskipped]
  | nil =>
    cases hwaiting : s.waiting with
    | nil => simp [hskipped, hwaiting] at h
    | cons first rest =>
      obtain ⟨rfl, rfl⟩ : WaitingQueue.waiting = which ∧ first = ref := by
        simpa [hskipped, hwaiting, queue] using h
      simp [popWaiting, popFrom, popRequest, hpolicy, hskipped, hwaiting]

/-- While the running loop runs, preempted requests come to the front of the waiting queue. -/
def Preempting (s : Scheduler H K) (x : Scheduler H K × Pass) : Prop :=
  x.1.config.policy = .fcfs ∧ x.1.skippedWaiting = s.skippedWaiting ∧
    x.1.waiting = x.2.preemptedReqs.reverse ++ s.waiting ∧ x.2.stepSkippedWaiting = [] ∧
    x.2.scheduledNewReqs ++ x.2.scheduledResumedReqs = []

/-- While the waiting loop runs, the line is what was there before it without those admitted. -/
def InLine (before : List Ref) (x : Scheduler H K × Pass) : Prop :=
  x.1.config.policy = .fcfs ∧ x.2.preemptedReqs = [] ∧ (line x).Sublist before ∧
    before.Perm (line x ++ (x.2.scheduledNewReqs ++ x.2.scheduledResumedReqs))

variable [KvCache H K] {inp : ScheduleInput H}

lemma Preempting.step (hstep : PassStep inp .running x y) (h : Preempting s x) : Preempting s y := by
  cases hstep with
  | look _ _ | next _ | refuse _ _ | run _ _ | encode _ _ _ | loras => exact h
  | preempt _ _ _ hwithdrawal hpreempt =>
    obtain ⟨hpolicy, hskipped, hwaiting, haside⟩ := h
    obtain ⟨k, d, e, rfl⟩ := preemptRequest_frame hpreempt
    cases hwithdrawal with
    | unscheduled _ =>
      refine ⟨hpolicy, hskipped, ?_, haside⟩
      simp_all [toPreempted, modifyReq, prependTo, prependRequest]
    | scheduled hpriority => exact absurd (hpolicy.symm.trans hpriority) (by decide)

lemma InLine.step (hstep : PassStep inp .waiting x y) (h : InLine before x) : InLine before y := by
  cases hstep with
  | look _ _ | refuse _ _ | encode _ _ _ | grammarFailed _ _ | grammarReady _ _ | boundary _ _
  | dropInputs _ _ => exact h
  | loaded _ _ _ hsettle =>
    obtain ⟨k, rfl⟩ := settleRemoteKv_frame hsettle
    exact h
  | @skip s p which ref hfront =>
    obtain ⟨hpolicy, hrest⟩ := h
    have hline : line (setAside which ref (s, p)) = line (s, p) := by
      rw [line, line, frontWaiting_fcfs hpolicy hfront]
      simp_all [setAside, prependTo, prependRequest]
    refine ⟨?_, ?_⟩
    · exact (congrArg _ (popWaiting_config s which)).trans hpolicy
    · rw [hline]
      exact hrest
  | @load s p which ref a _ _ k _ hfront _ _ _ _ _ _ =>
    obtain ⟨hpolicy, hrest⟩ := h
    have hline : line (enterLoading which ref a ({ s with kv := k }, p)) = line (s, p) := by
      rw [line, line, frontWaiting_fcfs hpolicy hfront]
      cases which <;>
        simp_all [enterLoading, modifyReq, popWaiting, popFrom, prependTo, popRequest,
          prependRequest]
    refine ⟨?_, ?_⟩
    · simpa [enterLoading, modifyReq] using hpolicy
    · rw [hline]
      exact hrest
  | @admitted s p which ref a _ chunk _ k resumed hfront _ _ _ _ _ _ _ =>
    obtain ⟨hpolicy, hpreempted, horder, hadmitted⟩ := h
    rw [line, frontWaiting_fcfs hpolicy hfront] at horder hadmitted
    have hline : line (enterAdmitted which ref a chunk resumed ({ s with kv := k }, p)) =
        p.stepSkippedWaiting.reverse ++
          ((s.popWaiting which).skippedWaiting ++ (s.popWaiting which).waiting) := by
      cases which <;> rfl
    refine ⟨?_, hpreempted, ?_, hadmitted.trans ?_⟩
    · simpa [enterAdmitted, modifyReq] using hpolicy
    · rw [hline]
      exact (List.Sublist.append_left (sublist_cons_self _ _) _).trans horder
    · rw [hline]
      refine (perm_middle.append_right _).trans ?_
      refine perm_middle.symm.trans (List.Perm.append_left _ ?_)
      cases resumed with
      | true =>
        show (ref :: (p.scheduledNewReqs ++ p.scheduledResumedReqs)).Perm
          (p.scheduledNewReqs ++ (p.scheduledResumedReqs ++ [ref]))
        rw [← append_assoc]
        exact (perm_append_singleton _ _).symm
      | false => exact (perm_append_singleton ref p.scheduledNewReqs).symm.append_right _

end Scheduler

namespace Engine

open Scheduler

variable {H K : Type} [KvCache H K] [DecidableEq H]

/-- **First come, first served.**  A call of `schedule` that preempts nothing takes the admitted
requests out of the line, which is the skipped queue and then the waiting queue, and leaves the others
in their order.  A call that preempts puts the preempted requests in front of the waiting queue, the
last one first, and changes nothing else in the line. -/
theorem fcfs_order_is_kept {e : Engine H K} (h : Reachable (fun _ _ => True) e)
    (hpolicy : e.sched.config.policy = .fcfs) (inp : ScheduleInput H) (out : SchedulerOutput) (p : Pass)
    (s : Scheduler H K) (hrun : schedule inp e.sched = .ok (out, p) s) :
    (p.preemptedReqs = [] → (s.skippedWaiting ++ s.waiting).Sublist
        (e.sched.skippedWaiting ++ e.sched.waiting) ∧
      (e.sched.skippedWaiting ++ e.sched.waiting).Perm (s.skippedWaiting ++ s.waiting ++
        (p.scheduledNewReqs ++ p.scheduledResumedReqs))) ∧
    (p.preemptedReqs ≠ [] → s.skippedWaiting = e.sched.skippedWaiting ∧
      s.waiting = p.preemptedReqs.reverse ++ e.sched.waiting) := by
  obtain ⟨s1, hpass, -, hend⟩ := schedule_eq_ok hrun
  have hkept := schedulePass_keepsQueues hpass h.queueInv.1
  have hend := hend hkept.queueInv.distinctRefs
  rw [hend.skippedWaiting, hend.waiting]
  obtain ⟨⟨s2, p2⟩, hrunning, hphase⟩ := schedulePass_phases hpass
  obtain ⟨hfcfs, hskipped, hwaiting, haside, hnone⟩ := PassSteps.invariant (I := Preempting e.sched)
    (fun x y => Preempting.step) hrunning ⟨hpolicy, rfl, rfl, rfl, rfl⟩
  rcases hphase with hlast | ⟨hpreempted, ⟨s3, p3⟩, hloop, hlast⟩
  · obtain ⟨rfl, rfl⟩ := Prod.mk.inj hlast
    refine ⟨fun hpreempted => ?_, fun _ => ⟨hskipped, hwaiting⟩⟩
    rw [hskipped, hwaiting, hnone, hpreempted, append_nil]
    exact ⟨.refl _, .refl _⟩
  · have hline : line (s2, p2) = e.sched.skippedWaiting ++ e.sched.waiting := by
      rw [line, haside, hskipped, hwaiting, hpreempted]
      rfl
    have hfirst : InLine (line (s2, p2)) (s2, p2) := by
      refine ⟨hfcfs, hpreempted, .refl _, ?_⟩
      rw [hnone, append_nil]
    obtain ⟨hfcfs3, hpreempted3, hkeeps⟩ :=
      PassSteps.invariant (fun x y => InLine.step) hloop hfirst
    obtain ⟨rfl, rfl⟩ := Prod.mk.inj hlast
    -- Putting the requests back reverses the temporary queue once more.
    have hback : prependRequests s3.config.policy s3.lt s3.skippedWaiting
        p3.stepSkippedWaiting ++ s3.waiting = line (s3, p3) := by
      rw [hfcfs3, line, ← append_assoc]
      congr 1
      exact foldl_flip_cons_eq_append' ..
    rw [hline, ← hback] at hkeeps
    exact ⟨fun _ => hkeeps, fun hne => absurd hpreempted3 hne⟩

/-- A session waits for its next input while the request behind it is admitted. -/
theorem session_keeps_its_place :
    ∃ (e : Engine FreeHash (KVCacheManager FreeHash)) (out : SchedulerOutput) (p : Pass)
      (s : Scheduler FreeHash (KVCacheManager FreeHash)), Reachable (fun _ _ => True) e ∧
      e.sched.config.policy = .fcfs ∧ schedule {} e.sched = .ok (out, p) s ∧
      [0, 1].Perm (s.skippedWaiting ++ s.waiting ++ [1]) := by
  obtain ⟨e, hreach, hpolicy, hline, ⟨out, p⟩, s, hrun, hnone, hadmitted⟩ :=
    exists_reachable_small 8 (smallConfig true) (fun _ _ => True)
    [textCall "a" [1, 2] 1 true, .schedule {}, sampleAll [9], textCall "b" [3, 4] 5 false]
    (fun e => e.sched.config.policy = .fcfs ∧ e.sched.skippedWaiting ++ e.sched.waiting = [0, 1] ∧
      ∃ result s, schedule {} e.sched = .ok result s ∧ result.2.preemptedReqs = [] ∧
        result.2.scheduledNewReqs ++ result.2.scheduledResumedReqs = [1]) (by decide +kernel)
  have hperm := ((fcfs_order_is_kept hreach hpolicy {} out p s hrun).1 hnone).2
  rw [hline, hadmitted] at hperm
  exact ⟨e, out, p, s, hreach, hpolicy, hrun, hperm⟩

end Engine

end Lvllm
