import Lvllm.KVCache.KvRuns
import Lvllm.Sched.QueueUpdates

/-!
# The queues over whole runs

`QueueInv` holds in every state that calls of the scheduler lead to.  `Complete`, that no request is
missing from the queues, is lost in one place: the loop of `update_from_output` takes a stopped request
that was not running out of both waiting queues, and if it is a session that goes on, it has been put
there just before.  `no_request_lost` holds of the runs in which no session gets a stopping token while
it is not running, and
`session_lost_after_preemption` is a run with one.
-/

namespace Lvllm

open List Nat Request Dict

variable {H K : Type} {r : Request H} {ref : Ref}

namespace Scheduler

variable {s s' : Scheduler H K} {reqId : String} {inp : ScheduleInput H} {out : SchedulerOutput}
  {mro : ModelRunnerOutput}

/-- A finished request that leaves the table is in no queue. -/
lemma KeepsQueues.of_erase (href : s.requests.get? reqId = some ref)
    (hfinished : (s.objs ref).isFinished = true) (hbooks : SameBooks s s') :
    KeepsQueues s { s' with requests := s.requests.erase (s.objs ref).requestId } := by
  intro hs
  have hid := (hs.tracked reqId ref href).1
  rw [hid]
  have hqueued : ({ s' with requests := s.requests.erase reqId } : Scheduler H K).allQueued [] =
      s.allQueued [] := by
    simp only [allQueued, hbooks.running, hbooks.waiting, hbooks.skippedWaiting]
  have htouch : Touches [ref] s { s' with requests := s.requests.erase reqId } := by
    refine ⟨hbooks.nextRef, fun r => congrArg (fun objs => (objs r).requestId) hbooks.objs,
      fun r _ => congrArg (fun objs => (objs r).status) hbooks.objs, fun _ _ => get?_of_erase,
      fun reqId' r hr hget => ?_, fun r _ => by rw [hbooks.running], fun r _ => by rw [hqueued],
      by rw [hqueued]; exact hs.nodup⟩
    rw [get?_erase_ne]
    · exact hget
    · rintro rfl
      rw [href] at hget
      cases hget
      exact hr mem_cons_self
  have huntracked : ∀ r ∈ [ref], ∀ reqId', (s.requests.erase reqId).get? reqId' ≠ some r := by
    intro r hr reqId' hget
    obtain rfl : r = ref := mem_singleton.1 hr
    have hold := htouch.tracked reqId' r hget
    have heq : reqId' = reqId := by rw [← (hs.tracked reqId' r hold).1, hid]
    rw [heq, get?_erase_self] at hget
    cases hget
  refine ⟨hbooks.config, hs.touch htouch ?_ ?_ ?_, fun hcomplete => hcomplete.touch htouch ?_,
    fun hle => ?_⟩
  · intro r hr hmem
    rw [hqueued, mem_singleton.1 hr] at hmem
    have hunfinished := (hs.queued ref hmem).2
    rw [hfinished] at hunfinished
    cases hunfinished
  · exact fun r hr reqId' hget => absurd hget (huntracked r hr reqId')
  · have hcount := numStreaming_le htouch.nextRef fun r hr =>
      (congrArg (fun objs => (objs r).status) hbooks.objs).symm.trans hr
    exact (cast_le.2 hcount).trans (hs.streaming.trans_eq hbooks.streaming.symm)
  · exact fun r hr reqId' hget => absurd hget (huntracked r hr reqId')
  · rw [hbooks.running]
    exact hle

variable [KvCache H K] {p : Pass} {ids : List ℕ} {scheduled : Dict String ℕ} {refs : List Ref}
  {failed : List String}

/-! ## `schedule` -/

/-- No request is left aside at the end of a call. -/
lemma schedulePass_aside (h : schedulePass inp s = .ok p s') : p.stepSkippedWaiting = [] := by
  obtain ⟨mid, hrunning, hend⟩ := schedulePass_phases h
  rcases hend with rfl | ⟨-, z, -, hend⟩
  · -- Only the second loop sets requests aside.
    refine PassSteps.invariant (I := fun x => x.2.stepSkippedWaiting = []) ?_ hrunning rfl
    intro x y hstep hx
    cases hstep with
    | look _ _ | next _ | refuse _ _ | run _ _ | encode _ _ _ | loras => exact hx
    | preempt _ _ _ hwithdrawal _ => exact hwithdrawal.aside.trans hx
  · exact congrArg (fun x => x.2.stepSkippedWaiting) hend

/-- An action of `schedule` lets a request run only if there is room. -/
lemma PassStep.bounded {phase : Phase} {x y : Scheduler H K × Pass} (h : PassStep inp phase x y)
    (hx : QueueInv x.1 x.2.stepSkippedWaiting)
    (hle : x.1.running.length ≤ x.1.config.maxNumRunningReqs) :
    y.1.running.length ≤ x.1.config.maxNumRunningReqs := by
  cases h with
  | look _ _ | next _ | refuse _ _ | run _ _ | encode _ _ _ | loras | grammarFailed _ _
  | grammarReady _ _ | boundary _ _ | dropInputs _ _ => exact hle
  | preempt _ _ _ _ hpreempt =>
    obtain ⟨k, d, e, rfl⟩ := preemptRequest_frame hpreempt
    exact (eraseIdx_sublist _ _).length_le.trans hle
  | loaded _ _ _ hsettle =>
    obtain ⟨k, rfl⟩ := settleRemoteKv_frame hsettle
    exact hle
  | skip _ =>
    dsimp only [setAside]
    rwa [popWaiting_running]
  | @load s p which ref a _ _ k _ _ _ _ _ _ _ _ =>
    show (popWaiting { s with kv := k } which).running.length ≤ _
    rwa [popWaiting_running]
  | @admitted s p which ref a _ _ _ k _ _ hcan _ _ _ _ _ _ =>
    show ((popWaiting { s with kv := k } which).running ++ [ref]).length ≤ _
    rw [popWaiting_running, length_append, length_singleton]
    simp only [canAdmit, Bool.and_eq_true, decide_eq_true_eq] at hcan
    have hstreaming := hx.streaming
    dsimp only at hstreaming ⊢
    omega

lemma schedulePass_keepsQueues (h : schedulePass inp s = .ok p s') : KeepsQueues s s' := by
  intro hs
  have hinv := schedulePass_invariant
    (I := fun x => x.1.config = s.config ∧ QueueInv x.1 x.2.stepSkippedWaiting ∧
      (Complete s [] → Complete x.1 x.2.stepSkippedWaiting) ∧
      (s.running.length ≤ s.config.maxNumRunningReqs →
        x.1.running.length ≤ s.config.maxNumRunningReqs)) ?_ ?_ ?_ h
  · rw [schedulePass_aside h] at hinv
    exact ⟨hinv.1, hinv.2.1, hinv.2.2.1, hinv.2.2.2⟩
  · rintro phase x y hstep ⟨hconfig, hx, hcomplete, hbounded⟩
    have hchange := hstep.queueChange hx
    refine ⟨hchange.config.trans hconfig, hchange.queueInv hx,
      fun hc => hchange.complete (hcomplete hc), fun hle => ?_⟩
    rw [← hconfig]
    refine hstep.bounded hx ?_
    rw [hconfig]
    exact hbounded hle
  · rintro ⟨s1, p1⟩ ⟨hconfig, hx, hcomplete, hbounded⟩
    have hchange := queueChange_requeueSkipped s1 p1
    exact ⟨hconfig, hchange.queueInv hx, fun hc => hchange.complete (hcomplete hc), hbounded⟩
  · have hframe : QueueFrame s s.startStep := .of_eq rfl
    have hkept := KeepsQueues.of_frame hframe hs
    exact ⟨rfl, hkept.queueInv, hkept.complete, hkept.bounded⟩

omit [KvCache H K] in
lemma afterSchedule_frame (r : Request H) (c : SchedulerConfig H) (seq step n k : ℕ)
    (drafts : List Token) :
    (r.afterSchedule c seq step n k drafts).requestId = r.requestId ∧
      (r.afterSchedule c seq step n k drafts).status = r.status := by
  unfold afterSchedule
  generalize (if c.deferBlockFree then some seq else none) = seq
  dsimp only
  split
  · exact ⟨rfl, rfl⟩
  · exact ⟨rfl, rfl⟩

omit [KvCache H K] in
/-- The requests of a step keep their ids and statuses when the counters advance. -/
lemma ScheduleEnd.queueFrame (h : ScheduleEnd p out s s') : QueueFrame s s' := by
  have hsame : ∀ ref, (s'.objs ref).requestId = (s.objs ref).requestId ∧
      (s'.objs ref).status = (s.objs ref).status := by
    intro ref
    by_cases hlisted : ∃ x ∈ p.numScheduledTokens.entries, s.requests.get? x.1 = some ref
    · obtain ⟨x, hx, hget⟩ := hlisted
      rw [h.listed x hx ref hget]
      exact afterSchedule_frame _ _ _ _ _ _ _
    · rw [h.others ref fun x hx hget => hlisted ⟨x, hx, hget⟩]
      exact ⟨rfl, rfl⟩
  exact { h with ids := fun ref => (hsame ref).1, statuses := fun ref => (hsame ref).2 }

lemma schedule_keepsQueues (h : schedule inp s = .ok (out, p) s') : KeepsQueues s s' := by
  obtain ⟨s1, hpass, -, hend⟩ := schedule_eq_ok h
  intro hs
  have hkeeps := schedulePass_keepsQueues hpass
  exact hkeeps.trans (.of_frame (hend (hkeeps hs).queueInv.distinctRefs).queueFrame) hs

/-! ## `reset_prefix_cache` -/

lemma preemptAll_keepsQueues {fuel : ℕ} (h : preemptAll fuel s = .ok () s') : KeepsQueues s s' := by
  induction fuel generalizing s with
  | zero =>
    cases h
    exact .refl _
  | succ fuel ih =>
    rw [preemptAll, bind_get] at h
    cases hlast : s.running.getLast? with
    | none =>
      rw [hlast] at h
      cases h
      exact .refl _
    | some victim =>
      rw [hlast] at h
      dsimp only at h
      rw [bind_ok (set_apply _ _)] at h
      obtain ⟨_, s1, hpreempt, hthen⟩ := bind_eq_ok.1 h
      rw [← eraseIdx_length_sub_one] at hpreempt
      rw [getLast?_eq_getElem?] at hlast
      refine KeepsQueues.trans (.of_change (fun hs => ?_) ?_) (ih hthen)
      · exact queueChange_preempt hs hlast hpreempt
      · obtain ⟨k, d, e, rfl⟩ := preemptRequest_frame hpreempt
        exact (eraseIdx_sublist _ _).length_le

lemma resetPrefixCache_keepsQueues {flag : Bool} {res : Bool}
    (h : resetPrefixCache flag s = .ok res s') : KeepsQueues s s' := by
  have hkv : ∀ (s : Scheduler H K) (k : K), KeepsQueues s { s with kv := k } :=
    fun s k => .of_frame (.setKv s k)
  rw [resetPrefixCache, bind_get] at h
  split at h
  · obtain ⟨_, s1, hpreempt, h1⟩ := bind_eq_ok.1 h
    rw [bind_modify] at h1
    obtain ⟨done, s2, hreset, h2⟩ := bind_eq_ok.1 h1
    obtain ⟨k, -, rfl⟩ := onKv_eq_ok.1 hreset
    have hframe : QueueFrame s1 { s1 with prevStepScheduledReqIds := [], kv := k } := .of_eq rfl
    cases done with
    | false => cases h2
    | true =>
      cases h2
      exact (preemptAll_keepsQueues hpreempt).trans (.of_frame hframe)
  · obtain ⟨k, -, rfl⟩ := onKv_eq_ok.1 h
    exact hkv s k

/-! ## `add_request` -/

section

omit [KvCache H K]

/-- A new request waits, possibly for its grammar. -/
lemma status_of_fromEngineCoreRequest [DecidableEq H] {bh : Option (BlockHasher H)}
    {e : EngineCoreRequest} (h : fromEngineCoreRequest bh e = .ok r) :
    r.status = .waiting ∨ r.status = .waitingForStructuredOutputGrammar := by
  have hstatus : ∀ r' : Request H, (updateBlockHashes bh r').status = r'.status := by
    intro r'
    unfold updateBlockHashes
    split
    · rfl
    · rfl
  -- The parameters give the status, then the prompt is measured.
  have hrest : ∀ {status : RequestStatus} {maxTokens : ℕ},
      (lengthFromPromptTokenIdsOrEmbeds e.promptTokenIds e.promptEmbeds >>= fun n =>
        pure (updateBlockHashes bh (unhashed e maxTokens n status))) = .ok r →
      r.status = status := by
    intro status maxTokens hmeasure
    obtain ⟨n, -, hend⟩ := except_bind_eq_ok.1 hmeasure
    cases hend
    exact hstatus _
  unfold fromEngineCoreRequest at h
  cases hpooling : e.poolingParams with
  | some pooling =>
    simp only [hpooling, pure_bind] at h
    exact .inl (hrest h)
  | none =>
    cases hsampling : e.samplingParams with
    | none =>
      simp only [hpooling, hsampling] at h
      obtain ⟨x, hx, -⟩ := except_bind_eq_ok.1 h
      cases hx
    | some sampling =>
      simp only [hpooling, hsampling, pure_bind] at h
      rw [hrest h]
      split
      · exact .inr rfl
      · exact .inl rfl

/-- A new request object stands in a waiting queue under its own id. -/
lemma enterRequest_keepsQueues (hnew : s.requests.get? r.requestId = none)
    (hstatus : r.status = .waiting ∨ r.status = .waitingForStructuredOutputGrammar) :
    KeepsQueues s (s.enterRequest r) := by
  obtain ⟨r', hr'⟩ : ∃ r' : Request H,
    r' = if r.resumable then { r with streamingQueue := some [] } else r := ⟨_, rfl⟩
  have hid : r'.requestId = r.requestId := by
    rw [hr']
    split
    · rfl
    · rfl
  have hstatus' : r'.status = r.status := by
    rw [hr']
    split
    · rfl
    · rfl
  have hwaits : r'.isFinished = false ∧ r'.status ≠ .running ∧
      r'.status ≠ .waitingForStreamingReq := by
    rw [isFinished, hstatus']
    rcases hstatus with hstatus | hstatus
    · rw [hstatus]
      decide
    · rw [hstatus]
      decide
  obtain ⟨waiting, skipped, henqueue, hplace⟩ := enqueueWaitingRequest_eq
    { s with objs := Function.update s.objs s.nextRef r', nextRef := s.nextRef + 1 } s.nextRef
  let s' : Scheduler H K := { s with
    objs := Function.update s.objs s.nextRef r', nextRef := s.nextRef + 1, waiting := waiting,
    skippedWaiting := skipped, requests := s.requests.set r.requestId s.nextRef }
  have henter : s.enterRequest r = s' := by
    rw [enterRequest, ← hr', henqueue, hid]
  rw [henter]
  intro hs
  have hself : s'.objs s.nextRef = r' := Function.update_self _ _ _
  have hothers : ∀ ref, ref < s.nextRef → s'.objs ref = s.objs ref := fun ref hlt =>
    Function.update_of_ne (Nat.ne_of_lt hlt) _ _
  have hrequests : s'.requests = s.requests.set r.requestId s.nextRef := rfl
  have hperm : (s'.allQueued []).Perm (s.nextRef :: s.allQueued []) := perm_cons_enqueued hplace
  have hbelow : ∀ ref ∈ s.allQueued [], ref < s.nextRef :=
    fun ref hmem => (hs.tracked _ ref (hs.queued ref hmem).1).2
  have hrunning : s'.running = s.running := rfl
  have hget : ∀ reqId ref, s'.requests.get? reqId = some ref →
      reqId = r.requestId ∧ ref = s.nextRef ∨ s.requests.get? reqId = some ref := by
    intro reqId ref hget
    rw [hrequests] at hget
    by_cases heq : reqId = r.requestId
    · rw [heq, get?_set_self] at hget
      cases hget
      exact .inl ⟨heq, rfl⟩
    · rw [get?_set_ne _ heq] at hget
      exact .inr hget
  have hnext : s'.nextRef = s.nextRef + 1 := rfl
  refine ⟨rfl, ⟨?_, ?_, ?_, ?_, ?_⟩, ?_, fun hle => by rwa [hrunning]⟩
  · intro reqId ref href
    rw [hnext]
    rcases hget reqId ref href with ⟨rfl, rfl⟩ | hold
    · rw [hself, hid]
      exact ⟨rfl, lt_succ_self _⟩
    · obtain ⟨hreqId, hlt⟩ := hs.tracked reqId ref hold
      rw [hothers ref hlt]
      exact ⟨hreqId, lt_succ_of_lt hlt⟩
  · refine hperm.nodup_iff.2 (nodup_cons.2 ⟨?_, hs.nodup⟩)
    exact fun hmem => lt_irrefl _ (hbelow _ hmem)
  · intro ref hmem
    rcases mem_cons.1 (hperm.mem_iff.1 hmem) with rfl | hmem
    · rw [hself, hid, hrequests, get?_set_self]
      exact ⟨rfl, hwaits.1⟩
    · obtain ⟨hold, hfinished⟩ := hs.queued ref hmem
      rw [hothers ref (hbelow ref hmem), hrequests, get?_set_ne]
      · exact ⟨hold, hfinished⟩
      · intro heq
        rw [heq, hnew] at hold
        cases hold
  · intro reqId ref href
    rw [hrunning]
    rcases hget reqId ref href with ⟨rfl, rfl⟩ | hold
    · rw [hself]
      refine iff_of_false hwaits.2.1 fun hmem => ?_
      exact lt_irrefl _ (hbelow _ (mem_append_left _ hmem))
    · rw [hothers ref (hs.tracked reqId ref hold).2]
      exact hs.running_iff reqId ref hold
  · have hcount : s'.numStreaming = s.numStreaming := by
      unfold numStreaming
      rw [hnext, range_succ, countP_append, countP_singleton, hself,
        if_neg (by simpa using hwaits.2.2), add_zero]
      refine countP_congr fun ref hmem => ?_
      rw [hothers ref (mem_range.1 hmem)]
    rw [hcount]
    exact hs.streaming
  · intro hcomplete reqId ref href hfinished
    refine hperm.mem_iff.2 ?_
    rcases hget reqId ref href with ⟨-, rfl⟩ | hold
    · exact mem_cons_self
    · rw [hothers ref (hs.tracked reqId ref hold).2] at hfinished
      exact mem_cons_of_mem _ (hcomplete reqId ref hold hfinished)

/-- A session that waited for its next input waits for its turn. -/
lemma updateRequestAsSession_keepsQueues [DecidableEq H] {update : StreamingUpdate}
    (href : s.requests.get? reqId = some ref)
    (hstatus : (s.objs ref).status = .waitingForStreamingReq)
    (h : updateRequestAsSession ref update s = .ok () s') : KeepsQueues s s' := by
  rw [updateRequestAsSession, bind_get] at h
  obtain ⟨r', s1, hlift, h1⟩ := bind_eq_ok.1 h
  obtain ⟨hupdate, hs1⟩ := liftPy_eq_ok.1 hlift
  rw [hs1] at h1
  obtain ⟨hid, hnew⟩ := updateAsSession_frame hupdate
  rw [modify_apply, hstatus, if_pos rfl] at h1
  cases h1
  intro hs
  have hset := SetsRequest.of_modifyReq s ref fun _ => r'
  have hne : ∀ r, r ∉ [ref] → r ≠ ref := fun r hr heq => hr (mem_singleton.2 heq)
  have htouch : Touches [ref] s { s.modifyReq ref fun _ => r' with
      numWaitingForStreamingInput := s.numWaitingForStreamingInput - 1 } :=
    ⟨rfl, hset.ids hid, fun r hr => congrArg status (hset.others r (hne r hr)),
      fun _ _ => id, fun _ _ _ => id, fun _ _ => .rfl, fun _ _ => .rfl, hs.nodup⟩
  refine ⟨rfl, hs.touch htouch ?_ ?_ ?_, fun hcomplete => hcomplete.touch htouch ?_, id⟩
  · intro r hr hmem
    obtain rfl : r = ref := mem_singleton.1 hr
    rw [htouch.ids, isFinished]
    refine ⟨(hs.queued r hmem).1, ?_⟩
    rw [show _ = r' from hset.self, hnew]
    rfl
  · intro r hr reqId' hget
    obtain rfl : r = ref := mem_singleton.1 hr
    rw [show _ = r' from hset.self, hnew]
    exact (by decide : _ ↔ RequestStatus.waitingForStreamingReq = .running).trans
      (hstatus ▸ hs.running_iff reqId' r hget)
  · have hcount := numStreaming_add_le htouch.nextRef (nodup_singleton ref) (fun r hr => by
        rw [mem_singleton.1 hr]
        exact (hs.tracked reqId ref href).2)
      (fun r hr => by
        rw [mem_singleton.1 hr, show _ = r' from hset.self, hnew]
        decide)
      (fun r hr hwait => (htouch.statuses r hr).symm.trans hwait)
    rw [countP_singleton, if_pos (decide_eq_true hstatus)] at hcount
    have hstreaming := hs.streaming
    dsimp only at hcount ⊢
    omega
  · intro r hr reqId' hget _
    obtain rfl : r = ref := mem_singleton.1 hr
    refine hcomplete reqId' r hget ?_
    rw [isFinished, hstatus]
    rfl

end

lemma addRequest_keepsQueues [DecidableEq H] {delay : String → Bool}
    (hstatus : r.status = .waiting ∨ r.status = .waitingForStructuredOutputGrammar)
    (h : addRequest delay r s = .ok () s') : KeepsQueues s s' := by
  rw [addRequest, bind_get] at h
  cases hget : s.requests.get? r.requestId with
  | none =>
    rw [hget] at h
    cases h
    exact enterRequest_keepsQueues hget hstatus
  | some existing =>
    rw [hget] at h
    dsimp only at h
    split at h
    · cases hqueue : (s.objs existing).streamingQueue with
      | none =>
        rw [hqueue] at h
        cases h
      | some queue =>
        rw [hqueue] at h
        cases h
        exact .of_frame (.modifyReq s existing _ rfl rfl)
    · rename_i hwaits
      cases hupdate : StreamingUpdate.fromRequest r with
      | some update =>
        rw [hupdate] at h
        exact updateRequestAsSession_keepsQueues hget (not_not.1 hwaits) h
      | none =>
        rw [hupdate] at h
        obtain ⟨refs, s1, hfinish, hend⟩ := bind_eq_ok.1 h
        cases hend
        exact finishRequests_keepsQueues hfinish

omit [KvCache H K] in
lemma updateDraftTokenIds_keepsQueues (s : Scheduler H K) (reqId : String) (drafts : List Token) :
    KeepsQueues s (s.updateDraftTokenIds reqId drafts) := by
  unfold updateDraftTokenIds
  split
  · exact .refl s
  · split
    · exact .refl s
    · exact .of_frame (.modifyReq s _ _ rfl rfl)

/-! ## `update_from_output` -/

/-- Nothing but the computed tokens of requests changes, of the queues and the requests. -/
structure RequestFrame (s s' : Scheduler H K) : Prop extends QueueFrame s s' where
  objs : ∀ ref, ∃ n, s'.objs ref = { s.objs ref with numComputedTokens := n }

namespace RequestFrame

variable {s'' : Scheduler H K}

omit [KvCache H K]

lemma of_queueFrame (h : QueueFrame s s') (hobjs : s'.objs = s.objs) : RequestFrame s s' :=
  ⟨h, fun ref => ⟨(s.objs ref).numComputedTokens, by rw [hobjs]⟩⟩

lemma refl (s : Scheduler H K) : RequestFrame s s := .of_queueFrame (.refl s) rfl

lemma trans (h : RequestFrame s s') (h' : RequestFrame s' s'') : RequestFrame s s'' := by
  refine ⟨h.toQueueFrame.trans h'.toQueueFrame, fun ref => ?_⟩
  obtain ⟨_, heq⟩ := h.objs ref
  obtain ⟨n, heq'⟩ := h'.objs ref
  exact ⟨n, by rw [heq', heq]⟩

lemma setComputed (s : Scheduler H K) (ref : Ref) (n : ℕ) :
    RequestFrame s (s.modifyReq ref fun r => { r with numComputedTokens := n }) := by
  refine ⟨.modifyReq s ref _ rfl rfl, fun ref' => ?_⟩
  by_cases heq : ref' = ref
  · subst heq
    exact ⟨n, modifyReq_objs_self ..⟩
  · exact ⟨(s.objs ref').numComputedTokens, by rw [modifyReq_objs_of_ne _ heq]⟩

lemma keepsSessions (h : RequestFrame s s') {reqIds : List String}
    (hkept : s.KeepsSessions mro reqIds) : s'.KeepsSessions mro reqIds := by
  intro reqId hmem ref hget
  rw [h.requests] at hget
  obtain ⟨n, heq⟩ := h.objs ref
  rintro ⟨hstatus, hunfinished, hdelivered, hgoes, generated, hgenerated, hstops⟩
  rw [heq] at hstatus hunfinished hdelivered hgoes hstops
  rw [h.config] at hstops
  exact hkept reqId hmem ref hget ⟨hstatus, hunfinished, hdelivered, hgoes, generated, hgenerated,
    (stopsOn_congr (by rfl) _ _).trans hstops⟩

end RequestFrame

lemma updateRequestWithInvalidBlocks_frame {acc acc' : InvalidScan}
    (h : updateRequestWithInvalidBlocks ids scheduled acc ref s = .ok acc' s') :
    RequestFrame s s' := by
  rw [updateRequestWithInvalidBlocks, bind_get] at h
  rcases hblocks : KvCache.getBlocks s.kv (s.objs ref).requestId with _ | ⟨blocks, _ | ⟨_, _⟩⟩
  · rw [hblocks] at h
    cases h
  · rw [hblocks] at h
    dsimp only at h
    generalize List.foldl (BlockScan.step ids) _ _ = scan at h
    rcases hfirst : scan.firstMarked with _ | idx
    · rw [hfirst] at h
      cases haffected : scan.isAffected with
      | true =>
        rw [haffected] at h
        cases h
        exact .setComputed s ref _
      | false =>
        rw [haffected] at h
        cases h
        exact .refl _
    · rw [hfirst] at h
      cases h
      exact .setComputed s ref _
  · rw [hblocks] at h
    cases h

lemma updateRequestsWithInvalidBlocks_frame {acc acc' : InvalidScan}
    (h : updateRequestsWithInvalidBlocks ids scheduled refs acc s = .ok acc' s') :
    RequestFrame s s' := by
  induction refs generalizing s acc with
  | nil =>
    cases h
    exact .refl _
  | cons ref refs ih =>
    obtain ⟨acc1, s1, hfirst, hrest⟩ := bind_eq_ok.1 h
    exact (updateRequestWithInvalidBlocks_frame hfirst).trans (ih hrest)

lemma failedLoads_frame (h : failedLoads out mro s = .ok failed s') : RequestFrame s s' := by
  unfold failedLoads at h
  split at h
  · cases h
    exact .refl _
  · rw [handleInvalidBlocks, bind_get] at h
    obtain ⟨asyncFailed, s1, hasync, h1⟩ := bind_eq_ok.1 h
    obtain ⟨syncFailed, s2, hsync, h2⟩ := bind_eq_ok.1 h1
    obtain ⟨_, s3, hevict, h3⟩ := bind_eq_ok.1 h2
    have hevictFrame : RequestFrame s2 s3 := by
      rw [evictInvalid, bind_get] at hevict
      split at hevict
      · cases hevict
        exact .refl _
      · obtain ⟨k, -, rfl⟩ := onKv_eq_ok.1 hevict
        exact .of_queueFrame (.setKv s2 k) rfl
    have hframe := ((updateRequestsWithInvalidBlocks_frame hasync).trans
      (updateRequestsWithInvalidBlocks_frame hsync)).trans hevictFrame
    split at h3
    · cases h3
      exact hframe.trans (.of_queueFrame (.of_eq rfl) rfl)
    · cases h3
      exact hframe

lemma drainDeferredFrees_frame {entries : List (ℕ × List ℕ)}
    (h : drainDeferredFrees entries s = .ok () s') : RequestFrame s s' := by
  induction entries generalizing s with
  | nil =>
    cases h
    exact .of_queueFrame (.of_eq rfl) rfl
  | cons entry entries ih =>
    rw [drainDeferredFrees, bind_get] at h
    split at h
    · cases h
      exact .of_queueFrame (.of_eq rfl) rfl
    · obtain ⟨_, s1, hfree, hrest⟩ := bind_eq_ok.1 h
      obtain ⟨k, -, rfl⟩ := onKv_eq_ok.1 hfree
      exact (RequestFrame.of_queueFrame (.setKv s k) rfl).trans (ih hrest)

lemma processStep_frame (h : processStep out s = .ok () s') : RequestFrame s s' := by
  rw [processStep, bind_get] at h
  split at h
  · have hframe : RequestFrame s { s with processedStepSeq := s.processedStepSeq + 1 } :=
      .of_queueFrame (.of_eq rfl) rfl
    exact hframe.trans (drainDeferredFrees_frame h)
  · cases h
    exact .refl _

lemma finishErrors_keepsQueues (h : finishErrors mro failed s = .ok refs s') :
    KeepsQueues s s' := by
  rw [finishErrors, bind_get, bind_ok (set_apply _ _)] at h
  generalize s.grammarCompileErrorReqs ++ _ = errorReqIds at h
  have hframe : QueueFrame s { s with grammarCompileErrorReqs := [] } := .of_eq rfl
  split at h
  · cases h
    exact .of_frame hframe
  · exact (KeepsQueues.of_frame hframe).trans (finishRequests_keepsQueues h)

lemma finishedRecvingOne_keepsQueues (h : finishedRecvingOne reqId s = .ok () s') :
    KeepsQueues s s' := by
  rw [finishedRecvingOne, bind_get] at h
  cases href : s.requests.get? reqId with
  | none =>
    rw [href] at h
    cases h
    exact .refl _
  | some ref =>
    rw [href] at h
    dsimp only at h
    split at h
    · cases h
      exact .of_frame (.of_eq rfl)
    · split at h
      · obtain ⟨hfinished, s1, hbooks, rfl⟩ := freeBlocks_eq_ok h
        exact .of_erase href hfinished hbooks
      · cases h
        exact .refl _

lemma finishedSendingOne_keepsQueues (h : finishedSendingOne reqId s = .ok () s') :
    KeepsQueues s s' := by
  rw [finishedSendingOne, bind_get] at h
  cases href : s.requests.get? reqId with
  | none =>
    rw [href] at h
    cases h
    exact .refl _
  | some ref =>
    rw [href] at h
    obtain ⟨hfinished, s1, hbooks, rfl⟩ := freeBlocks_eq_ok h
    exact .of_erase href hfinished hbooks

omit [KvCache H K] in
lemma forM_keepsQueues {α : Type} {f : α → SchedM H K Unit}
    (hf : ∀ a s s', f a s = .ok () s' → KeepsQueues s s') {l : List α}
    (h : l.forM f s = .ok () s') : KeepsQueues s s' := by
  induction l generalizing s with
  | nil =>
    cases h
    exact .refl _
  | cons a l ih =>
    obtain ⟨_, s1, hfirst, hrest⟩ := bind_eq_ok.1 h
    exact (hf a _ _ hfirst).trans (ih hrest)

lemma updateFromKvXferFinished_keepsQueues (h : updateFromKvXferFinished mro s = .ok () s') :
    KeepsQueues s s' := by
  obtain ⟨_, s1, hrecving, hsending⟩ := bind_eq_ok.1 h
  exact (forM_keepsQueues (fun _ _ _ => finishedRecvingOne_keepsQueues) hrecving).trans
    (forM_keepsQueues (fun _ _ _ => finishedSendingOne_keepsQueues) hsending)

variable [DecidableEq H]

lemma updateFromOutput_queues {outputs : List EngineCoreOutput} (hs : QueueInv s [])
    (h : updateFromOutput out mro s = .ok outputs s') :
    s'.config = s.config ∧ QueueInv s' [] ∧
      (Complete s [] → s.KeepsSessions mro out.numScheduledTokens.keys → Complete s' []) ∧
      (s.running.length ≤ s.config.maxNumRunningReqs →
        s'.running.length ≤ s.config.maxNumRunningReqs) := by
  obtain ⟨_, s1, hprocess, h1⟩ := bind_eq_ok.1 h
  obtain ⟨failed, s2, hfailed, h2⟩ := bind_eq_ok.1 h1
  obtain ⟨acc, s3, hloop, h3⟩ := bind_eq_ok.1 h2
  rw [bind_modify] at h3
  obtain ⟨errors, s4, herrors, h4⟩ := bind_eq_ok.1 h3
  obtain ⟨_, s5, hxfer, h5⟩ := bind_eq_ok.1 h4
  cases h5
  have hframe := (processStep_frame hprocess).trans (failedLoads_frame hfailed)
  have hstart := KeepsQueues.of_frame hframe.toQueueFrame hs
  have hs2 := hstart.queueInv
  obtain ⟨hloopInv, hconfig, hrunning⟩ : LoopInv mro
      (Complete s [] ∧ s.KeepsSessions mro out.numScheduledTokens.keys) [] s3 acc ∧ _ := by
    refine LoopInv.updateLoop ⟨(nodup_append.1 hs2.nodup).1, ?_, ?_, ?_, ?_⟩
      out.numScheduledTokens.nodup hloop
    · exact hs2
    · rintro ref (hmem | hmem)
      · cases hmem
      · cases hmem
    · exact fun hc => hframe.keepsSessions hc.2
    · exact fun hc => hstart.complete hc.1
  have hend := ((finishErrors_keepsQueues herrors).trans (updateFromKvXferFinished_keepsQueues hxfer))
    hloopInv.queues
  have hconfig3 : s3.config = s.config := hconfig.trans hstart.config
  have hend3 : (s3.removeStopped acc).config = s.config := hconfig3
  refine ⟨hend.config.trans hconfig3, hend.queueInv,
    fun hcomplete hkept => hend.complete (hloopInv.complete ⟨hcomplete, hkept⟩), fun hle => ?_⟩
  have hbounded := hend.bounded
  rw [hend3] at hbounded
  refine hbounded (le_trans ?_ (hstart.bounded hle))
  rw [(takenOut_removeStopped hloopInv.nodup acc).running, hrunning]
  exact length_filter_le _ _

end Scheduler

namespace Engine

variable [KvCache H K] [DecidableEq H] {e : Engine H K}

/-- The output of the oldest step in flight stops no session that was preempted meanwhile and is to go
on. -/
def KeepsSessions (e : Engine H K) : EngineOp H → Prop
  | .updateFromOutput mro =>
    ∀ step ∈ e.inFlight.head?, e.sched.KeepsSessions mro step.output.numScheduledTokens.keys
  | _ => True

instance decidableKeepsSessions (e : Engine H K) (op : EngineOp H) :
    Decidable (e.KeepsSessions op) :=
  match op with
  | .updateFromOutput mro => inferInstanceAs (Decidable (∀ step ∈ e.inFlight.head?,
      e.sched.KeepsSessions mro step.output.numScheduledTokens.keys))
  | .addRequest _ _ | .schedule _ | .finishRequests _ _ _ | .updateDraftTokenIds _ _
  | .resetPrefixCache _ | .setPauseState _ => isTrue trivial

open Scheduler in
lemma queueInv_step {e' : Engine H K} {op : EngineOp H} (he : QueueInv e.sched [])
    (h : e.step op = some e') :
    e'.sched.config = e.sched.config ∧ QueueInv e'.sched [] ∧
      (Complete e.sched [] → e.KeepsSessions op → Complete e'.sched []) ∧
      (e.sched.running.length ≤ e.sched.config.maxNumRunningReqs →
        e'.sched.running.length ≤ e.sched.config.maxNumRunningReqs) := by
  refine Or.elim (?_ : KeepsQueues e.sched e'.sched ∨ _) (fun hkeeps => ?_) id
  · -- Every call but `update_from_output` keeps the queues without a condition.
    cases call_of_step h with
    | added hr hadd =>
      exact .inl (addRequest_keepsQueues (status_of_fromEngineCoreRequest hr) hadd)
    | scheduled hschedule => exact .inl (schedule_keepsQueues hschedule)
    | updated hinFlight hupdate =>
      refine .inr ?_
      obtain ⟨hconfig, hinv, hcomplete, hbounded⟩ := updateFromOutput_queues he hupdate
      exact ⟨hconfig, hinv, fun hc hkept => hcomplete hc (hkept _ (by rw [hinFlight]; rfl)), hbounded⟩
    | finished hfinish => exact .inl (finishRequests_keepsQueues hfinish)
    | drafted => exact .inl (updateDraftTokenIds_keepsQueues _ _ _)
    | reset hreset => exact .inl (resetPrefixCache_keepsQueues hreset)
    | paused => exact .inl (.of_frame (.of_eq rfl))
  · have hkept := hkeeps he
    exact ⟨hkept.config, hkept.queueInv, fun hcomplete _ => hkept.complete hcomplete, hkept.bounded⟩

omit [KvCache H K] [DecidableEq H] in
lemma queueInv_init (h : Init e) :
    Scheduler.QueueInv e.sched [] ∧ Scheduler.Complete e.sched [] := by
  obtain ⟨config, objs, cacheSize, kv, rfl⟩ := h
  exact ⟨⟨nofun, nodup_nil, nofun, nofun, le_rfl⟩, nofun⟩

/-- The queues are in order in every state that calls lead to, and no more requests run than may. -/
lemma Reachable.queueInv {P : Engine H K → EngineOp H → Prop}
    (h : Reachable P e) : Scheduler.QueueInv e.sched [] ∧
      e.sched.running.length ≤ e.sched.config.maxNumRunningReqs := by
  refine Reached.invariant (I := fun e : Engine H K => Scheduler.QueueInv e.sched [] ∧
    e.sched.running.length ≤ e.sched.config.maxNumRunningReqs) ?_ ?_ h
  · intro e hinit
    refine ⟨(queueInv_init hinit).1, ?_⟩
    obtain ⟨config, objs, cacheSize, kv, rfl⟩ := hinit
    exact zero_le _
  · rintro e op e' ⟨hqueue, hle⟩ - hstep
    obtain ⟨hconfig, hqueue', -, hbounded⟩ := queueInv_step hqueue hstep
    refine ⟨hqueue', ?_⟩
    rw [hconfig]
    exact hbounded hle

/-- **No request is lost or duplicated**, in the runs in which no session that was preempted
meanwhile goes on: a tracked request that is not finished stands in one queue once, in `running` if
and only if it is `RUNNING`, and no finished request is in a queue. -/
theorem no_request_lost {e : Engine H K} (h : Reachable KeepsSessions e) :
    (∀ reqId ref, e.sched.requests.get? reqId = some ref → (e.sched.objs ref).isFinished = false →
      (e.sched.running ++ e.sched.waiting ++ e.sched.skippedWaiting).count ref = 1 ∧
        (ref ∈ e.sched.running ↔ (e.sched.objs ref).status = .running)) ∧
      ∀ ref ∈ e.sched.running ++ e.sched.waiting ++ e.sched.skippedWaiting,
        (e.sched.objs ref).isFinished = false := by
  have hinv : Scheduler.QueueInv e.sched [] ∧ Scheduler.Complete e.sched [] := by
    refine Reached.invariant (I := fun e : Engine H K =>
      Scheduler.QueueInv e.sched [] ∧ Scheduler.Complete e.sched []) ?_ ?_ h
    · exact fun _ hinit => queueInv_init hinit
    · rintro s op s' ⟨hqueue, hcomplete⟩ hkept hstep
      obtain ⟨-, hqueue', hcomplete', -⟩ := queueInv_step hqueue hstep
      exact ⟨hqueue', hcomplete' hcomplete hkept⟩
  obtain ⟨hqueue, hcomplete⟩ := hinv
  have hall : e.sched.running ++ e.sched.waiting ++ e.sched.skippedWaiting =
      e.sched.allQueued [] := by
    simp [Scheduler.allQueued]
  rw [hall]
  constructor
  · intro reqId ref hget hfinished
    exact ⟨count_eq_one_of_mem hqueue.nodup (hcomplete reqId ref hget hfinished),
      (hqueue.running_iff reqId ref hget).symm⟩
  · exact fun ref hmem => (hqueue.queued ref hmem).2

/-! ## Small runs -/

/-- An engine over one group of full attention. -/
def small (config : SchedulerConfig FreeHash) (pool : BlockPool FreeHash) :
    Engine FreeHash (KVCacheManager FreeHash) :=
  { sched :=
      { config := config
        objs := fun _ => namedRequest "" []
        nextRef := 0
        encoder := .create 0
        kv := (smallKv [.fullAttention] pool).kv } }

lemma init_small (config : SchedulerConfig FreeHash) (pool : BlockPool FreeHash) :
    Init (small config pool) :=
  ⟨config, _, 0, _, rfl⟩

/-- A run of a small engine can be evaluated. -/
lemma exists_reachable_small (n : ℕ) (config : SchedulerConfig FreeHash)
    (P : Engine FreeHash (KVCacheManager FreeHash) → EngineOp FreeHash → Prop)
    [∀ e op, Decidable (P e op)] (ops : List (EngineOp FreeHash))
    (Q : Engine FreeHash (KVCacheManager FreeHash) → Prop) [DecidablePred Q]
    (h : (BlockPool.init n true freeHasher false).toOption.any (fun pool =>
      (runAll step P ops (small config pool)).any fun e => decide (Q e)) = true) :
    ∃ e, Reachable P e ∧ Q e := by
  obtain ⟨pool, -, hrun⟩ := (Option.any_eq_true _ _).1 h
  exact Reached.exists_runAll (init_small config pool) ops Q hrun

/-- A text request for at most `maxTokens` tokens. -/
def textCall (requestId : String) (tokens : List Token) (maxTokens : ℕ) (resumable : Bool) :
    EngineOp FreeHash :=
  .addRequest
    { requestId := requestId
      promptTokenIds := some tokens
      samplingParams := some { maxTokens := maxTokens }
      resumable := resumable } fun _ => false

/-- Every request of a step gets the same tokens. -/
def sampleAll (tokens : List Token) : EngineOp FreeHash :=
  .updateFromOutput { sampledTokenIds := fun _ => some tokens }

/-- Two requests fill two blocks.  With the first step in flight a second one is scheduled, and as the
first request needs a block, the second request is preempted.  Then the output of the first step comes,
with which the second request is done. -/
def preemptThenStop (resumable : Bool) : List (EngineOp FreeHash) :=
  [textCall "a" [1, 2, 3, 4] 5 false, textCall "b" [5, 6, 7, 8] 1 resumable, .schedule {},
    .schedule {}, sampleAll [9]]

/-- In the run with an ordinary request the preempted one is finished and gone, and the other one is
running. -/
theorem no_request_lost_after_preemption :
    ∃ e : Engine FreeHash (KVCacheManager FreeHash), Reachable KeepsSessions e ∧
      e.sched.requests.get? "a" = some 0 ∧ e.sched.requests.get? "b" = none ∧
      (e.sched.running ++ e.sched.waiting ++ e.sched.skippedWaiting).count 0 = 1 := by
  obtain ⟨e, hreach, ha, hb, hfinished⟩ := exists_reachable_small 3 (smallConfig true)
    KeepsSessions (preemptThenStop false) (fun e => e.sched.requests.get? "a" = some 0 ∧
      e.sched.requests.get? "b" = none ∧ (e.sched.objs 0).isFinished = false) (by decide +kernel)
  exact ⟨e, hreach, ha, hb, ((no_request_lost hreach).1 "a" 0 ha hfinished).1⟩

/-- **A session gets lost**: a resumable request is preempted while a step that it takes part in is in
flight.  The output of that step stops it, it is to wait for its next input, and the same call takes it
out of the queues: it is tracked and not finished, and in no queue. -/
theorem session_lost_after_preemption :
    ∃ e : Engine FreeHash (KVCacheManager FreeHash), Reachable (fun _ _ => True) e ∧
      e.sched.requests.get? "b" = some 1 ∧ (e.sched.objs 1).isFinished = false ∧
      (e.sched.objs 1).status = .waitingForStreamingReq ∧
      1 ∉ e.sched.running ++ e.sched.waiting ++ e.sched.skippedWaiting := by
  exact exists_reachable_small 3 (smallConfig true) _ (preemptThenStop true) _ (by decide +kernel)

end Engine

end Lvllm
