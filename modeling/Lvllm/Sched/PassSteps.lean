import Lvllm.Sched.ChunkBounds
import Lvllm.Sched.Output

/-!
# What a call of `schedule` can do

The two loops of `Scheduler.schedule` are sequences of a few actions.  `PassStep` lists the actions of
each loop with what is known when each happens, and `passes_phases` says that a call is a sequence of
actions of the first loop and, if it preempted nothing, of the second.  What holds across a call is
proved for one action and carried over by induction.
-/

namespace Lvllm

open KVCacheManager (AllocateSlotsArgs)
open Relation (ReflTransGen)

variable {H K : Type} {chunk : Chunk}

/-- The variables of a call after a scheduled request is withdrawn. -/
def Pass.without (p : Pass) (ref : Ref) (reqId : String) (draftSlots restored embeds : ℕ) : Pass :=
  { p with
    scheduledRunningReqs := p.scheduledRunningReqs.erase ref
    numScheduledTokens := p.numScheduledTokens.erase reqId
    tokenBudget := p.tokenBudget + restored
    inputBudget := p.inputBudget + (restored + draftSlots)
    reqToNewBlocks := p.reqToNewBlocks.erase reqId
    scheduledSpecDecodeTokens := p.scheduledSpecDecodeTokens.erase reqId
    scheduledEncoderInputs := p.scheduledEncoderInputs.erase reqId
    encoderComputeBudget := p.encoderComputeBudget + embeds
    withdrawn := p.withdrawn ++ [ref] }

/-- The two loops of `schedule`. -/
inductive Phase where
  | running
  | waiting

namespace Scheduler

/-- A request that stands in one of the queues. -/
def Queued (s : Scheduler H K) (ref : Ref) : Prop :=
  ref ∈ s.running ∨ ref ∈ s.waiting ∨ ref ∈ s.skippedWaiting

/-- The variables of a call after a request is chosen for preemption: those of a request that is
scheduled already are given back.  The last running request is never looked up. -/
inductive Withdrawal (s : Scheduler H K) (p : Pass) (victim : Ref) : Pass → Prop
  | unscheduled (h : s.config.policy = .priority → victim ∉ p.scheduledRunningReqs) :
      Withdrawal s p victim p
  | scheduled {restored embeds : ℕ} {blocks : List (List ℕ)}
      (hpriority : s.config.policy = .priority)
      (hscheduled : victim ∈ p.scheduledRunningReqs)
      (hrestored : p.numScheduledTokens.get? (s.objs victim).requestId = some restored)
      (hblocks : p.reqToNewBlocks.get? (s.objs victim).requestId = some blocks)
      (hembeds : sumEncoderEmbeds (s.objs victim)
        ((p.scheduledEncoderInputs.get? (s.objs victim).requestId).getD []) = .ok embeds) :
      Withdrawal s p victim
        (p.without victim (s.objs victim).requestId s.config.draftSlots restored embeds)

/-- What is known about the chunk of a running request when it is entered. -/
structure RunningChunk (s : Scheduler H K) (p : Pass) (ref : Ref) (n : ℕ) : Prop where
  cursor : s.running[p.reqIndex]? = some ref
  stays : s.passesOver p (s.objs ref) = false
  pos : 0 < n
  cap : FeaturesOrdered (s.objs ref).mmFeatures → (n : ℤ) ≤ s.runningCap p (s.objs ref)

/-- What is known about the chunk of a waiting request when it is entered. -/
structure WaitingChunk (s : Scheduler H K) (p : Pass) (ref : Ref) (a : Admission) (chunk : Chunk) :
    Prop where
  pos : 0 < chunk.numNewTokens
  bounds : FeaturesOrdered (s.objs ref).mmFeatures →
    WaitingBounds s p (s.objs ref) a chunk.numNewTokens chunk.padSpecDecode
  padded : chunk.padSpecDecode = true → chunk.numNewTokens = 1 + s.config.numSpecTokens

/-- The request behind the end of a load. -/
def loadedRequest (failed : Bool) (r : Request H) : Request H :=
  let r :=
    if failed = false ∧ r.numComputedTokens = r.numTokens then
      { r with numComputedTokens := r.numTokens - 1 }
    else r
  { r with status := if r.numPreemptions = 0 then .waiting else .preempted }

/-- The scheduler behind the end of a load. -/
def finishLoad (s : Scheduler H K) (ref : Ref) : Scheduler H K :=
  let reqId := (s.objs ref).requestId
  { s.modifyReq ref (loadedRequest (decide (reqId ∈ s.failedRecvingKvReqIds))) with
    failedRecvingKvReqIds := s.failedRecvingKvReqIds.filter (· ≠ reqId)
    finishedRecvingKvReqIds := s.finishedRecvingKvReqIds.filter (· ≠ reqId) }

variable [KvCache H K]

/-- What a waiting request starts from: the result of a lookup, or what it has computed. -/
inductive AdmissionOf (inp : ScheduleInput H) (s : Scheduler H K) (ref : Ref) : Admission → Prop
  | found {boundary : ℕ} {a : Admission} {sharedPrefixBoundary : ℕ}
      (hcomputed : (s.objs ref).numComputedTokens = 0)
      (h : s.findComputedTokens inp
        { s.objs ref with sharedPrefixBoundary := sharedPrefixBoundary } = .ok (boundary, some a))
      (hle : a.numComputedTokens ≤ (s.objs ref).numTokens) : AdmissionOf inp s ref a
  | kept (hcomputed : (s.objs ref).numComputedTokens ≠ 0) :
      AdmissionOf inp s ref { numComputedTokens := (s.objs ref).numComputedTokens }

/-- The actions of the two loops of `schedule`. -/
inductive PassStep (inp : ScheduleInput H) :
    Phase → Scheduler H K × Pass → Scheduler H K × Pass → Prop
  /-- The encoder cache is looked up. -/
  | look {phase : Phase} {s : Scheduler H K} {p : Pass} {ref : Ref} {computed : ℕ} {n : ℤ}
      {schedule : EncoderSchedule} {e : EncoderCacheManager} (hqueued : s.Queued ref)
      (h : tryScheduleEncoderInputs s.config (s.objs ref) computed n p.encoderComputeBudget
        s.encoder = .ok schedule e) :
      PassStep inp phase (s, p)
        ({ s with encoder := e }, { p with encoderHits := p.encoderHits ++ schedule.cachedHashes })
  /-- The running loop goes on with the next request. -/
  | next {s : Scheduler H K} {p : Pass} {ref : Ref} (hcursor : s.running[p.reqIndex]? = some ref) :
      PassStep inp .running (s, p) (s, { p with reqIndex := p.reqIndex + 1 })
  /-- A request does not get its blocks. -/
  | refuse {phase : Phase} {s : Scheduler H K} {p : Pass} {ref : Ref} {args : AllocateSlotsArgs} {k : K}
      (hqueued : s.Queued ref)
      (h : KvCache.allocateSlots (s.objs ref) args s.kv = .ok none k) :
      PassStep inp phase (s, p) ({ s with kv := k }, p)
  /-- A running request is preempted. -/
  | preempt {s s' : Scheduler H K} {p p' : Pass} {victim : Ref} {i : ℕ}
      (hcursor : p.reqIndex < s.running.length)
      (hvictim : s.running[i]? = some victim)
      (hlast : s.config.policy = .fcfs → i + 1 = s.running.length)
      (hwithdrawal : Withdrawal s
        { p with reqIndex := if i < p.reqIndex then p.reqIndex - 1 else p.reqIndex } victim p')
      (h : preemptRequest victim s.config.requiresKvDelivery
        { s with running := s.running.eraseIdx i } = .ok () s') :
      PassStep inp .running (s, p) (s', { p' with preemptedReqs := p'.preemptedReqs ++ [victim] })
  /-- A running request gets its blocks and is scheduled. -/
  | run {s : Scheduler H K} {p : Pass} {ref : Ref} {n : ℕ} {blocks : List (List ℕ)} {k : K}
      (hchunk : RunningChunk s p ref n)
      (h : KvCache.allocateSlots (s.objs ref)
        { numNewTokens := n, numLookaheadTokens := s.config.numLookaheadTokens } s.kv =
          .ok (some blocks) k) :
      PassStep inp .running (s, p) (enterRunning ref n blocks ({ s with kv := k }, p))
  /-- The encoder inputs of a scheduled request are allocated. -/
  | encode {phase : Phase} {s : Scheduler H K} {p : Pass} {ref : Ref} {inputs : List ℕ} {budget : ℤ}
      {e : EncoderCacheManager} (hrunning : ref ∈ s.running)
      (hscheduled : p.numScheduledTokens.contains (s.objs ref).requestId = true)
      (h : (inputs.forM fun inputId => EncoderCacheManager.allocate (s.objs ref) inputId) s.encoder =
        .ok () e) :
      PassStep inp phase (s, p) ({ s with encoder := e },
        { p with
          scheduledEncoderInputs := p.scheduledEncoderInputs.set (s.objs ref).requestId inputs
          encoderComputeBudget := budget })
  /-- The adapters of the scheduled requests are recorded. -/
  | loras {s : Scheduler H K} {p : Pass} {loras : List ℤ} :
      PassStep inp .running (s, p) (s, { p with scheduledLoras := loras })
  /-- The grammar of a request turns out not to compile. -/
  | grammarFailed {s : Scheduler H K} {p : Pass} {which : WaitingQueue} {ref : Ref}
      (hfront : s.frontWaiting = some (which, ref))
      (hstatus : (s.objs ref).status = .waitingForStructuredOutputGrammar) :
      PassStep inp .waiting (s, p)
        ({ s with
            grammarCompileErrorReqs := setAdd (s.objs ref).requestId s.grammarCompileErrorReqs }, p)
  /-- The grammar of a request is ready. -/
  | grammarReady {s : Scheduler H K} {p : Pass} {which : WaitingQueue} {ref : Ref}
      (hfront : s.frontWaiting = some (which, ref))
      (hstatus : (s.objs ref).status = .waitingForStructuredOutputGrammar) :
      PassStep inp .waiting (s, p) (s.modifyReq ref fun r => { r with status := .waiting }, p)
  /-- The load of a request has ended. -/
  | loaded {s s' : Scheduler H K} {p : Pass} {which : WaitingQueue} {ref : Ref}
      (hfront : s.frontWaiting = some (which, ref))
      (hstatus : (s.objs ref).status = .waitingForRemoteKvs)
      (hfinished : (s.objs ref).requestId ∈ s.finishedRecvingKvReqIds)
      (h : settleRemoteKv ref s = .ok () s') :
      PassStep inp .waiting (s, p) (s'.finishLoad ref, p)
  /-- A waiting request is set aside. -/
  | skip {s : Scheduler H K} {p : Pass} {which : WaitingQueue} {ref : Ref}
      (hfront : s.frontWaiting = some (which, ref)) :
      PassStep inp .waiting (s, p) (setAside which ref (s, p))
  /-- The shared prefix of a waiting request is recorded. -/
  | boundary {s : Scheduler H K} {p : Pass} {which : WaitingQueue} {ref : Ref} {boundary : ℕ}
      (hfront : s.frontWaiting = some (which, ref))
      (hcomputed : (s.objs ref).numComputedTokens = 0) :
      PassStep inp .waiting (s, p) (s.modifyReq ref fun r => { r with sharedPrefixBoundary := boundary }, p)
  /-- A waiting request starts to load its blocks. -/
  | load {s : Scheduler H K} {p : Pass} {which : WaitingQueue} {ref : Ref} {a : Admission}
      {reserved : ℕ} {blocks : List (List ℕ)} {k : K} {chunk : Chunk}
      (hfront : s.frontWaiting = some (which, ref))
      (hstatus : isBlockedWaitingStatus (s.objs ref).status = false)
      (hadmission : AdmissionOf inp s ref a) (hasync : a.loadKvAsync = true)
      (hchunk : chunk.numNewTokens = 0)
      (hstale : (s.objs ref).numStaleOutputTokens ≤ 0 ∨ (s.objs ref).dropStaleOutput = true)
      (h : KvCache.allocateSlots (s.objs ref) (s.admissionArgs a chunk reserved) s.kv =
        .ok (some blocks) k) :
      PassStep inp .waiting (s, p) (enterLoading which ref a ({ s with kv := k }, p))
  /-- A waiting request is admitted. -/
  | admitted {s : Scheduler H K} {p : Pass} {which : WaitingQueue} {ref : Ref} {a : Admission}
      {reserved : ℕ} {chunk : Chunk} {blocks : List (List ℕ)} {k : K} {resumed : Bool}
      (hfront : s.frontWaiting = some (which, ref)) (hcan : s.canAdmit p = true)
      (hstatus : (s.objs ref).status = if resumed then .preempted else .waiting)
      (hadmission : AdmissionOf inp s ref a) (hsync : a.loadKvAsync = false)
      (hchunk : WaitingChunk s p ref a chunk)
      (hstale : (s.objs ref).numStaleOutputTokens ≤ 0 ∨ (s.objs ref).dropStaleOutput = true)
      (h : KvCache.allocateSlots (s.objs ref) (s.admissionArgs a chunk reserved) s.kv =
        .ok (some blocks) k) :
      PassStep inp .waiting (s, p) (enterAdmitted which ref a chunk resumed ({ s with kv := k }, p))
  /-- A waiting request that does not get its blocks gives its encoder inputs back. -/
  | dropInputs {s : Scheduler H K} {p : Pass} {ref : Ref} {e : EncoderCacheManager}
      (hqueued : s.Queued ref)
      (h : EncoderCacheManager.free (s.objs ref) s.encoder = .ok () e) :
      PassStep inp .waiting (s, p) ({ s with encoder := e }, p)

/-- Several actions in a row. -/
abbrev PassSteps (inp : ScheduleInput H) (phase : Phase) :
    Scheduler H K × Pass → Scheduler H K × Pass → Prop :=
  ReflTransGen (PassStep inp phase)

/-! ## Running code -/

variable {s s' : Scheduler H K} {x y : Scheduler H K × Pass} {p p' : Pass} {ref victim : Ref}
  {drop more : Bool} {n fuel : ℕ} {schedule : EncoderSchedule} {which : WaitingQueue}
  {inp : ScheduleInput H} {a : Admission} {I : Scheduler H K × Pass → Prop}

section

omit [KvCache H K]

lemma onSched_eq_ok {α : Type} {m : SchedM H K α} {a : α} :
    onSched m (s, p) = .ok a y ↔ ∃ s', m s = .ok a s' ∧ y = (s', p) :=
  zoomWith_eq_ok

lemma onKv_eq_ok {α : Type} {m : EStateM PyErr K α} {a : α} :
    onKv m s = .ok a s' ↔ ∃ k, m s.kv = .ok a k ∧ s' = { s with kv := k } :=
  onPart_eq_ok

lemma onEncoder_eq_ok {α : Type} {m : EncoderM α} {a : α} :
    onEncoder m s = .ok a s' ↔ ∃ e, m s.encoder = .ok a e ∧ s' = { s with encoder := e } :=
  onPart_eq_ok

lemma onSched_onKv_eq_ok {α : Type} {m : EStateM PyErr K α} {a : α}
    (h : onSched (onKv m) (s, p) = .ok a y) :
    ∃ k, m s.kv = .ok a k ∧ y = ({ s with kv := k }, p) := by
  obtain ⟨s', hs, rfl⟩ := onSched_eq_ok.1 h
  obtain ⟨k, hk, rfl⟩ := onKv_eq_ok.1 hs
  exact ⟨k, hk, rfl⟩

lemma onSched_onEncoder_eq_ok {α : Type} {m : EncoderM α} {a : α}
    (h : onSched (onEncoder m) (s, p) = .ok a y) :
    ∃ e, m s.encoder = .ok a e ∧ y = ({ s with encoder := e }, p) := by
  obtain ⟨s', hs, rfl⟩ := onSched_eq_ok.1 h
  obtain ⟨e, he, rfl⟩ := onEncoder_eq_ok.1 hs
  exact ⟨e, he, rfl⟩

/-- Two changes of one request object are one. -/
lemma modifyReq_modifyReq (s : Scheduler H K) (ref : Ref) (f g : Request H → Request H) :
    (s.modifyReq ref f).modifyReq ref g = s.modifyReq ref fun r => g (f r) := by
  simp [modifyReq]

end

/-! ## Preemption -/

section

omit [KvCache H K]

lemma withdraw_eq_ok (hpriority : s.config.policy = .priority)
    (h : withdraw victim (s, p) = .ok () y) :
    ∃ p', Withdrawal s p victim p' ∧ y = (s, p') := by
  rw [withdraw, bind_get] at h
  dsimp only at h
  split at h
  · rename_i hmem
    cases hrestored : p.numScheduledTokens.get? (s.objs victim).requestId with
    | none =>
      rw [hrestored] at h
      cases h
    | some restored =>
      cases hblocks : p.reqToNewBlocks.get? (s.objs victim).requestId with
      | none =>
        rw [hrestored, hblocks] at h
        cases h
      | some blocks =>
        rw [hrestored, hblocks] at h
        obtain ⟨embeds, z, hsum, hset⟩ := bind_eq_ok.1 h
        obtain ⟨hembeds, rfl⟩ := liftPy_eq_ok.1 hsum
        cases hset
        exact ⟨_, .scheduled hpriority hmem hrestored hblocks hembeds, rfl⟩
  · rename_i hmem
    cases h
    exact ⟨p, .unscheduled fun _ => hmem, rfl⟩

/-- The request of lowest priority is a running one. -/
lemma mem_of_lowestPriority (h : s.lowestPriority = some victim) : victim ∈ s.running := by
  unfold lowestPriority at h
  split at h
  · cases h
  · rename_i ref rest hrunning
    cases h
    rw [hrunning]
    clear hrunning
    induction rest generalizing ref with
    | nil => exact List.mem_cons_self
    | cons x rest ih =>
      rw [List.foldl_cons]
      split
      · exact List.mem_cons_of_mem _ (ih x)
      · rcases List.mem_cons.1 (ih ref) with heq | hmem
        · rw [heq]
          exact List.mem_cons_self
        · exact List.mem_cons_of_mem _ (List.mem_cons_of_mem _ hmem)

lemma takeVictim_eq_ok (hcursor : p.reqIndex < s.running.length)
    (h : takeVictim (s, p) = .ok victim y) :
    ∃ i p', s.running[i]? = some victim ∧ (s.config.policy = .fcfs → i + 1 = s.running.length) ∧
      Withdrawal s
        { p with reqIndex := if i < p.reqIndex then p.reqIndex - 1 else p.reqIndex } victim p' ∧
      y = ({ s with running := s.running.eraseIdx i }, p') := by
  rw [takeVictim, bind_get] at h
  dsimp only at h
  cases hpolicy : s.config.policy with
  | priority =>
    rw [hpolicy] at h
    cases hlowest : s.lowestPriority with
    | none =>
      rw [hlowest] at h
      cases h
    | some victim' =>
      rw [hlowest] at h
      have hmem := mem_of_lowestPriority hlowest
      dsimp only at h
      rw [bind_ok (set_apply _ _)] at h
      obtain ⟨_, z, hwithdraw, h⟩ := bind_eq_ok.1 h
      cases h
      have hsome : s.running[s.running.idxOf victim]? = some victim :=
        List.getElem?_eq_some_iff.2 ⟨List.idxOf_lt_length_of_mem hmem, List.getElem_idxOf _⟩
      obtain ⟨p', hw, rfl⟩ := withdraw_eq_ok
        (s := { s with running := s.running.eraseIdx (s.running.idxOf victim) }) hpolicy hwithdraw
      refine ⟨s.running.idxOf victim, p', hsome, ?_, ?_, rfl⟩
      · exact nofun
      · cases hw with
        | unscheduled hnot => exact .unscheduled hnot
        | scheduled hprio hscheduled hrestored hblocks hembeds =>
          exact .scheduled hprio hscheduled hrestored hblocks hembeds
  | fcfs =>
    rw [hpolicy] at h
    cases hlast : s.running.getLast? with
    | none =>
      rw [hlast] at h
      cases h
    | some victim' =>
      rw [hlast] at h
      cases h
      rw [List.getLast?_eq_getElem?] at hlast
      refine ⟨s.running.length - 1, p, hlast, fun _ => by omega, ?_, ?_⟩
      · rw [if_neg (by omega)]
        refine .unscheduled fun hprio => ?_
        rw [hpolicy] at hprio
        cases hprio
      · rw [List.eraseIdx_eq_dropLast (by omega)]

end

/-- The blocks of a request are freed now or put behind the fence. -/
lemma freeRequestBlocks_eq_ok (h : freeRequestBlocks ref s = .ok () s') :
    (s.config.deferBlockFree = false ∨ (s.objs ref).lastSchedSeq ≤ s.processedStepSeq) ∧
        (∃ k, KvCache.free (s.objs ref).requestId s.kv = .ok () k ∧ s' = { s with kv := k }) ∨
      ¬ (s.config.deferBlockFree = false ∨ (s.objs ref).lastSchedSeq ≤ s.processedStepSeq) ∧
        ∃ blocks k, KvCache.popBlocksForFree (s.objs ref).requestId s.kv = .ok blocks k ∧
          s' = { s with
            kv := k
            deferredFrees := if blocks.isEmpty then s.deferredFrees
              else s.deferredFrees ++ [(s.schedStepSeq, blocks)] } := by
  rw [freeRequestBlocks, bind_get] at h
  split at h
  · rename_i hnow
    exact .inl ⟨hnow, onKv_eq_ok.1 h⟩
  · rename_i hlater
    obtain ⟨blocks, s₁, hpop, h⟩ := bind_eq_ok.1 h
    obtain ⟨k, hk, rfl⟩ := onKv_eq_ok.1 hpop
    refine .inr ⟨hlater, blocks, k, hk, ?_⟩
    cases h
    split
    · rename_i hempty
      simp
    · rename_i hempty
      simp

lemma freeRequestBlocks_frame (h : freeRequestBlocks ref s = .ok () s') :
    ∃ k d, s' = { s with kv := k, deferredFrees := d } := by
  rcases freeRequestBlocks_eq_ok h with ⟨-, k, -, rfl⟩ | ⟨-, blocks, k, -, rfl⟩
  · exact ⟨k, s.deferredFrees, rfl⟩
  · exact ⟨k, _, rfl⟩

lemma preemptRequest_eq_ok (h : preemptRequest victim drop s = .ok () s') :
    (s.objs victim).status = .running ∧ ∃ s₁ e, freeRequestBlocks victim s = .ok () s₁ ∧
      EncoderCacheManager.free (s.objs victim) s₁.encoder = .ok () e ∧
      s' = toPreempted { s₁ with encoder := e } victim drop := by
  rw [preemptRequest, bind_get] at h
  split at h
  · rename_i hstatus
    obtain ⟨_, s₁, hfree, h⟩ := bind_eq_ok.1 h
    obtain ⟨_, s2, hencoder, h⟩ := bind_eq_ok.1 h
    obtain ⟨e, he, rfl⟩ := onEncoder_eq_ok.1 hencoder
    cases h
    exact ⟨hstatus, s₁, e, hfree, he, rfl⟩
  · cases h

lemma preemptRequest_frame (h : preemptRequest victim drop s = .ok () s') :
    ∃ k d e, s' = toPreempted { s with kv := k, deferredFrees := d, encoder := e } victim drop := by
  obtain ⟨-, s₁, e, hfree, -, rfl⟩ := preemptRequest_eq_ok h
  obtain ⟨k, d, rfl⟩ := freeRequestBlocks_frame hfree
  exact ⟨k, d, e, rfl⟩

/-! ## Running requests -/

/-- What the preemption of other requests leaves alone for the request at the cursor. -/
structure KeepsCursor (ref : Ref) (x y : Scheduler H K × Pass) : Prop where
  cursor : y.1.running[y.2.reqIndex]? = some ref
  request : y.1.objs ref = x.1.objs ref
  config : y.1.config = x.1.config
  currentStep : y.1.currentStep = x.1.currentStep
  deferPrefills : y.2.deferPrefills = x.2.deferPrefills
  tokens : x.2.tokenBudget ≤ y.2.tokenBudget
  input : x.2.inputBudget ≤ y.2.inputBudget

section

omit [KvCache H K]

lemma KeepsCursor.trans {z : Scheduler H K × Pass} (hxy : KeepsCursor ref x y)
    (hyz : KeepsCursor ref y z) : KeepsCursor ref x z where
  cursor := hyz.cursor
  request := hyz.request.trans hxy.request
  config := hyz.config.trans hxy.config
  currentStep := hyz.currentStep.trans hxy.currentStep
  deferPrefills := hyz.deferPrefills.trans hxy.deferPrefills
  tokens := hxy.tokens.trans hyz.tokens
  input := hxy.input.trans hyz.input

/-- What bounded a chunk before others were preempted bounds it afterwards. -/
lemma RunningChunk.keep (h : RunningChunk s p ref n) (hkeep : KeepsCursor ref (s, p) (s', p')) :
    RunningChunk s' p' ref n := by
  obtain ⟨hcursor, hrequest, hconfig, hstep, hdefer, htokens, hinput⟩ := hkeep
  refine ⟨hcursor, ?_, h.pos, ?_⟩
  · rw [hrequest, passesOver, hstep, hdefer]
    exact h.stays
  · rw [hrequest]
    intro hord
    refine (h.cap hord).trans ?_
    unfold runningCap
    rw [hconfig]
    gcongr

/-- Taking another element out moves the cursor along. -/
lemma getElem?_eraseIdx_cursor {l : List Ref} {i j : ℕ} (hcursor : l[j]? = some ref)
    (hvictim : l[i]? = some victim) (hne : victim ≠ ref) :
    (l.eraseIdx i)[if i < j then j - 1 else j]? = some ref := by
  have hij : i ≠ j := by
    rintro rfl
    rw [hcursor] at hvictim
    exact hne (Option.some.inj hvictim).symm
  rw [List.getElem?_eraseIdx]
  split_ifs with h1 h2 h2
  · omega
  · rw [Nat.sub_add_cancel (by omega)]
    exact hcursor
  · exact hcursor
  · omega

lemma Withdrawal.keeps (h : Withdrawal s p victim p') :
    p'.reqIndex = p.reqIndex ∧ p'.deferPrefills = p.deferPrefills ∧
      p.tokenBudget ≤ p'.tokenBudget ∧ p.inputBudget ≤ p'.inputBudget := by
  cases h with
  | unscheduled _ => exact ⟨rfl, rfl, le_rfl, le_rfl⟩
  | scheduled _ _ _ _ _ =>
    refine ⟨rfl, rfl, ?_, ?_⟩
    · exact Int.le_add_of_nonneg_right (Int.natCast_nonneg _)
    · exact Int.le_add_of_nonneg_right (by omega)

end

lemma KeepsCursor.preempt {i : ℕ} (hcursor : s.running[p.reqIndex]? = some ref)
    (hvictim : s.running[i]? = some victim) (hne : victim ≠ ref) (hwithdrawal : Withdrawal s
      { p with reqIndex := if i < p.reqIndex then p.reqIndex - 1 else p.reqIndex } victim p')
    (h : preemptRequest victim drop { s with running := s.running.eraseIdx i } = .ok () s') :
    KeepsCursor ref (s, p) (s', { p' with preemptedReqs := p'.preemptedReqs ++ [victim] }) := by
  obtain ⟨k, d, e, rfl⟩ := preemptRequest_frame h
  obtain ⟨hindex, hdefer, htokens, hinput⟩ := hwithdrawal.keeps
  refine ⟨?_, ?_, rfl, rfl, hdefer, htokens, hinput⟩
  · rw [hindex]
    exact getElem?_eraseIdx_cursor hcursor hvictim hne
  · exact Function.update_of_ne (Ne.symm hne) _ _

/-- The loop around `allocate_slots` preempts other requests and then gets the blocks, or preempts
the request itself. -/
lemma allocateOrPreempt_steps (inp : ScheduleInput H) {res : Option (List (List ℕ))}
    (hcursor : s.running[p.reqIndex]? = some ref)
    (h : allocateOrPreempt ref n fuel (s, p) = .ok res y) :
    (res = none ∧ PassSteps inp .running (s, p) y) ∨
      ∃ blocks s' p' k, res = some blocks ∧ PassSteps inp .running (s, p) (s', p') ∧
        KeepsCursor ref (s, p) (s', p') ∧
        KvCache.allocateSlots (s'.objs ref)
          { numNewTokens := n, numLookaheadTokens := s'.config.numLookaheadTokens } s'.kv =
            .ok (some blocks) k ∧
        y = ({ s' with kv := k }, p') := by
  induction fuel generalizing s p with
  | zero =>
    cases h
    exact .inl ⟨rfl, .refl⟩
  | succ fuel ih =>
    rw [allocateOrPreempt, bind_get] at h
    obtain ⟨newBlocks, y1, halloc, h⟩ := bind_eq_ok.1 h
    obtain ⟨k, hk, rfl⟩ := onSched_onKv_eq_ok halloc
    cases newBlocks with
    | some blocks =>
      cases h
      exact .inr ⟨blocks, s, p, k, rfl, .refl,
        ⟨hcursor, rfl, rfl, rfl, rfl, le_rfl, le_rfl⟩, hk, rfl⟩
    | none =>
      have hlt : p.reqIndex < s.running.length := (List.getElem?_eq_some_iff.1 hcursor).1
      have hqueued : s.Queued ref := .inl (List.mem_of_getElem? hcursor)
      obtain ⟨victim, y2, htake, h⟩ := bind_eq_ok.1 h
      obtain ⟨i, p', hvictim, hlast, hwithdrawal, rfl⟩ :=
        takeVictim_eq_ok (s := { s with kv := k }) hlt htake
      obtain ⟨_, y3, hpreempt, h⟩ := bind_eq_ok.1 h
      obtain ⟨s', hs', rfl⟩ := onSched_eq_ok.1 hpreempt
      have hrefuse : PassStep inp .running (s, p) ({ s with kv := k }, p) := .refuse hqueued hk
      have hsteps : PassSteps inp .running (s, p)
          (s', { p' with preemptedReqs := p'.preemptedReqs ++ [victim] }) :=
        (ReflTransGen.single hrefuse).tail
          (.preempt (s := { s with kv := k }) hlt hvictim hlast hwithdrawal hs')
      split at h
      · cases h
        exact .inl ⟨rfl, hsteps⟩
      · rename_i hne
        have hkeep := KeepsCursor.preempt (s := { s with kv := k }) (p := p) hcursor hvictim hne
          hwithdrawal hs'
        rcases ih hkeep.cursor h with ⟨hres, hrest⟩ | ⟨blocks, s₁, p1, k1, hres, hrest, hkeep1, hk1, hy⟩
        · exact .inl ⟨hres, hsteps.trans hrest⟩
        · refine .inr ⟨blocks, s₁, p1, k1, hres, hsteps.trans hrest, ?_, hk1, hy⟩
          have hkv : KeepsCursor ref (s, p) ({ s with kv := k }, p) :=
            ⟨hcursor, rfl, rfl, rfl, rfl, le_rfl, le_rfl⟩
          exact (hkv.trans hkeep).trans hkeep1

/-- Looking up the encoder inputs of a chunk changes the encoder cache only. -/
lemma scheduleEncoderInputs_steps (inp : ScheduleInput H) (phase : Phase) {computed : ℕ} {n : ℤ}
    (hqueued : s.Queued ref) (h : scheduleEncoderInputs ref computed n (s, p) = .ok schedule y) :
    PassSteps inp phase (s, p) y ∧
      (∃ e hits, y = ({ s with encoder := e }, { p with encoderHits := hits })) ∧
      (FeaturesOrdered (s.objs ref).mmFeatures → schedule.numNewTokens ≤ max n 0) := by
  rw [scheduleEncoderInputs, bind_get] at h
  dsimp only at h
  split at h
  · obtain ⟨schedule', y1, hlook, h⟩ := bind_eq_ok.1 h
    obtain ⟨e, he, rfl⟩ := onSched_onEncoder_eq_ok hlook
    cases h
    exact ⟨.single (.look hqueued he), ⟨e, _, rfl⟩, fun hord => tryScheduleEncoderInputs_le hord he⟩
  · cases h
    exact ⟨.refl, ⟨s.encoder, p.encoderHits, rfl⟩, fun _ => le_max_left _ _⟩

/-- Allocating the encoder inputs of a scheduled request. -/
lemma allocateEncoderInputs_steps (inp : ScheduleInput H) (phase : Phase)
    (hrunning : ref ∈ s.running)
    (hscheduled : p.numScheduledTokens.contains (s.objs ref).requestId = true)
    (h : allocateEncoderInputs ref schedule (s, p) = .ok () y) :
    PassSteps inp phase (s, p) y := by
  rw [allocateEncoderInputs, bind_get] at h
  dsimp only at h
  split at h
  · cases h
    exact .refl
  · obtain ⟨e, he, rfl⟩ := onSched_onEncoder_eq_ok h
    exact .single (.encode hrunning hscheduled he)

omit [KvCache H K] in
/-- A request that was entered is in the variables of the call. -/
lemma contains_enterRunning (ref : Ref) (n : ℕ) (blocks : List (List ℕ)) (s : Scheduler H K)
    (p : Pass) :
    (enterRunning ref n blocks (s, p)).2.numScheduledTokens.contains
      ((enterRunning ref n blocks (s, p)).1.objs ref).requestId = true := by
  simp only [enterRunning, modifyReq_objs_self]
  exact Dict.contains_set_self _ _ _

lemma scheduleRunning_steps (inp : ScheduleInput H) (hchunk : RunningChunk s p ref n)
    (h : scheduleRunning ref n schedule (s, p) = .ok more y) : PassSteps inp .running (s, p) y := by
  rw [scheduleRunning, bind_get] at h
  obtain ⟨res, y1, halloc, h⟩ := bind_eq_ok.1 h
  rcases allocateOrPreempt_steps inp hchunk.cursor halloc with
    ⟨rfl, hsteps⟩ | ⟨blocks, s', p', k, rfl, hsteps, hkeep, hk, rfl⟩
  · cases h
    exact hsteps
  · dsimp only at h
    rw [bind_modify] at h
    obtain ⟨_, y2, hencode, h⟩ := bind_eq_ok.1 h
    cases h
    have hrun : PassStep inp .running (s', p') (enterRunning ref n blocks ({ s' with kv := k }, p')) :=
      .run (hchunk.keep hkeep) hk
    refine (hsteps.tail hrun).trans (allocateEncoderInputs_steps inp .running ?_ ?_ hencode)
    · exact List.mem_of_getElem? hkeep.cursor
    · exact contains_enterRunning ref n blocks { s' with kv := k } p'

lemma runningRound_steps (inp : ScheduleInput H) (hcursor : s.running[p.reqIndex]? = some ref)
    (h : runningRound ref (s, p) = .ok more y) : PassSteps inp .running (s, p) y := by
  have hqueued : s.Queued ref := .inl (List.mem_of_getElem? hcursor)
  rw [runningRound, bind_get] at h
  dsimp only at h
  split at h
  · cases h
    exact .refl
  split at h
  · cases h
    exact .single (.next hcursor)
  rename_i hstays
  obtain ⟨schedule, y1, hencoder, h⟩ := bind_eq_ok.1 h
  obtain ⟨hsteps, ⟨e, hits, rfl⟩, hle⟩ := scheduleEncoderInputs_steps inp .running hqueued hencoder
  split at h
  · cases h
    exact hsteps.tail (.next hcursor)
  · rename_i hne
    refine hsteps.trans (scheduleRunning_steps inp ?_ h)
    have hreserve := s.config.reservePrefillLookahead_le (s.objs ref)
      (s.objs ref).numComputedTokens schedule.numNewTokens
    have hnonneg := s.config.reservePrefillLookahead_nonneg (s.objs ref)
      (s.objs ref).numComputedTokens schedule.numNewTokens
    refine ⟨hcursor, Bool.eq_false_of_not_eq_true hstays, by omega, fun hord => ?_⟩
    have hcut := hle hord
    have hcap := s.runningNumNewTokens_le p (s.objs ref)
    show _ ≤ s.runningCap p (s.objs ref)
    omega

lemma runningLoop_steps (inp : ScheduleInput H) (h : runningLoop fuel x = .ok () y) :
    PassSteps inp .running x y := by
  induction fuel generalizing x with
  | zero =>
    cases h
    exact .refl
  | succ fuel ih =>
    obtain ⟨s, p⟩ := x
    rw [runningLoop, bind_get] at h
    dsimp only at h
    cases hcursor : s.running[p.reqIndex]? with
    | none =>
      rw [hcursor] at h
      cases h
      exact .refl
    | some ref =>
      rw [hcursor] at h
      dsimp only at h
      split at h
      · obtain ⟨more, y1, hround, h⟩ := bind_eq_ok.1 h
        have hsteps := runningRound_steps inp hcursor hround
        split at h
        · exact hsteps.trans (ih h)
        · cases h
          exact hsteps
      · cases h
        exact .refl

/-! ## Waiting requests -/

omit [KvCache H K] in
/-- The request that is looked at stands at the front of its queue. -/
lemma queue_of_frontWaiting (h : s.frontWaiting = some (which, ref)) :
    ∃ rest, s.queue which = ref :: rest := by
  obtain ⟨which', -, hhead⟩ := Option.bind_eq_some_iff.1 h
  obtain ⟨ref', hhead, heq⟩ := Option.map_eq_some_iff.1 hhead
  cases heq
  cases hqueue : s.queue which with
  | nil =>
    rw [hqueue] at hhead
    cases hhead
  | cons first rest =>
    rw [hqueue] at hhead
    cases hhead
    exact ⟨rest, rfl⟩

omit [KvCache H K] in
lemma queued_of_frontWaiting (h : s.frontWaiting = some (which, ref)) : s.Queued ref := by
  obtain ⟨rest, hqueue⟩ := queue_of_frontWaiting h
  have hmem : ref ∈ s.queue which := hqueue ▸ List.mem_cons_self
  cases which with
  | waiting => exact .inr (.inl hmem)
  | skipped => exact .inr (.inr hmem)

/-- What `Request.__lt__` reads. -/
def queueKey (r : Request H) : ℤ × ℚ × String := (r.priority, r.arrivalTime, r.requestId)

/-- The queues, what orders them and what admission reads are the same. -/
structure SameQueues (s s' : Scheduler H K) : Prop where
  config : s'.config = s.config
  waiting : s'.waiting = s.waiting
  skippedWaiting : s'.skippedWaiting = s.skippedWaiting
  running : s'.running = s.running
  streaming : s'.numWaitingForStreamingInput = s.numWaitingForStreamingInput
  keys : ∀ ref, queueKey (s'.objs ref) = queueKey (s.objs ref)

namespace SameQueues

omit [KvCache H K]

variable {s s' s'' : Scheduler H K}

lemma refl (s : Scheduler H K) : SameQueues s s := ⟨rfl, rfl, rfl, rfl, rfl, fun _ => rfl⟩

/-- A change of a request that keeps its key. -/
lemma modifyReq (s : Scheduler H K) (ref : Ref) {f : Request H → Request H}
    (hf : ∀ r, queueKey (f r) = queueKey r) : SameQueues s (s.modifyReq ref f) := by
  refine ⟨rfl, rfl, rfl, rfl, rfl, fun ref' => ?_⟩
  by_cases heq : ref' = ref
  · subst heq
    rw [modifyReq_objs_self]
    exact hf _
  · rw [modifyReq_objs_of_ne _ heq]

lemma lt (h : SameQueues s s') (a b : Ref) : s'.lt a b = s.lt a b := by
  have ha := h.keys a
  have hb := h.keys b
  simp only [queueKey, Prod.mk.injEq] at ha hb
  simp only [Scheduler.lt, Request.lt, ha.1, ha.2.1, ha.2.2, hb.1, hb.2.1, hb.2.2]

lemma queue (h : SameQueues s s') (which : WaitingQueue) : s'.queue which = s.queue which := by
  cases which with
  | waiting => exact h.waiting
  | skipped => exact h.skippedWaiting

lemma frontWaiting (h : SameQueues s s') : s'.frontWaiting = s.frontWaiting := by
  have hselect : s'.selectWaitingQueue = s.selectWaitingQueue := by
    simp only [selectWaitingQueue, h.config, h.waiting, h.skippedWaiting, h.lt]
  simp only [Scheduler.frontWaiting, hselect, h.queue]

lemma canAdmit (h : SameQueues s s') (p : Pass) : s'.canAdmit p = s.canAdmit p := by
  simp only [Scheduler.canAdmit, h.config, h.running, h.streaming]

end SameQueues

lemma settleRemoteKv_frame (h : settleRemoteKv ref s = .ok () s') :
    ∃ k, s' = { s with kv := k } := by
  rw [settleRemoteKv, bind_get] at h
  split at h
  · obtain ⟨k, -, rfl⟩ := onKv_eq_ok.1 h
    exact ⟨k, rfl⟩
  · obtain ⟨k, -, rfl⟩ := onKv_eq_ok.1 h
    exact ⟨k, rfl⟩

omit [KvCache H K] in
lemma queueKey_loadedRequest (failed : Bool) (r : Request H) :
    queueKey (loadedRequest failed r) = queueKey r := by
  unfold loadedRequest
  split
  · rfl
  · rfl

/-- The end of a load, as the code composes it. -/
lemma updateWaitingForRemoteKv_eq_ok (h : updateWaitingForRemoteKv ref s = .ok () s') :
    ∃ s₁, settleRemoteKv ref s = .ok () s₁ ∧ (s'.modifyReq ref fun r =>
        { r with status := if r.numPreemptions = 0 then .waiting else .preempted }) =
          s₁.finishLoad ref := by
  rw [updateWaitingForRemoteKv, bind_get] at h
  obtain ⟨_, s₁, hsettle, h⟩ := bind_eq_ok.1 h
  obtain ⟨k, hk⟩ := settleRemoteKv_frame hsettle
  cases h
  refine ⟨s₁, hsettle, ?_⟩
  subst hk
  simp only [finishLoad, modifyReq, Function.update_idem, Function.update_self, loadedRequest]

section

variable (hfront : s.frontWaiting = some (which, ref))

include hfront

/-- What `_try_promote_blocked_waiting_request` does. -/
lemma tryPromote_steps {promoted : Bool}
    (h : tryPromoteBlockedWaitingRequest inp.grammar ref s = .ok promoted s') :
    PassSteps inp .waiting (s, p) (s', p) ∧ SameQueues s s' ∧
      (promoted = true → isBlockedWaitingStatus (s'.objs ref).status = false) := by
  rw [tryPromoteBlockedWaitingRequest, bind_get] at h
  cases hstatus : (s.objs ref).status with
  | waitingForRemoteKvs =>
    rw [hstatus] at h
    dsimp only at h
    split at h
    · rename_i hfinished
      obtain ⟨_, s₁, hupdate, h⟩ := bind_eq_ok.1 h
      obtain ⟨s2, hsettle, heq⟩ := updateWaitingForRemoteKv_eq_ok hupdate
      rw [bind_modify, heq] at h
      cases h
      refine ⟨.single (.loaded hfront hstatus hfinished hsettle), ?_, fun _ => ?_⟩
      · obtain ⟨k, rfl⟩ := settleRemoteKv_frame hsettle
        have hkeep := SameQueues.modifyReq { s with kv := k } ref
          (queueKey_loadedRequest (decide ((s.objs ref).requestId ∈ s.failedRecvingKvReqIds)))
        exact ⟨rfl, rfl, rfl, rfl, rfl, hkeep.keys⟩
      · simp only [finishLoad, modifyReq_objs_self, loadedRequest]
        split
        · split
          · rfl
          · rfl
        · split
          · rfl
          · rfl
    · cases h
      exact ⟨.refl, .refl s, nofun⟩
  | waitingForStructuredOutputGrammar =>
    rw [hstatus] at h
    cases hgrammar : inp.grammar (s.objs ref) with
    | compiling =>
      rw [hgrammar] at h
      cases h
      exact ⟨.refl, .refl s, nofun⟩
    | failed =>
      rw [hgrammar] at h
      cases h
      refine ⟨.single (.grammarFailed hfront hstatus), ⟨rfl, rfl, rfl, rfl, rfl, fun _ => rfl⟩, ?_⟩
      exact nofun
    | ready =>
      rw [hgrammar] at h
      cases h
      refine ⟨.single (.grammarReady hfront hstatus), .modifyReq s ref fun _ => rfl, fun _ => ?_⟩
      rw [modifyReq_objs_self]
      rfl
  | waitingForStreamingReq =>
    rw [hstatus] at h
    dsimp only at h
    split at h
    · cases h
      exact ⟨.refl, .refl s, nofun⟩
    · cases h
  | _ =>
    rw [hstatus] at h
    cases h

lemma staysBlocked_steps {blocked : Bool} (h : staysBlocked inp.grammar ref s = .ok blocked s') :
    PassSteps inp .waiting (s, p) (s', p) ∧ SameQueues s s' ∧
      (blocked = false → isBlockedWaitingStatus (s'.objs ref).status = false) := by
  rw [staysBlocked, bind_get] at h
  split at h
  · obtain ⟨promoted, s₁, hpromote, h⟩ := bind_eq_ok.1 h
    obtain ⟨hsteps, hsame, hstatus⟩ := tryPromote_steps hfront hpromote
    cases h
    refine ⟨hsteps, hsame, fun hpromoted => hstatus ?_⟩
    simpa using hpromoted
  · rename_i hstatus
    cases h
    exact ⟨.refl, .refl s, fun _ => Bool.eq_false_of_not_eq_true hstatus⟩

/-- What a waiting request starts from is looked up, and its shared prefix recorded. -/
lemma findAdmission_steps {res : Option Admission} (h : findAdmission inp ref (s, p) = .ok res y) :
    PassSteps inp .waiting (s, p) y ∧ (∃ boundary,
      y = (s.modifyReq ref fun r => { r with sharedPrefixBoundary := boundary }, p)) ∧
      ∀ a, res = some a → AdmissionOf inp y.1 ref a := by
  rw [findAdmission, bind_get] at h
  dsimp only at h
  split at h
  · rename_i hzero
    obtain ⟨⟨boundary, admission⟩, y1, hfind, hrest⟩ := bind_eq_ok.1 h
    obtain ⟨hfound, rfl⟩ := liftPy_eq_ok.1 hfind
    have hstep : PassStep inp .waiting (s, p)
        (s.modifyReq ref fun r => { r with sharedPrefixBoundary := boundary }, p) :=
      .boundary hfront hzero
    cases admission with
    | none =>
      cases hrest
      refine ⟨.single hstep, ⟨boundary, rfl⟩, fun a ha => ?_⟩
      cases ha
    | some a =>
      dsimp only at hrest
      split at hrest
      · rename_i hle
        cases hrest
        refine ⟨.single hstep, ⟨boundary, rfl⟩, fun a' ha => ?_⟩
        cases ha
        have hold : { (s.modifyReq ref fun r =>
            { r with sharedPrefixBoundary := boundary }).objs ref with
              sharedPrefixBoundary := (s.objs ref).sharedPrefixBoundary } = s.objs ref := by
          rw [modifyReq_objs_self]
        have hlookup := hfound
        rw [← hold] at hlookup
        refine .found ?_ hlookup ?_
        · rw [modifyReq_objs_self]
          exact hzero
        · rw [modifyReq_objs_self]
          exact hle
      · cases hrest
  · rename_i hne
    cases h
    have hsame : (s.modifyReq ref fun r =>
        { r with sharedPrefixBoundary := (s.objs ref).sharedPrefixBoundary }) = s := by
      simp only [modifyReq]
      rw [Function.update_eq_self]
    refine ⟨.refl, ⟨(s.objs ref).sharedPrefixBoundary, ?_⟩, fun a ha => ?_⟩
    · rw [hsame]
    · cases ha
      exact .kept hne

end

/-- What a chunk of a waiting request is known to be before its blocks are allocated. -/
lemma findChunk_steps (inp : ScheduleInput H) {res : Option Chunk}
    (hqueued : s.Queued ref) (h : findChunk ref a (s, p) = .ok res y) :
    PassSteps inp .waiting (s, p) y ∧
      (∃ e hits, y = ({ s with encoder := e }, { p with encoderHits := hits })) ∧
      ∀ chunk, res = some chunk → (a.loadKvAsync = true → chunk.numNewTokens = 0) ∧
        (a.loadKvAsync = false → 0 < chunk.numNewTokens ∧ (FeaturesOrdered (s.objs ref).mmFeatures →
            WaitingBounds s p (s.objs ref) a chunk.numNewTokens chunk.padSpecDecode)) := by
  rw [findChunk, bind_get] at h
  dsimp only at h
  split at h
  · rename_i hasync
    split at h
    · cases h
      refine ⟨.refl, ⟨s.encoder, p.encoderHits, rfl⟩, fun chunk hchunk => ?_⟩
      cases hchunk
      refine ⟨fun _ => rfl, fun hsync => ?_⟩
      rw [hasync] at hsync
      cases hsync
    · cases h
  rename_i hsync
  split at h
  · cases h
    exact ⟨.refl, ⟨s.encoder, p.encoderHits, rfl⟩, nofun⟩
  cases hnew : s.waitingNumNewTokens p (s.objs ref) a with
  | none =>
    rw [hnew] at h
    cases h
    exact ⟨.refl, ⟨s.encoder, p.encoderHits, rfl⟩, nofun⟩
  | some new =>
    obtain ⟨n, pad⟩ := new
    rw [hnew] at h
    dsimp only at h
    split at h
    · cases h
    rename_i hpos
    cases halign : s.alignWaiting (s.objs ref) a n pad with
    | none =>
      rw [halign] at h
      cases h
      exact ⟨.refl, ⟨s.encoder, p.encoderHits, rfl⟩, nofun⟩
    | some aligned =>
      obtain ⟨m, pad'⟩ := aligned
      rw [halign] at h
      have hbounds := alignWaiting_bounds (by omega)
        (waitingNumNewTokens_bounds (by omega) hnew) halign
      obtain ⟨schedule, y1, hencoder, h⟩ := bind_eq_ok.1 h
      obtain ⟨hsteps, ⟨e, hits, hy1⟩, hle⟩ := scheduleEncoderInputs_steps inp .waiting hqueued hencoder
      split at h
      · cases h
        exact ⟨hsteps, ⟨e, hits, hy1⟩, nofun⟩
      · rename_i hne
        cases h
        refine ⟨hsteps, ⟨e, hits, hy1⟩, fun chunk hchunk => ?_⟩
        cases hchunk
        have hreserve := s.config.reservePrefillLookahead_le (s.objs ref)
          a.numComputedTokens schedule.numNewTokens
        have hnonneg := s.config.reservePrefillLookahead_nonneg (s.objs ref)
          a.numComputedTokens schedule.numNewTokens
        refine ⟨fun hasync => absurd hasync hsync, fun _ => ⟨?_, fun hord => hbounds.mono ?_⟩⟩
        · show 0 < Int.toNat _
          omega
        · have hcut := hle hord
          show ((Int.toNat _ : ℕ) : ℤ) ≤ m
          omega

omit [KvCache H K] in
/-- A request that does not have to wait has no output in flight that is delivered. -/
lemma stale_of_mustWait {r : Request H} (h : s.mustWait p r = false) :
    r.numStaleOutputTokens ≤ 0 ∨ r.dropStaleOutput = true := by
  unfold mustWait at h
  rw [Bool.or_eq_false_iff, Bool.and_eq_false_iff] at h
  rcases h.1 with hstale | hdrop
  · exact .inl (not_lt.1 (of_decide_eq_false hstale))
  · exact .inr (by simpa using hdrop)

/-- A request that was admitted is in the variables of the call. -/
lemma contains_enterAdmitted {resumed : Bool} :
    (enterAdmitted which ref a chunk resumed (s, p)).2.numScheduledTokens.contains
      ((enterAdmitted which ref a chunk resumed (s, p)).1.objs ref).requestId = true := by
  have hid : ((enterAdmitted which ref a chunk resumed (s, p)).1.objs ref).requestId =
      (s.objs ref).requestId := by
    cases which with
    | waiting | skipped => simp [enterAdmitted, popWaiting, Request.setRunning]
  rw [hid]
  exact Dict.contains_set_self _ _ _

section

variable (hfront : s.frontWaiting = some (which, ref))

include hfront

lemma allocateAndAdmit_steps (inp : ScheduleInput H) {a : Admission}
    (hcan : s.canAdmit p = true) (hunblocked : isBlockedWaitingStatus (s.objs ref).status = false)
    (hstale : (s.objs ref).numStaleOutputTokens ≤ 0 ∨ (s.objs ref).dropStaleOutput = true)
    (hadmission : AdmissionOf inp s ref a) (hasync : a.loadKvAsync = true → chunk.numNewTokens = 0)
    (hsync : a.loadKvAsync = false → 0 < chunk.numNewTokens ∧
      (FeaturesOrdered (s.objs ref).mmFeatures →
        WaitingBounds s p (s.objs ref) a chunk.numNewTokens chunk.padSpecDecode))
    (h : allocateAndAdmit which ref a chunk (s, p) = .ok more y) :
    PassSteps inp .waiting (s, p) y := by
  have hqueued := queued_of_frontWaiting hfront
  rw [allocateAndAdmit, bind_get] at h
  obtain ⟨reserved, y1, hreserved, h1⟩ := bind_eq_ok.1 h
  obtain ⟨-, rfl⟩ := liftPy_eq_ok.1 hreserved
  obtain ⟨newBlocks, y2, halloc, h2⟩ := bind_eq_ok.1 h1
  obtain ⟨k, hk, rfl⟩ := onSched_onKv_eq_ok halloc
  cases newBlocks with
  | none =>
    have hrefuse : PassStep inp .waiting (s, p) ({ s with kv := k }, p) := .refuse hqueued hk
    dsimp only at h2
    split at h2
    · obtain ⟨_, y3, hfree, h3⟩ := bind_eq_ok.1 h2
      obtain ⟨e, he, rfl⟩ := onSched_onEncoder_eq_ok hfree
      cases h3
      exact (ReflTransGen.single hrefuse).tail (.dropInputs (s := { s with kv := k }) hqueued he)
    · cases h2
      exact .single hrefuse
  | some blocks =>
    obtain ⟨_, y3, hadmit, h3⟩ := bind_eq_ok.1 h2
    cases h3
    rw [admitRequest, bind_get] at hadmit
    dsimp only at hadmit
    cases hload : a.loadKvAsync with
    | true =>
      rw [hload, if_pos rfl] at hadmit
      cases hadmit
      exact .single (.load hfront hunblocked hadmission hload (hasync hload) hstale hk)
    | false =>
      rw [hload, if_neg Bool.false_ne_true] at hadmit
      split at hadmit
      · cases hadmit
      rename_i hpadded
      have hchunk : WaitingChunk s p ref a chunk := by
        refine ⟨(hsync hload).1, (hsync hload).2, fun hpad => ?_⟩
        by_contra hne
        exact hpadded ⟨hpad, hne⟩
      have hadmitted : ∀ resumed, (s.objs ref).status = (if resumed then .preempted else .waiting) →
          allocateEncoderInputs ref chunk.schedule
            (enterAdmitted which ref a chunk resumed ({ s with kv := k }, p)) = .ok () y →
          PassSteps inp .waiting (s, p) y := by
        intro resumed hstatus hencode
        have hadmit : PassStep inp .waiting (s, p)
            (enterAdmitted which ref a chunk resumed ({ s with kv := k }, p)) :=
          .admitted hfront hcan hstatus hadmission hload hchunk hstale hk
        exact (ReflTransGen.single hadmit).trans (allocateEncoderInputs_steps inp .waiting
          (List.mem_append_right _ (List.mem_singleton.2 rfl))
          contains_enterAdmitted hencode)
      cases hstatus : (s.objs ref).status with
      | waiting =>
        rw [hstatus] at hadmit
        exact hadmitted false hstatus hadmit
      | preempted =>
        rw [hstatus] at hadmit
        exact hadmitted true hstatus hadmit
      | _ =>
        rw [hstatus] at hadmit
        cases hadmit

lemma skipWaiting_steps (inp : ScheduleInput H) (h : skipWaiting which ref (s, p) = .ok more y) :
    PassSteps inp .waiting (s, p) y := by
  cases h
  exact .single (.skip hfront)

lemma scheduleWaiting_steps
    (hcan : s.canAdmit p = true) (hunblocked : isBlockedWaitingStatus (s.objs ref).status = false)
    (hstale : (s.objs ref).numStaleOutputTokens ≤ 0 ∨ (s.objs ref).dropStaleOutput = true)
    (h : scheduleWaiting inp which ref (s, p) = .ok more y) :
    PassSteps inp .waiting (s, p) y := by
  obtain ⟨res, y1, hfind, h⟩ := bind_eq_ok.1 h
  obtain ⟨hsteps1, ⟨boundary, rfl⟩, hadmission⟩ := findAdmission_steps hfront hfind
  set s₁ := s.modifyReq ref fun r => { r with sharedPrefixBoundary := boundary } with hs1
  have hsame : SameQueues s s₁ := .modifyReq s ref fun _ => rfl
  have hfront1 := hsame.frontWaiting.trans hfront
  have hrequest : s₁.objs ref = { s.objs ref with sharedPrefixBoundary := boundary } := by
    rw [hs1, modifyReq_objs_self]
  cases res with
  | none =>
    exact hsteps1.trans (skipWaiting_steps hfront1 inp h)
  | some a =>
    obtain ⟨res2, y2, hchunk, h⟩ := bind_eq_ok.1 h
    obtain ⟨hsteps2, ⟨e, hits, rfl⟩, hbounds⟩ :=
      findChunk_steps inp (queued_of_frontWaiting hfront1) hchunk
    cases res2 with
    | none =>
      cases h
      exact hsteps1.trans hsteps2
    | some chunk =>
      obtain ⟨hasync, hsync⟩ := hbounds chunk rfl
      have hsame2 : SameQueues s₁ { s₁ with encoder := e } :=
        ⟨rfl, rfl, rfl, rfl, rfl, fun _ => rfl⟩
      have hcan2 : ({ s₁ with encoder := e } : Scheduler H K).canAdmit
          { p with encoderHits := hits } = true := by
        rw [hsame2.canAdmit, hsame.canAdmit]
        exact hcan
      have hunblocked1 : isBlockedWaitingStatus (s₁.objs ref).status = false := by
        rw [hrequest]
        exact hunblocked
      have hstale1 :
          (s₁.objs ref).numStaleOutputTokens ≤ 0 ∨ (s₁.objs ref).dropStaleOutput = true := by
        rw [hrequest]
        exact hstale
      have hadmitted : AdmissionOf inp { s₁ with encoder := e } ref a := by
        cases hadmission a rfl with
        | found hzero hlookup hle => exact .found hzero hlookup hle
        | kept hne => exact .kept hne
      have hsync2 : a.loadKvAsync = false → 0 < chunk.numNewTokens ∧
          (FeaturesOrdered (s₁.objs ref).mmFeatures →
            WaitingBounds { s₁ with encoder := e } { p with encoderHits := hits } (s₁.objs ref) a
              chunk.numNewTokens chunk.padSpecDecode) := by
        intro hload
        refine ⟨(hsync hload).1, fun hord => ?_⟩
        obtain ⟨htokens, hinput, hunpadded, hpadded⟩ := (hsync hload).2 hord
        exact ⟨htokens, hinput, hunpadded, hpadded⟩
      have hsteps3 := allocateAndAdmit_steps (s := { s₁ with encoder := e })
        (p := { p with encoderHits := hits }) (hsame2.frontWaiting.trans hfront1) inp hcan2
        hunblocked1 hstale1 hadmitted hasync hsync2 h
      exact (hsteps1.trans hsteps2).trans hsteps3

lemma waitingRound_steps (hcan : s.canAdmit p = true)
    (h : waitingRound inp which ref (s, p) = .ok more y) :
    PassSteps inp .waiting (s, p) y := by
  obtain ⟨blocked, y1, hblocked, h⟩ := bind_eq_ok.1 h
  obtain ⟨s₁, hs1, rfl⟩ := onSched_eq_ok.1 hblocked
  obtain ⟨hsteps, hsame, hstatus⟩ := staysBlocked_steps (p := p) hfront hs1
  have hfront1 := hsame.frontWaiting.trans hfront
  cases blocked with
  | true =>
    exact hsteps.trans (skipWaiting_steps hfront1 inp h)
  | false =>
    rw [if_neg Bool.false_ne_true, bind_get] at h
    dsimp only at h
    split at h
    · exact hsteps.trans (skipWaiting_steps hfront1 inp h)
    · rename_i hwait
      exact hsteps.trans (scheduleWaiting_steps hfront1 ((hsame.canAdmit p).trans hcan)
        (hstatus rfl) (stale_of_mustWait (Bool.eq_false_of_not_eq_true hwait)) h)

end

lemma waitingLoop_steps (h : waitingLoop inp fuel x = .ok () y) : PassSteps inp .waiting x y := by
  induction fuel generalizing x with
  | zero =>
    cases h
    exact .refl
  | succ fuel ih =>
    obtain ⟨s, p⟩ := x
    rw [waitingLoop, bind_get] at h
    dsimp only at h
    cases hfront : s.frontWaiting with
    | none =>
      rw [hfront] at h
      cases h
      exact .refl
    | some front =>
      rw [hfront] at h
      dsimp only at h
      split at h
      · rename_i hcan
        obtain ⟨more, y1, hround, h⟩ := bind_eq_ok.1 h
        have hsteps := waitingRound_steps hfront hcan hround
        split at h
        · exact hsteps.trans (ih h)
        · cases h
          exact hsteps
      · cases h
        exact .refl

/-- The second loop runs if nothing was preempted, and ends with the requests that were set aside back
in their queue. -/
lemma scheduleWaitingRequests_steps (h : scheduleWaitingRequests inp x = .ok () y) :
    y = x ∨ x.2.preemptedReqs = [] ∧ ∃ z, PassSteps inp .waiting x z ∧ y = requeueSkipped z := by
  rw [scheduleWaitingRequests, bind_get] at h
  dsimp only at h
  split at h
  · rename_i hnone
    obtain ⟨_, z, hloop, h⟩ := bind_eq_ok.1 h
    cases h
    exact .inr ⟨hnone.1, z, waitingLoop_steps hloop, rfl⟩
  · cases h
    exact .inl rfl

lemma recordLoras_steps (h : recordLoras x = .ok () y) : PassSteps inp .running x y := by
  obtain ⟨s, p⟩ := x
  rw [recordLoras, bind_get] at h
  dsimp only at h
  cases hmax : s.config.maxLoras with
  | none =>
    rw [hmax] at h
    cases h
    exact .refl
  | some maxLoras =>
    rw [hmax] at h
    obtain ⟨_, y1, hcheck, hset⟩ := bind_eq_ok.1 h
    cases hset
    exact .single .loras

/-- **A call of `schedule` is a sequence of actions** of the first loop and, if nothing was preempted,
of the second. -/
theorem passes_phases (h : passes inp x = .ok () y) : ∃ mid, PassSteps inp .running x mid ∧
      (y = mid ∨ mid.2.preemptedReqs = [] ∧
        ∃ z, PassSteps inp .waiting mid z ∧ y = requeueSkipped z) := by
  rw [passes, bind_get] at h
  obtain ⟨_, y1, hrunning, h⟩ := bind_eq_ok.1 h
  obtain ⟨_, y2, hloras, h⟩ := bind_eq_ok.1 h
  exact ⟨y2, (runningLoop_steps inp hrunning).trans (recordLoras_steps hloras),
    scheduleWaitingRequests_steps h⟩

/-- The two loops from the start of a call to its closing assertions. -/
lemma schedulePass_phases (h : schedulePass inp s = .ok p s') :
    ∃ mid, PassSteps inp .running (s.startStep, s.startStep.initialPass inp) mid ∧
      ((s', p) = mid ∨ mid.2.preemptedReqs = [] ∧
        ∃ z, PassSteps inp .waiting mid z ∧ (s', p) = requeueSkipped z) := by
  rw [schedulePass, bind_modify, bind_get] at h
  obtain ⟨⟨_, p'⟩, s₁, hpass, hend⟩ := bind_eq_ok.1 h
  cases hend
  exact passes_phases (runPass_eq_ok.1 hpass)

lemma PassSteps.invariant {phase : Phase}
    (hstep : ∀ x y, PassStep inp phase x y → I x → I y) (h : PassSteps inp phase x y) (hx : I x) :
    I y := by
  induction h with
  | refl => exact hx
  | tail _ hlast ih => exact hstep _ _ hlast ih

/-- What holds when the loops start, and is kept by each action and by putting the requests that were
set aside back, holds at the closing assertions. -/
lemma schedulePass_invariant (hstep : ∀ phase x y, PassStep inp phase x y → I x → I y)
    (hrequeue : ∀ x, I x → I (requeueSkipped x))
    (hinit : I (s.startStep, s.startStep.initialPass inp)) (h : schedulePass inp s = .ok p s') :
    I (s', p) := by
  obtain ⟨mid, hrunning, hend⟩ := schedulePass_phases h
  have hmid := PassSteps.invariant (hstep .running) hrunning hinit
  rcases hend with hend | ⟨-, z, hwaiting, hend⟩
  · rw [hend]
    exact hmid
  · rw [hend]
    exact hrequeue z (PassSteps.invariant (hstep .waiting) hwaiting hmid)

end Scheduler

end Lvllm
