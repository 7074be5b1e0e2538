import Lvllm.Sched.QueueRuns

/-!
# The budgets of a call of `schedule`

The two loops take the tokens of each chunk from two budgets, and give those of a withdrawn request
back.  `BudgetInv` is what holds between the actions of the loops: the chunks and what is left of the
budgets add up, a chunk is not empty and ends within the length of the model, and the scheduled
requests are different running ones.

The position of a running request is cut at the length of the model, and that of a waiting one is
not: it ends at the last known token.  `schedule_within_budgets` is about calls with requests that
fit the model.  A streaming session can outgrow it, as `session_scheduled_past_model` shows.
-/

namespace Lvllm

open List Nat

variable {H K : Type}

/-- The requests that are scheduled in a call. -/
def Pass.scheduled (p : Pass) : List Ref :=
  p.scheduledNewReqs ++ p.scheduledResumedReqs ++ p.scheduledRunningReqs

/-- What a call has booked so far: its budgets and what it scheduled. -/
def Pass.booked (p : Pass) :=
  (p.tokenBudget, p.inputBudget, p.numScheduledTokens, p.scheduledSpecDecodeTokens,
    p.scheduledNewReqs, p.scheduledResumedReqs, p.scheduledRunningReqs)

namespace Scheduler

/-- The tokens of the tracked requests fit the model, and their features stand in order. -/
def SizesOk (s : Scheduler H K) : Prop :=
  ∀ x ∈ s.requests.entries,
    (s.objs x.2).numTokens ≤ s.config.maxModelLen ∧ FeaturesOrdered (s.objs x.2).mmFeatures

instance decidableSizesOk (s : Scheduler H K) : Decidable s.SizesOk :=
  inferInstanceAs (Decidable (∀ x ∈ s.requests.entries, _ ∧ List.Pairwise _ _))

variable {s s' : Scheduler H K} {ref victim : Ref} {inp : ScheduleInput H}
  {x y : Scheduler H K × Pass} {budget : ℤ}

variable {reqId : String} {p p' : Pass} {i n : ℕ}

lemma SizesOk.of_tracked (h : s.SizesOk) (href : s.requests.get? reqId = some ref) :
    (s.objs ref).numTokens ≤ s.config.maxModelLen ∧ FeaturesOrdered (s.objs ref).mmFeatures :=
  h (reqId, ref) (Dict.get?_eq_some.1 href)

/-- What holds of a scheduled chunk: it has tokens, it ends within the length of the model, and its
drafts stand behind the tokens that have to be computed.  A running request also computes its
placeholders. -/
structure EntryOk (s : Scheduler H K) (p : Pass) (reqId : String) (ref : Ref) (n : ℕ) : Prop where
  pos : 0 < n
  position : (s.objs ref).numComputedTokens + n ≤ s.config.maxModelLen
  drafts : ∀ spec, p.scheduledSpecDecodeTokens.get? reqId = some spec →
    (spec.length : ℤ) ≤ n - ((s.objs ref).numTokens - (s.objs ref).numComputedTokens +
      if ref ∈ p.scheduledRunningReqs then (s.objs ref).numOutputPlaceholders else 0)

/-- A chunk stays in order when its request object, its drafts and its side do not change. -/
lemma EntryOk.congr (h : EntryOk s p reqId ref n)
    (hobjs : s'.objs ref = s.objs ref) (hconfig : s'.config = s.config)
    (hdrafts : p'.scheduledSpecDecodeTokens.get? reqId = p.scheduledSpecDecodeTokens.get? reqId)
    (hmem : ref ∈ p'.scheduledRunningReqs ↔ ref ∈ p.scheduledRunningReqs) :
    EntryOk s' p' reqId ref n := by
  refine ⟨h.pos, ?_, ?_⟩
  · rw [hobjs, hconfig]
    exact h.position
  · rw [hobjs, hdrafts, if_congr hmem rfl rfl]
    exact h.drafts

/-- What holds between the actions of a call that may schedule `budget` tokens. -/
structure BudgetInv (budget : ℤ) (s : Scheduler H K) (p : Pass) : Prop where
  queues : QueueInv s p.stepSkippedWaiting
  sizes : s.SizesOk
  tokens : (p.numScheduledTokens.sum id : ℤ) + p.tokenBudget = budget
  input : ((p.numScheduledTokens.sum id + s.config.draftSlots * p.numScheduledTokens.size : ℕ) : ℤ) +
    p.inputBudget = s.config.maxNumBatchedTokens
  tokenBudget : 0 ≤ p.tokenBudget
  inputBudget : 0 ≤ p.inputBudget
  nodup : p.scheduled.Nodup
  running : ∀ ref ∈ p.scheduled, ref ∈ s.running
  /-- The running loop has passed the running requests that are scheduled. -/
  behind : ∀ ref ∈ p.scheduledRunningReqs, ∃ j < p.reqIndex, s.running[j]? = some ref
  entries : ∀ reqId n, p.numScheduledTokens.get? reqId = some n →
    ∃ ref ∈ p.scheduled, s.requests.get? reqId = some ref ∧ EntryOk s p reqId ref n
  drafts : ∀ reqId, p.numScheduledTokens.get? reqId = none →
    p.scheduledSpecDecodeTokens.get? reqId = none

/-- The part of `BudgetInv` that holds after every action, and what no action changes. -/
structure StepFrame (s s' : Scheduler H K) (p' : Pass) : Prop where
  queues : QueueInv s' p'.stepSkippedWaiting
  sizes : s'.SizesOk
  config : s'.config = s.config
  requests : s'.requests = s.requests

namespace BudgetInv

variable {budget : ℤ} {s s' : Scheduler H K} {p p' : Pass}

/-- An action that changes nothing of what is scheduled. -/
lemma frame (h : BudgetInv budget s p) (hframe : StepFrame s s' p')
    (hrunning : ∀ ref ∈ p.scheduled, ref ∈ s'.running)
    (hobjs : ∀ ref ∈ p.scheduled, s'.objs ref = s.objs ref)
    (hbehind : ∀ ref ∈ p.scheduledRunningReqs, ∃ j < p'.reqIndex, s'.running[j]? = some ref)
    (hp : p'.booked = p.booked) : BudgetInv budget s' p' := by
  simp only [Pass.booked, Prod.mk.injEq] at hp
  obtain ⟨htokenBudget, hinputBudget, htokens, hdrafts, hnew, hresumed, hrun⟩ := hp
  have hscheduled : p'.scheduled = p.scheduled := by
    rw [Pass.scheduled, hnew, hresumed, hrun, Pass.scheduled]
  refine ⟨hframe.queues, hframe.sizes, ?_, ?_, ?_, ?_, ?_, ?_, ?_, ?_, ?_⟩
  · rw [htokens, htokenBudget]
    exact h.tokens
  · rw [htokens, hframe.config, hinputBudget]
    exact h.input
  · rw [htokenBudget]
    exact h.tokenBudget
  · rw [hinputBudget]
    exact h.inputBudget
  · rw [hscheduled]
    exact h.nodup
  · rw [hscheduled]
    exact hrunning
  · rw [hrun]
    exact hbehind
  · rw [htokens, hscheduled, hframe.requests]
    intro reqId n hget
    obtain ⟨ref, hmem, href, hentry⟩ := h.entries reqId n hget
    exact ⟨ref, hmem, href,
      hentry.congr (hobjs ref hmem) hframe.config (by rw [hdrafts]) (by rw [hrun])⟩
  · rw [htokens, hdrafts]
    exact h.drafts

/-- A request that is not scheduled yet has no entry. -/
lemma fresh (h : BudgetInv budget s p) (href : s.requests.get? reqId = some ref)
    (hnew : ref ∉ p.scheduled) :
    p.numScheduledTokens.get? reqId = none := by
  cases hget : p.numScheduledTokens.get? reqId with
  | none => rfl
  | some n =>
    obtain ⟨ref', hmem, href', -⟩ := h.entries reqId n hget
    rw [href] at href'
    cases href'
    exact absurd hmem hnew

lemma enter (h : BudgetInv budget s p) (href : s.requests.get? reqId = some ref)
    (hnew : ref ∉ p.scheduled) (hframe : StepFrame s s' p')
    (hothers : ∀ r, r ≠ ref → s'.objs r = s.objs r)
    (hrunning : ∀ r, r ∈ s.running ∨ r = ref → r ∈ s'.running)
    (hperm : p'.scheduled.Perm (ref :: p.scheduled))
    (hmem : ∀ r, r ≠ ref → (r ∈ p'.scheduledRunningReqs ↔ r ∈ p.scheduledRunningReqs))
    (hbehind : ∀ r ∈ p'.scheduledRunningReqs, ∃ j < p'.reqIndex, s'.running[j]? = some r)
    (htokens : p'.numScheduledTokens = p.numScheduledTokens.set reqId n)
    (htokenBudget : p'.tokenBudget = p.tokenBudget - n)
    (hinputBudget : p'.inputBudget = p.inputBudget - (n + s.config.draftSlots))
    (hle : (n : ℤ) ≤ p.tokenBudget) (hle' : (n : ℤ) + s.config.draftSlots ≤ p.inputBudget)
    (hdrafts : ∀ reqId', reqId' ≠ reqId →
      p'.scheduledSpecDecodeTokens.get? reqId' = p.scheduledSpecDecodeTokens.get? reqId')
    (hentry : EntryOk s' p' reqId ref n) : BudgetInv budget s' p' := by
  have hfresh := h.fresh href hnew
  have hsum : p'.numScheduledTokens.sum id = p.numScheduledTokens.sum id + n := by
    have := p.numScheduledTokens.sum_set reqId n id
    rw [hfresh] at this
    rw [htokens]
    exact this
  have hsize : p'.numScheduledTokens.size = p.numScheduledTokens.size + 1 := by
    have := p.numScheduledTokens.sum_set reqId n fun _ => 1
    rw [hfresh] at this
    rw [Dict.size_eq_sum, Dict.size_eq_sum, htokens]
    exact this
  have hinput := h.input
  have hold := h.tokens
  refine ⟨hframe.queues, hframe.sizes, ?_, ?_, ?_, ?_, ?_, ?_, hbehind, ?_, ?_⟩
  · rw [hsum, htokenBudget]
    push_cast
    omega
  · rw [hsum, hsize, hinputBudget, hframe.config, mul_succ]
    push_cast at hinput ⊢
    omega
  · omega
  · omega
  · exact hperm.nodup_iff.2 (nodup_cons.2 ⟨hnew, h.nodup⟩)
  · intro r hr
    rcases mem_cons.1 (hperm.mem_iff.1 hr) with rfl | hr
    · exact hrunning _ (.inr rfl)
    · exact hrunning _ (.inl (h.running r hr))
  · intro reqId' m hget
    rw [htokens] at hget
    by_cases heq : reqId' = reqId
    · subst heq
      rw [Dict.get?_set_self] at hget
      cases hget
      refine ⟨ref, hperm.mem_iff.2 mem_cons_self, ?_, hentry⟩
      rw [hframe.requests]
      exact href
    · rw [Dict.get?_set_ne _ heq] at hget
      obtain ⟨r, hr, hrget, hrentry⟩ := h.entries reqId' m hget
      have hne : r ≠ ref := fun hsame => hnew (hsame ▸ hr)
      refine ⟨r, hperm.mem_iff.2 (mem_cons_of_mem _ hr), ?_,
        hrentry.congr (hothers r hne) hframe.config (hdrafts reqId' heq) (hmem r hne)⟩
      rw [hframe.requests]
      exact hrget
  · intro reqId' hget
    rw [htokens] at hget
    have hne : reqId' ≠ reqId := by
      rintro rfl
      rw [Dict.get?_set_self] at hget
      cases hget
    rw [Dict.get?_set_ne _ hne] at hget
    rw [hdrafts reqId' hne]
    exact h.drafts reqId' hget

/-- A request leaves the call, and its tokens go back to the budgets. -/
lemma leave {victim : Ref} {restored : ℕ} (h : BudgetInv budget s p) (hframe : StepFrame s s' p')
    (hrestored : p.numScheduledTokens.get? (s.objs victim).requestId = some restored)
    (hothers : ∀ r, r ≠ victim → s'.objs r = s.objs r)
    (hscheduled : p'.scheduled = p.scheduled.erase victim)
    (hmem : ∀ r, r ≠ victim → (r ∈ p'.scheduledRunningReqs ↔ r ∈ p.scheduledRunningReqs))
    (hrunning : ∀ r ∈ p.scheduled, r ≠ victim → r ∈ s'.running)
    (hbehind : ∀ r ∈ p'.scheduledRunningReqs, ∃ j < p'.reqIndex, s'.running[j]? = some r)
    (htokens : p'.numScheduledTokens = p.numScheduledTokens.erase (s.objs victim).requestId)
    (hdrafts : p'.scheduledSpecDecodeTokens =
      p.scheduledSpecDecodeTokens.erase (s.objs victim).requestId)
    (htokenBudget : p'.tokenBudget = p.tokenBudget + restored)
    (hinputBudget : p'.inputBudget = p.inputBudget + (restored + s.config.draftSlots)) :
    BudgetInv budget s' p' := by
  have hsum : p'.numScheduledTokens.sum id + restored = p.numScheduledTokens.sum id := by
    have := p.numScheduledTokens.sum_erase (s.objs victim).requestId id
    rw [hrestored] at this
    rw [htokens]
    exact this
  have hsize : p'.numScheduledTokens.size + 1 = p.numScheduledTokens.size := by
    have := p.numScheduledTokens.sum_erase (s.objs victim).requestId fun _ => 1
    rw [hrestored] at this
    rw [Dict.size_eq_sum, Dict.size_eq_sum, htokens]
    exact this
  have hleft : ∀ r, r ∈ p'.scheduled ↔ r ≠ victim ∧ r ∈ p.scheduled := fun r => by
    rw [hscheduled, h.nodup.mem_erase_iff]
  have hinput := h.input
  have hold := h.tokens
  refine ⟨hframe.queues, hframe.sizes, ?_, ?_, ?_, ?_, hscheduled ▸ h.nodup.erase victim,
    fun r hr => hrunning r ((hleft r).1 hr).2 ((hleft r).1 hr).1, hbehind, ?_, ?_⟩
  · omega
  · rw [hframe.config, ← hinput, ← hsum, ← hsize, hinputBudget, mul_succ]
    omega
  · rw [htokenBudget]
    exact Int.add_nonneg h.tokenBudget (Int.natCast_nonneg _)
  · rw [hinputBudget]
    exact Int.add_nonneg h.inputBudget (by omega)
  · intro reqId n hget
    rw [htokens] at hget
    have hid : reqId ≠ (s.objs victim).requestId := by
      rintro rfl
      rw [Dict.get?_erase_self] at hget
      cases hget
    rw [Dict.get?_erase_ne _ hid] at hget
    obtain ⟨r, hr, href, hentry⟩ := h.entries reqId n hget
    have hne : r ≠ victim := by
      rintro rfl
      exact hid (h.queues.tracked reqId r href).1.symm
    refine ⟨r, (hleft r).2 ⟨hne, hr⟩, hframe.requests ▸ href, hentry.congr (hothers r hne)
      hframe.config ?_ (hmem r hne)⟩
    rw [hdrafts, Dict.get?_erase_ne _ hid]
  · intro reqId hget
    rw [htokens] at hget
    rw [hdrafts]
    by_cases hid : reqId = (s.objs victim).requestId
    · rw [hid, Dict.get?_erase_self]
    · rw [Dict.get?_erase_ne _ hid] at hget ⊢
      exact h.drafts reqId hget

end BudgetInv

/-! ## The tokens of the requests -/

/-- A request object with the same tokens and features. -/
def SameContent (r r' : Request H) : Prop :=
  r'.allTokenIds = r.allTokenIds ∧ r'.mmFeatures = r.mmFeatures

lemma sameContent_modifyReq (s : Scheduler H K) (ref : Ref) (f : Request H → Request H)
    (hf : SameContent (s.objs ref) (f (s.objs ref))) (r : Ref) :
    SameContent (s.objs r) ((s.modifyReq ref f).objs r) := by
  by_cases heq : r = ref
  · subst heq
    rw [modifyReq_objs_self]
    exact hf
  · rw [modifyReq_objs_of_ne _ heq]
    exact ⟨rfl, rfl⟩

lemma sameContent_loadedRequest (failed : Bool) (r : Request H) :
    SameContent r (loadedRequest failed r) := by
  unfold loadedRequest
  split
  · exact ⟨rfl, rfl⟩
  · exact ⟨rfl, rfl⟩

lemma enterLoading_objs (which : WaitingQueue) (ref : Ref) (a : Admission) :
    (enterLoading which ref a x).1.objs = (x.1.modifyReq ref fun r => { r with
      status := .waitingForRemoteKvs, numComputedTokens := a.numComputedTokens }).objs := by
  simp [enterLoading, modifyReq]

variable [KvCache H K] {phase : Phase} {which : WaitingQueue}

lemma enterAdmitted_objs (which : WaitingQueue) (ref : Ref) (a : Admission) (chunk : Chunk)
    (resumed : Bool) : (enterAdmitted which ref a chunk resumed x).1.objs =
      (x.1.modifyReq ref (·.setRunning a.numComputedTokens)).objs := by
  simp [enterAdmitted, modifyReq]

/-- No action of `schedule` changes the tokens or the features of a request. -/
lemma PassStep.sameContent (h : PassStep inp phase x y) (r : Ref) :
    SameContent (x.1.objs r) (y.1.objs r) := by
  cases h with
  | look _ _ | next _ | refuse _ _ | encode _ _ _ | loras | grammarFailed _ _ | dropInputs _ _ =>
    exact ⟨rfl, rfl⟩
  | @preempt s _ _ _ victim i _ _ _ _ hpreempt =>
    obtain ⟨k, d, e, rfl⟩ := preemptRequest_frame hpreempt
    exact sameContent_modifyReq s victim (·.preempt s.config.requiresKvDelivery) ⟨rfl, rfl⟩ r
  | @run s _ ref _ _ _ _ _ =>
    exact sameContent_modifyReq s ref (fun r => { r with specTokenIds := [] }) ⟨rfl, rfl⟩ r
  | @grammarReady s _ _ ref _ _ =>
    exact sameContent_modifyReq s ref (fun r => { r with status := .waiting }) ⟨rfl, rfl⟩ r
  | @loaded s _ _ _ ref _ _ _ hsettle =>
    obtain ⟨k, rfl⟩ := settleRemoteKv_frame hsettle
    exact sameContent_modifyReq s ref _ (sameContent_loadedRequest _ _) r
  | skip _ =>
    dsimp only [setAside]
    rw [popWaiting_objs]
    exact ⟨rfl, rfl⟩
  | @boundary s _ _ ref boundary _ _ =>
    exact sameContent_modifyReq s ref (fun r => { r with sharedPrefixBoundary := boundary })
      ⟨rfl, rfl⟩ r
  | load _ _ _ _ _ _ _ =>
    rw [enterLoading_objs]
    exact sameContent_modifyReq _ _ _ ⟨rfl, rfl⟩ r
  | admitted _ _ _ _ _ _ _ _ =>
    rw [enterAdmitted_objs]
    exact sameContent_modifyReq _ _ _ ⟨rfl, rfl⟩ r

omit [KvCache H K] in
lemma SizesOk.of_sameContent (h : s.SizesOk) (hconfig : s'.config = s.config)
    (hrequests : s'.requests = s.requests) (hcontent : ∀ r, SameContent (s.objs r) (s'.objs r)) :
    s'.SizesOk := by
  intro x hx
  rw [hrequests] at hx
  obtain ⟨htokens, hfeatures⟩ := hcontent x.2
  rw [Request.numTokens, htokens, hfeatures, hconfig]
  exact h x hx

/-! ## The actions -/

lemma BudgetInv.stepFrame (h : BudgetInv budget s p)
    (hstep : PassStep inp phase (s, p) (s', p')) : StepFrame s s' p' :=
  have hchange := hstep.queueChange h.queues
  ⟨hchange.queueInv h.queues,
    h.sizes.of_sameContent hchange.config hchange.requests hstep.sameContent, hchange.config,
    hchange.requests⟩

/-- The actions that change neither the running queue nor a running request, nor what is
scheduled. -/
lemma BudgetInv.quiet (h : BudgetInv budget s p)
    (hstep : PassStep inp phase (s, p) (s', p')) (hrunning : s'.running = s.running)
    (hobjs : ∀ ref ∈ s.running, s'.objs ref = s.objs ref) (hp : p'.booked = p.booked)
    (hindex : p.reqIndex ≤ p'.reqIndex) : BudgetInv budget s' p' :=
  h.frame (h.stepFrame hstep) (fun ref hmem => hrunning ▸ h.running ref hmem)
    (fun ref hmem => hobjs ref (h.running ref hmem))
    (fun ref hmem => by
      obtain ⟨j, hj, hget⟩ := h.behind ref hmem
      exact ⟨j, hj.trans_le hindex, hrunning ▸ hget⟩) hp

omit [KvCache H K] in
/-- A waiting request is not a running one. -/
lemma QueueInv.ne_front {aside : List Ref} {r : Ref} (h : QueueInv s aside)
    (hfront : s.frontWaiting = some (which, ref)) (hr : r ∈ s.running) :
    r ≠ ref :=
  fun heq => h.front_not_running hfront (heq ▸ hr)

omit [KvCache H K] in
/-- The drafts of a chunk of a running request. -/
lemma length_specTokensOf_le {r : Request H} (h : specTokensOf r n ≠ []) :
    ((specTokensOf r n).length : ℤ) ≤
      n - (r.numTokens - r.numComputedTokens + r.numOutputPlaceholders) := by
  unfold specTokensOf at h ⊢
  dsimp only at h ⊢
  have hpos : 0 < ((n : ℤ) + r.numComputedTokens - r.numTokens - r.numOutputPlaceholders).toNat := by
    rcases Nat.eq_zero_or_pos
      ((n : ℤ) + r.numComputedTokens - r.numTokens - r.numOutputPlaceholders).toNat with hzero | hpos
    · rw [hzero, take_zero] at h
      exact absurd rfl h
    · exact hpos
  rw [length_take]
  omega

lemma BudgetInv.run {blocks : List (List ℕ)} {k : K} (h : BudgetInv budget s p)
    (hphase : p.scheduledNewReqs = [] ∧ p.scheduledResumedReqs = [])
    (hchunk : RunningChunk s p ref n) (hx : x = enterRunning ref n blocks ({ s with kv := k }, p))
    (hstep : PassStep inp .running (s, p) x) : BudgetInv budget x.1 x.2 := by
  have hmem : ref ∈ s.running := mem_of_getElem? hchunk.cursor
  have hqueued := h.queues.queued ref (mem_append_left _ hmem)
  have hnodup : s.running.Nodup := (nodup_append.1 h.queues.nodup).1
  have hnotBehind : ref ∉ p.scheduledRunningReqs := by
    intro hin
    obtain ⟨j, hj, hget⟩ := h.behind ref hin
    have hlt := (List.getElem?_eq_some_iff.1 hget).1
    exact Nat.ne_of_lt hj ((getElem?_inj hlt hnodup).1 (hget.trans hchunk.cursor.symm))
  have hnew : ref ∉ p.scheduled := by
    rw [Pass.scheduled, hphase.1, hphase.2]
    exact hnotBehind
  obtain ⟨-, hfeatures⟩ := h.sizes.of_tracked hqueued.1
  have hcap := hchunk.cap hfeatures
  unfold runningCap at hcap
  have hself : x.1.objs ref = { s.objs ref with specTokenIds := [] } := by
    rw [hx]
    exact Function.update_self _ _ _
  have hin : ref ∈ x.2.scheduledRunningReqs := by
    rw [hx]
    exact mem_append_right _ (mem_singleton.2 rfl)
  subst hx
  refine h.enter hqueued.1 hnew (h.stepFrame hstep) (fun r hne => Function.update_of_ne hne _ _)
    ?_ ?_ ?_ ?_ rfl rfl rfl ?_ ?_ ?_ ⟨hchunk.pos, ?_, ?_⟩
  · rintro r (hr | rfl)
    · exact hr
    · exact hmem
  · show (p.scheduledNewReqs ++ p.scheduledResumedReqs ++ (p.scheduledRunningReqs ++ [ref])).Perm _
    rw [← append_assoc]
    exact perm_append_singleton _ _
  · intro r hne
    show r ∈ p.scheduledRunningReqs ++ [ref] ↔ _
    rw [mem_append, mem_singleton]
    exact or_iff_left hne
  · intro r hr
    rcases mem_append.1 hr with hr | hr
    · obtain ⟨j, hj, hget⟩ := h.behind r hr
      exact ⟨j, lt_succ_of_lt hj, hget⟩
    · rw [mem_singleton.1 hr]
      exact ⟨p.reqIndex, lt_succ_self _, hchunk.cursor⟩
  · omega
  · omega
  · intro reqId' hne
    show Dict.get? (if (specTokensOf (s.objs ref) n).isEmpty then p.scheduledSpecDecodeTokens
      else p.scheduledSpecDecodeTokens.set (s.objs ref).requestId (specTokensOf (s.objs ref) n))
        reqId' = _
    split
    · rfl
    · rw [Dict.get?_set_ne _ hne]
  · show ((s.modifyReq ref fun r => { r with specTokenIds := [] }).objs ref).numComputedTokens + n ≤
      s.config.maxModelLen
    rw [modifyReq_objs_self]
    dsimp only
    omega
  · intro spec hspec
    rw [hself, if_pos hin]
    have hget : Dict.get? (if (specTokensOf (s.objs ref) n).isEmpty then p.scheduledSpecDecodeTokens
        else p.scheduledSpecDecodeTokens.set (s.objs ref).requestId (specTokensOf (s.objs ref) n))
        (s.objs ref).requestId = some spec := hspec
    split at hget
    · rw [h.drafts _ (h.fresh hqueued.1 hnew)] at hget
      cases hget
    · rename_i hnonempty
      rw [Dict.get?_set_self] at hget
      cases hget
      refine length_specTokensOf_le fun hempty => hnonempty ?_
      rw [hempty]
      rfl

lemma BudgetInv.admitted {a : Admission} {chunk : Chunk} {resumed : Bool}
    {k : K} (h : BudgetInv budget s p)
    (hfront : s.frontWaiting = some (which, ref)) (hchunk : WaitingChunk s p ref a chunk)
    (hx : x = enterAdmitted which ref a chunk resumed ({ s with kv := k }, p))
    (hstep : PassStep inp .waiting (s, p) x) : BudgetInv budget x.1 x.2 := by
  have hnotRunning : ref ∉ s.running := h.queues.front_not_running hfront
  have hqueued := h.queues.queued ref (mem_allQueued.2 (.inl (queued_of_frontWaiting hfront)))
  have hnew : ref ∉ p.scheduled := fun hmem => hnotRunning (h.running ref hmem)
  have hnotIn : ref ∉ x.2.scheduledRunningReqs := by
    rw [hx]
    exact fun hmem => hnew (mem_append_right _ hmem)
  obtain ⟨hsize, hfeatures⟩ := h.sizes.of_tracked hqueued.1
  have hbounds := hchunk.bounds hfeatures
  have htokens := hbounds.tokens
  have hinput := hbounds.input
  have hobjs : x.1.objs = (s.modifyReq ref (·.setRunning a.numComputedTokens)).objs := by
    rw [hx, enterAdmitted_objs]
    rfl
  have hrunning : x.1.running = s.running ++ [ref] := by simp [hx, enterAdmitted, modifyReq]
  have hconfig : x.1.config = s.config := (h.stepFrame hstep).config
  have hself : x.1.objs ref = (s.objs ref).setRunning a.numComputedTokens := by
    rw [hobjs, modifyReq_objs_self]
  have hpop : ((popWaiting { s with kv := k } which).modifyReq ref
      (·.setRunning a.numComputedTokens)).config = s.config := by
    simp [modifyReq]
  subst hx
  refine h.enter hqueued.1 hnew (h.stepFrame hstep) ?_ ?_ ?_ ?_ ?_ rfl rfl ?_ htokens hinput ?_
    ⟨hchunk.pos, ?_, ?_⟩
  · intro r hne
    rw [hobjs, modifyReq_objs_of_ne _ hne]
  · rintro r (hr | rfl)
    · rw [hrunning]
      exact mem_append_left _ hr
    · exact mem_append_right _ (mem_singleton.2 rfl)
  · cases resumed with
    | true =>
      show (p.scheduledNewReqs ++ (p.scheduledResumedReqs ++ [ref]) ++ p.scheduledRunningReqs).Perm _
      rw [← append_assoc]
      exact (perm_append_singleton _ _).append_right _
    | false =>
      exact ((perm_append_singleton _ _).append_right _).append_right _
  · exact fun r _ => Iff.rfl
  · intro r hr
    obtain ⟨j, hj, hget⟩ := h.behind r hr
    refine ⟨j, hj, ?_⟩
    rw [hrunning, getElem?_append_left (List.getElem?_eq_some_iff.1 hget).1]
    exact hget
  · show p.inputBudget - (chunk.numNewTokens + _) = _
    rw [hpop]
  · intro reqId' hne
    show Dict.get? (if chunk.padSpecDecode then _ else p.scheduledSpecDecodeTokens) reqId' = _
    split
    · rw [Dict.get?_set_ne _ hne]
    · rfl
  · rw [hself, hconfig]
    show a.numComputedTokens + chunk.numNewTokens ≤ s.config.maxModelLen
    cases hpad : chunk.padSpecDecode with
    | false =>
      have := hbounds.unpadded hpad
      omega
    | true =>
      obtain ⟨hn, -, hfits⟩ := hbounds.padded hpad
      omega
  · intro spec hspec
    rw [hself, if_neg hnotIn]
    have hget : Dict.get? (if chunk.padSpecDecode then
        p.scheduledSpecDecodeTokens.set (s.objs ref).requestId (List.replicate _ (-1))
        else p.scheduledSpecDecodeTokens) (s.objs ref).requestId = some spec := hspec
    split at hget
    · rename_i hpad
      rw [Dict.get?_set_self, hpop] at hget
      cases hget
      obtain ⟨-, hone, -⟩ := hbounds.padded hpad
      have hn := hchunk.padded hpad
      rw [length_replicate]
      show (s.config.numSpecTokens : ℤ) ≤
        chunk.numNewTokens - ((s.objs ref).numTokens - a.numComputedTokens + 0)
      omega
    · rw [h.drafts _ (h.fresh hqueued.1 hnew)] at hget
      cases hget

omit [KvCache H K] in
/-- A request behind the cursor stays behind it when another one is taken out. -/
lemma exists_lt_getElem?_eraseIdx {l : List Ref} {j index : ℕ} (hj : j < index)
    (hget : l[j]? = some ref) (hvictim : l[i]? = some victim) (hne : ref ≠ victim) :
    ∃ j' < if i < index then index - 1 else index, (l.eraseIdx i)[j']? = some ref := by
  have hji : j ≠ i := by
    rintro rfl
    rw [hget] at hvictim
    cases hvictim
    exact hne rfl
  rcases lt_or_gt_of_ne hji with hlt | hgt
  · refine ⟨j, ?_, ?_⟩
    · split
      · omega
      · exact hj
    · rw [getElem?_eraseIdx_of_lt hlt]
      exact hget
  · refine ⟨j - 1, ?_, ?_⟩
    · split
      · omega
      · omega
    · rw [getElem?_eraseIdx_of_ge (by omega), Nat.sub_add_cancel (by omega)]
      exact hget

omit [KvCache H K] in
/-- The request that is preempted first comes last, so it is not scheduled yet. -/
lemma BudgetInv.not_scheduled_of_last (h : BudgetInv budget s p)
    (hcursor : p.reqIndex < s.running.length) (hvictim : s.running[i]? = some victim)
    (hlast : i + 1 = s.running.length) :
    victim ∉ p.scheduledRunningReqs := by
  intro hmem
  obtain ⟨j, hj, hget⟩ := h.behind victim hmem
  have hnodup : s.running.Nodup := (nodup_append.1 h.queues.nodup).1
  have hlt := (List.getElem?_eq_some_iff.1 hget).1
  have heq := (getElem?_inj hlt hnodup).1 (hget.trans hvictim.symm)
  omega

/-- A running request is preempted, and withdrawn if it was scheduled. -/
lemma BudgetInv.preempt (h : BudgetInv budget s p)
    (hphase : p.scheduledNewReqs = [] ∧ p.scheduledResumedReqs = [])
    (hcursor : p.reqIndex < s.running.length) (hvictim : s.running[i]? = some victim)
    (hlast : s.config.policy = .fcfs → i + 1 = s.running.length) (hwithdrawal : Withdrawal s
      { p with reqIndex := if i < p.reqIndex then p.reqIndex - 1 else p.reqIndex } victim p')
    (hpreempt : preemptRequest victim s.config.requiresKvDelivery
      { s with running := s.running.eraseIdx i } = .ok () s') (hstep : PassStep inp .running (s, p)
      (s', { p' with preemptedReqs := p'.preemptedReqs ++ [victim] })) :
    BudgetInv budget s' { p' with preemptedReqs := p'.preemptedReqs ++ [victim] } := by
  have hframe := h.stepFrame hstep
  have hrunning : s'.running = s.running.eraseIdx i := by
    obtain ⟨k, d, e, rfl⟩ := preemptRequest_frame hpreempt
    rfl
  have hothers : ∀ r, r ≠ victim → s'.objs r = s.objs r := by
    intro r hne
    obtain ⟨k, d, e, rfl⟩ := preemptRequest_frame hpreempt
    exact Function.update_of_ne hne _ _
  have hstays : ∀ r ∈ p.scheduledRunningReqs, r ≠ victim → r ∈ s'.running := by
    intro r hr hne
    obtain ⟨j, hj, hget⟩ := h.behind r hr
    obtain ⟨j', -, hget'⟩ := exists_lt_getElem?_eraseIdx hj hget hvictim hne
    rw [hrunning]
    exact mem_of_getElem? hget'
  have hscheduled : p.scheduled = p.scheduledRunningReqs := by
    rw [Pass.scheduled, hphase.1, hphase.2]
    rfl
  cases hwithdrawal with
  | unscheduled hpriority =>
    have hnot : victim ∉ p.scheduledRunningReqs := by
      cases hpolicy : s.config.policy with
      | priority => exact hpriority hpolicy
      | fcfs => exact h.not_scheduled_of_last hcursor hvictim (hlast hpolicy)
    have hne : ∀ r ∈ p.scheduled, r ≠ victim := by
      rw [hscheduled]
      rintro r hr rfl
      exact hnot hr
    refine h.frame hframe (fun r hr => hstays r (hscheduled ▸ hr) (hne r hr))
      (fun r hr => hothers r (hne r hr)) (fun r hr => ?_) rfl
    obtain ⟨j, hj, hget⟩ := h.behind r hr
    rw [hrunning]
    exact exists_lt_getElem?_eraseIdx hj hget hvictim fun heq => hnot (heq ▸ hr)
  | scheduled _ _ hrestored _ _ =>
    have hnodup : p.scheduledRunningReqs.Nodup := hscheduled ▸ h.nodup
    refine h.leave hframe hrestored hothers ?_ (fun r hne => mem_erase_of_ne hne)
      (fun r hr hne => hstays r (hscheduled ▸ hr) hne) (fun r hr => ?_) rfl rfl rfl rfl
    · rw [hscheduled]
      show p.scheduledNewReqs ++ p.scheduledResumedReqs ++ p.scheduledRunningReqs.erase victim = _
      rw [hphase.1, hphase.2]
      rfl
    · have hr := hnodup.mem_erase_iff.1 hr
      obtain ⟨j, hj, hget⟩ := h.behind r hr.2
      rw [hrunning]
      exact exists_lt_getElem?_eraseIdx hj hget hvictim hr.1

lemma BudgetInv.runningStep (hstep : PassStep inp .running x y) (h : BudgetInv budget x.1 x.2)
    (hphase : x.2.scheduledNewReqs = [] ∧ x.2.scheduledResumedReqs = []) :
    BudgetInv budget y.1 y.2 ∧ y.2.scheduledNewReqs = [] ∧ y.2.scheduledResumedReqs = [] := by
  have hstep' := hstep
  have hsame : ∀ ref ∈ x.1.running, x.1.objs ref = x.1.objs ref := fun _ _ => rfl
  cases hstep with
  | look _ _ | refuse _ _ | encode _ _ _ | loras =>
    exact ⟨h.quiet hstep' rfl hsame rfl le_rfl, hphase⟩
  | next _ =>
    exact ⟨h.quiet hstep' rfl hsame rfl (le_succ _), hphase⟩
  | preempt hcursor hvictim hlast hwithdrawal hpreempt =>
    refine ⟨h.preempt hphase hcursor hvictim hlast hwithdrawal hpreempt hstep', ?_⟩
    cases hwithdrawal with
    | unscheduled _ | scheduled _ _ _ _ _ => exact hphase
  | run hchunk _ => exact ⟨h.run hphase hchunk rfl hstep', hphase⟩

lemma BudgetInv.waitingStep (hstep : PassStep inp .waiting x y) (h : BudgetInv budget x.1 x.2) :
    BudgetInv budget y.1 y.2 := by
  have hstep' := hstep
  have hsame : ∀ ref ∈ x.1.running, x.1.objs ref = x.1.objs ref := fun _ _ => rfl
  cases hstep with
  | look _ _ | refuse _ _ | encode _ _ _ | grammarFailed _ _ | dropInputs _ _ =>
    exact h.quiet hstep' rfl hsame rfl le_rfl
  | grammarReady hfront _ | boundary hfront _ =>
    exact h.quiet hstep' rfl (fun _ hr => Function.update_of_ne (h.queues.ne_front hfront hr) _ _)
      rfl le_rfl
  | loaded hfront _ _ hsettle =>
    obtain ⟨k, rfl⟩ := settleRemoteKv_frame hsettle
    exact h.quiet hstep' rfl (fun _ hr => Function.update_of_ne (h.queues.ne_front hfront hr) _ _)
      rfl le_rfl
  | @skip s p which ref _ =>
    refine h.quiet hstep' (popWaiting_running s which) ?_ rfl le_rfl
    intro r _
    show (s.popWaiting which).objs r = s.objs r
    rw [popWaiting_objs]
  | load hfront _ _ _ _ _ _ =>
    refine h.quiet hstep' ?_ ?_ rfl le_rfl
    · simp [enterLoading, modifyReq]
    · intro r hr
      rw [enterLoading_objs]
      exact Function.update_of_ne (h.queues.ne_front hfront hr) _ _
  | admitted hfront _ _ _ _ hchunk _ _ => exact h.admitted hfront hchunk rfl hstep'

lemma schedulePass_budgetInv (hs : QueueInv s []) (hsizes : s.SizesOk)
    (h : schedulePass inp s = .ok p s') :
    BudgetInv (s.startStep.initialPass inp).tokenBudget s' p := by
  have hstart : QueueFrame s s.startStep := .of_eq rfl
  have hinit : BudgetInv (s.startStep.initialPass inp).tokenBudget s.startStep
      (s.startStep.initialPass inp) := by
    refine ⟨(hstart.queueChange []).queueInv hs, hsizes, ?_, ?_, ?_, ?_, nodup_nil, nofun,
      nofun, nofun, fun _ _ => rfl⟩
    · exact Int.zero_add _
    · show ((0 + s.config.draftSlots * 0 : ℕ) : ℤ) + s.config.maxNumBatchedTokens = _
      simp [startStep]
    · unfold initialPass
      split
      · exact le_rfl
      · exact Int.natCast_nonneg _
    · exact Int.natCast_nonneg _
  obtain ⟨mid, hrunning, hend⟩ := schedulePass_phases h
  have hmid := PassSteps.invariant
    (I := fun x => BudgetInv (s.startStep.initialPass inp).tokenBudget x.1 x.2 ∧
      x.2.scheduledNewReqs = [] ∧ x.2.scheduledResumedReqs = [])
    (fun x y hstep hx => BudgetInv.runningStep hstep hx.1 hx.2) hrunning ⟨hinit, rfl, rfl⟩
  rcases hend with rfl | ⟨-, ⟨s1, p1⟩, hwaiting, hend⟩
  · exact hmid.1
  · have hz := PassSteps.invariant
      (I := fun x => BudgetInv (s.startStep.initialPass inp).tokenBudget x.1 x.2)
      (fun x y hstep hx => BudgetInv.waitingStep hstep hx) hwaiting hmid.1
    have hchange := queueChange_requeueSkipped s1 p1
    have hrequeued := hz.frame ⟨hchange.queueInv hz.queues, hz.sizes, rfl, rfl⟩ hz.running
      (fun _ _ => rfl) hz.behind rfl
    rw [← hend] at hrequeued
    exact hrequeued

end Scheduler

namespace Engine

open Scheduler

variable [KvCache H K] [DecidableEq H]

/-- **Scheduling budgets.**  In every state that calls lead to, if the tracked requests fit the model,
a call of `schedule` keeps to its budgets: every scheduled request gets tokens, ends within the length
of the model and has its drafts behind the tokens it has to compute, the totals keep to the two
limits, no more requests run than may, and the closing assertions hold.  The output has what the loops
scheduled. -/
theorem schedule_within_budgets {e : Engine H K} (h : Reachable (fun _ _ => True) e)
    (hsizes : e.sched.SizesOk) (inp : ScheduleInput H) (p : Pass) (s : Scheduler H K)
    (hpass : schedulePass inp e.sched = .ok p s) :
    (∀ reqId n, p.numScheduledTokens.get? reqId = some n →
      ∃ ref, s.requests.get? reqId = some ref ∧ 0 < n ∧
        (s.objs ref).numComputedTokens + n ≤ s.config.maxModelLen ∧
        ∀ spec, p.scheduledSpecDecodeTokens.get? reqId = some spec →
          (spec.length : ℤ) ≤ n - ((s.objs ref).numTokens - (s.objs ref).numComputedTokens +
            if ref ∈ p.scheduledRunningReqs then (s.objs ref).numOutputPlaceholders else 0)) ∧
      p.numScheduledTokens.sum id ≤ s.config.maxNumScheduledTokens ∧
      p.numScheduledTokens.sum id + s.config.draftSlots * p.numScheduledTokens.size ≤
        s.config.maxNumBatchedTokens ∧
      s.running.length ≤ s.config.maxNumRunningReqs ∧
      checkPass p s = .ok () s ∧
      ∀ out s', schedule inp e.sched = .ok (out, p) s' →
        out.numScheduledTokens = p.numScheduledTokens ∧
          out.scheduledSpecDecodeTokens = p.scheduledSpecDecodeTokens := by
  obtain ⟨hqueues, hrunning⟩ := h.queueInv
  have hinv := schedulePass_budgetInv hqueues hsizes hpass
  have hkept := schedulePass_keepsQueues hpass hqueues
  have hbounded : s.running.length ≤ s.config.maxNumRunningReqs := by
    rw [hkept.config]
    exact hkept.bounded hrunning
  have hbudget : (e.sched.startStep.initialPass inp).tokenBudget ≤ s.config.maxNumScheduledTokens := by
    rw [hkept.config]
    unfold initialPass
    split
    · exact Int.natCast_nonneg _
    · exact le_rfl
  have htotal : p.numScheduledTokens.sum id ≤ s.config.maxNumScheduledTokens := by
    have htokens := hinv.tokens
    have hleft := hinv.tokenBudget
    omega
  have hlength : p.scheduledNewReqs.length + p.scheduledResumedReqs.length +
      p.scheduledRunningReqs.length ≤ s.running.length := by
    have hsub := (subperm_of_subset hinv.nodup hinv.running).length_le
    rw [Pass.scheduled, length_append, length_append] at hsub
    exact hsub
  refine ⟨?_, htotal, ?_, hbounded, ?_, ?_⟩
  · intro reqId n hget
    obtain ⟨ref, -, href, hentry⟩ := hinv.entries reqId n hget
    exact ⟨ref, href, hentry.pos, hentry.position, hentry.drafts⟩
  · have hinput := hinv.input
    have hleft := hinv.inputBudget
    omega
  · have hleft := hinv.tokenBudget
    have hleft' := hinv.inputBudget
    simp [checkPass, check, bind_get, htotal, hleft, hleft', hbounded, hlength]
  · intro out s' hschedule
    obtain ⟨s1, hpass', -, hend⟩ := schedule_eq_ok hschedule
    rw [hpass] at hpass'
    cases hpass'
    have hend := hend hkept.queueInv.distinctRefs
    exact ⟨hend.scheduled, hend.drafts⟩

/-- Two requests of four and six tokens are scheduled in one call. -/
theorem two_requests_within_budgets : ∃ (e : Engine FreeHash (KVCacheManager FreeHash)) (p : Pass)
      (s : Scheduler FreeHash (KVCacheManager FreeHash)),
      Reachable (fun _ _ => True) e ∧ e.sched.SizesOk ∧ schedulePass {} e.sched = .ok p s ∧
      p.numScheduledTokens.entries = [("a", 4), ("b", 6)] ∧ s.config.maxNumScheduledTokens = 16 ∧
      p.numScheduledTokens.sum id ≤ 16 ∧ checkPass p s = .ok () s := by
  obtain ⟨e, hreach, hsizes, p, s, hres, hentries, hmax⟩ := exists_reachable_small 8
    (smallConfig true) (fun _ _ => True)
    [textCall "a" [1, 2, 3, 4] 5 false, textCall "b" [5, 6, 7, 8, 9, 10] 5 false]
    (fun e => e.sched.SizesOk ∧ ∃ p s, schedulePass {} e.sched = .ok p s ∧
      p.numScheduledTokens.entries = [("a", 4), ("b", 6)] ∧ s.config.maxNumScheduledTokens = 16)
    (by decide +kernel)
  obtain ⟨-, htotal, -, -, hcheck, -⟩ := schedule_within_budgets hreach hsizes {} p s hres
  exact ⟨e, p, s, hreach, hsizes, hres, hentries, hmax, hmax ▸ htotal, hcheck⟩

/-- **A session is scheduled past the length of the model**: its first input has six tokens and so has
its next one, and the model has eight positions.  Each input alone fits; the call schedules six tokens
from position six on. -/
theorem session_scheduled_past_model : ∃ (e : Engine FreeHash (KVCacheManager FreeHash)) (p : Pass)
      (s : Scheduler FreeHash (KVCacheManager FreeHash)),
      Reachable (fun _ _ => True) e ∧ schedulePass {} e.sched = .ok p s ∧
      p.numScheduledTokens.get? "a" = some 6 ∧ s.requests.get? "a" = some 0 ∧
      (s.objs 0).numComputedTokens = 6 ∧ s.config.maxModelLen = 8 := by
  obtain ⟨e, hreach, p, s, hpass⟩ := exists_reachable_small 8
    { smallConfig false with maxModelLen := 8 } (fun _ _ => True)
    [textCall "a" [1, 2, 3, 4, 5, 6] 1 true, .schedule {}, sampleAll [9],
      textCall "a" [11, 12, 13, 14, 15, 16] 1 true]
    (fun e => ∃ p s, schedulePass {} e.sched = .ok p s ∧
      p.numScheduledTokens.get? "a" = some 6 ∧ s.requests.get? "a" = some 0 ∧
      (s.objs 0).numComputedTokens = 6 ∧ s.config.maxModelLen = 8) (by decide +kernel)
  exact ⟨e, p, s, hreach, hpass⟩

end Engine

end Lvllm
