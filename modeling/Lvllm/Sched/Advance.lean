import Lvllm.Sched.Queues

/-!
# The end of a call of `schedule`

Behind the closing assertions the call builds its output and advances the counters of the requests it
has scheduled.  `Request.afterSchedule` is what happens to one such request; `schedule_eq_ok` says
that nothing happens to the others, and that the queues stay as the two loops left them.
-/

namespace Lvllm

open List

variable {H K : Type}

/-- A scheduled request behind the call: its counters advance, and an `AsyncScheduler` reserves
placeholders for what a step without further prefill samples. -/
def Request.afterSchedule (r : Request H) (c : SchedulerConfig H) (schedStepSeq currentStep n : ℕ)
    (numSpecTokens : ℕ) (drafts : List Token) : Request H :=
  let r := r.updateAfterSchedule n (if c.deferBlockFree then some schedStepSeq else none)
  if c.asyncScheduling = true ∧ r.isPrefillChunk = false then
    { r with
      numOutputPlaceholders :=
        r.numOutputPlaceholders + (c.numSampledTokensPerStep + numSpecTokens : ℕ)
      specTokenIds := drafts
      nextDecodeEligibleStep :=
        if c.useV2ModelRunner then currentStep + c.ppSize else r.nextDecodeEligibleStep }
  else r

namespace Scheduler

/-- Ids lead to different requests. -/
def DistinctRefs (s : Scheduler H K) : Prop :=
  ∀ reqId reqId' ref, s.requests.get? reqId = some ref → s.requests.get? reqId' = some ref →
    reqId = reqId'

variable {s s' : Scheduler H K} {f : String → ℕ → Request H → Request H} {reqId : String}
  {entries : List (String × ℕ)}

lemma QueueInv.distinctRefs {aside : List Ref} (h : QueueInv s aside) : s.DistinctRefs := by
  intro reqId reqId' ref hget hget'
  rw [← (h.tracked reqId ref hget).1, (h.tracked reqId' ref hget').1]

/-- Some code changes each of the listed requests by `f` and no other. -/
structure Advances (ids : List (String × ℕ)) (f : String → ℕ → Request H → Request H)
    (s s' : Scheduler H K) : Prop where
  frame : ∃ objs inflightPrefills,
    s' = { s with objs := objs, inflightPrefills := inflightPrefills }
  found : ∀ x ∈ ids, ∃ ref, s.requests.get? x.1 = some ref
  listed : ∀ x ∈ ids, ∀ ref, s.requests.get? x.1 = some ref →
    s'.objs ref = f x.1 x.2 (s.objs ref)
  others : ∀ ref, (∀ x ∈ ids, s.requests.get? x.1 ≠ some ref) → s'.objs ref = s.objs ref

lemma Advances.nil (s : Scheduler H K) : Advances [] f s s where
  frame := ⟨s.objs, s.inflightPrefills, rfl⟩
  found := nofun
  listed := nofun
  others _ _ := rfl

lemma Advances.cons {n : ℕ} {rest : List (String × ℕ)} {ref : Ref} {inflightPrefills : List Ref}
    (hdistinct : s.DistinctRefs) (hnodup : reqId ∉ rest.map Prod.fst)
    (href : s.requests.get? reqId = some ref) (h : Advances rest f
      { s.modifyReq ref (f reqId n) with inflightPrefills := inflightPrefills } s') :
    Advances ((reqId, n) :: rest) f s s' := by
  have hne : ∀ x ∈ rest, s.requests.get? x.1 ≠ some ref := by
    intro x hx hget
    have hid := hdistinct _ _ _ href hget
    exact hnodup (hid ▸ mem_map_of_mem hx)
  refine ⟨?_, ?_, ?_, ?_⟩
  · obtain ⟨objs, prefills, rfl⟩ := h.frame
    exact ⟨objs, prefills, rfl⟩
  · intro x hx
    rcases mem_cons.1 hx with rfl | hx
    · exact ⟨ref, href⟩
    · exact h.found x hx
  · intro x hx ref' hget
    rcases mem_cons.1 hx with rfl | hx
    · obtain rfl : ref = ref' := Option.some.inj (href.symm.trans hget)
      rw [h.others ref hne]
      exact modifyReq_objs_self s ref _
    · rw [h.listed x hx ref' hget]
      have hrefs : ref' ≠ ref := by
        rintro rfl
        exact hne x hx hget
      exact congrArg _ (modifyReq_objs_of_ne s hrefs _)
  · intro ref' hothers
    have hrefs : ref' ≠ ref := by
      rintro rfl
      exact hothers _ mem_cons_self href
    rw [h.others ref' fun x hx => hothers x (mem_cons_of_mem _ hx)]
    exact modifyReq_objs_of_ne s hrefs _

lemma requestRef_eq_ok {ref : Ref} :
    s.requestRef reqId = .ok ref ↔ s.requests.get? reqId = some ref := by
  unfold requestRef
  cases s.requests.get? reqId with
  | none => simp
  | some ref' => simp

lemma updateAfterSchedule_advances {b : Bool}
    (hdistinct : s.DistinctRefs) (hnodup : (entries.map Prod.fst).Nodup)
    (h : updateAfterSchedule entries s = .ok b s') :
    Advances entries (fun _ n r => r.updateAfterSchedule n
      (if s.config.deferBlockFree then some s.schedStepSeq else none)) s s' := by
  induction entries generalizing s b with
  | nil =>
    cases h
    exact .nil _
  | cons x rest ih =>
    obtain ⟨reqId, n⟩ := x
    rw [updateAfterSchedule, bind_get] at h
    obtain ⟨ref, s₁, hread, hthen⟩ := bind_eq_ok.1 h
    obtain ⟨href, rfl⟩ := liftPy_eq_ok.1 hread
    rw [bind_modify, bind_get] at hthen
    obtain ⟨others, s2, hrest, hpure⟩ := bind_eq_ok.1 hthen
    cases hpure
    rw [map_cons, nodup_cons] at hnodup
    exact .cons hdistinct hnodup.1 (requestRef_eq_ok.1 href)
      (ih (s := s₁.advance ref n) hdistinct hnodup.2 hrest)

/-- What `AsyncScheduler._update_after_schedule` does to a request. -/
def placeholdersOf (s : Scheduler H K) (specTokens : Dict String (List Token)) (reqId : String)
    (r : Request H) : Request H :=
  if r.isPrefillChunk then r
  else
    { r with
      numOutputPlaceholders := r.numOutputPlaceholders +
        (s.config.numSampledTokensPerStep + ((specTokens.get? reqId).getD []).length : ℕ)
      specTokenIds := s.specTokenPlaceholders
      nextDecodeEligibleStep :=
        if s.config.useV2ModelRunner then s.currentStep + s.config.ppSize
        else r.nextDecodeEligibleStep }

lemma asyncUpdateAfterSchedule_advances {specTokens : Dict String (List Token)}
    {b : Bool} (hdistinct : s.DistinctRefs) (hnodup : (entries.map Prod.fst).Nodup)
    (h : asyncUpdateAfterSchedule specTokens (entries.map Prod.fst) s = .ok b s') :
    Advances entries (fun reqId _ r => s.placeholdersOf specTokens reqId r) s s' := by
  induction entries generalizing s b with
  | nil =>
    cases h
    exact .nil _
  | cons x rest ih =>
    obtain ⟨reqId, n⟩ := x
    rw [map_cons, asyncUpdateAfterSchedule, bind_get] at h
    obtain ⟨ref, s₁, hread, hthen⟩ := bind_eq_ok.1 h
    obtain ⟨href, rfl⟩ := liftPy_eq_ok.1 hread
    rw [bind_get, bind_modify] at hthen
    obtain ⟨others, s2, hrest, hpure⟩ := bind_eq_ok.1 hthen
    cases hpure
    rw [map_cons, nodup_cons] at hnodup
    exact .cons hdistinct hnodup.1 (requestRef_eq_ok.1 href) (ih (s := s₁.reservePlaceholders ref
      ((specTokens.get? reqId).getD []).length) hdistinct hnodup.2 hrest)

/-! ## The whole call -/

variable [KvCache H K] {out : SchedulerOutput} {p : Pass}

/-- Building the output takes what the loops decided, and touches the caches and what is reported
only. -/
structure OutputFrame (p : Pass) (out : SchedulerOutput) (s s' : Scheduler H K) : Prop where
  scheduled : out.numScheduledTokens = p.numScheduledTokens
  total : out.totalNumScheduledTokens = p.numScheduledTokens.sum id
  drafts : out.scheduledSpecDecodeTokens = p.scheduledSpecDecodeTokens
  inputs : out.scheduledEncoderInputs = p.scheduledEncoderInputs
  frame : ∃ (kv : K) (encoder : EncoderCacheManager) (deferredFrees : List (ℕ × List ℕ))
    (prevStepScheduledReqIds : List String),
    s' = { s with
      kv := kv
      encoder := encoder
      deferredFrees := deferredFrees
      prevStepScheduledReqIds := prevStepScheduledReqIds }

lemma freeCowRetainedBlocks_frame {blocks : List ℕ} {fence : ℕ}
    (h : freeCowRetainedBlocks blocks fence s = .ok () s') :
    ∃ kv d, s' = { s with kv := kv, deferredFrees := d } := by
  rw [freeCowRetainedBlocks, bind_get] at h
  split at h
  · obtain ⟨k, -, rfl⟩ := onKv_eq_ok.1 h
    exact ⟨k, s.deferredFrees, rfl⟩
  · cases h
    exact ⟨s.kv, _, rfl⟩

lemma takeCopies_frame {copies : List (ℕ × ℕ)} (h : takeCopies s = .ok copies s') :
    ∃ kv d, s' = { s with kv := kv, deferredFrees := d } := by
  obtain ⟨⟨copies', retained⟩, s₁, htake, hthen⟩ := bind_eq_ok.1 h
  obtain ⟨k, -, rfl⟩ := onKv_eq_ok.1 htake
  dsimp only at hthen
  split at hthen
  · cases hthen
    exact ⟨k, s.deferredFrees, rfl⟩
  · rw [bind_get] at hthen
    obtain ⟨_, s2, hfree, hpure⟩ := bind_eq_ok.1 hthen
    cases hpure
    obtain ⟨k', d, rfl⟩ := freeCowRetainedBlocks_frame hfree
    exact ⟨k', d, rfl⟩

lemma commonPrefixBlocks_frame {n : List ℕ} (h : commonPrefixBlocks s = .ok n s') :
    ∃ kv, s' = { s with kv := kv } := by
  rw [commonPrefixBlocks, bind_get] at h
  cases hrunning : s.running with
  | nil =>
    rw [hrunning] at h
    cases h
    exact ⟨s.kv, by rw [← hrunning]⟩
  | cons ref rest =>
    rw [hrunning] at h
    obtain ⟨k, -, rfl⟩ := onKv_eq_ok.1 h
    exact ⟨k, by rw [← hrunning]⟩

omit [KvCache H K] in
lemma checkPass_eq_ok (h : checkPass p s = .ok () s') : s' = s := by
  rw [checkPass, bind_get] at h
  obtain ⟨_, s₁, h1, hthen⟩ := bind_eq_ok.1 h
  obtain ⟨_, s2, h2, hthen⟩ := bind_eq_ok.1 hthen
  obtain ⟨_, s3, h3, hthen⟩ := bind_eq_ok.1 hthen
  obtain ⟨_, s4, h4, h5⟩ := bind_eq_ok.1 hthen
  rw [(check_eq_ok.1 h5).2, (check_eq_ok.1 h4).2, (check_eq_ok.1 h3).2, (check_eq_ok.1 h2).2,
    (check_eq_ok.1 h1).2]

lemma makeOutput_frame (h : makeOutput p s = .ok out s') :
    checkPass p s = .ok () s ∧ OutputFrame p out s s' := by
  obtain ⟨_, s₁, hcheck, h1⟩ := bind_eq_ok.1 h
  have hs1 := checkPass_eq_ok hcheck
  subst hs1
  obtain ⟨numCommon, s2, hcommon, h2⟩ := bind_eq_ok.1 h1
  obtain ⟨k1, rfl⟩ := commonPrefixBlocks_frame hcommon
  rw [bind_get] at h2
  dsimp only at h2
  rw [bind_modify] at h2
  obtain ⟨copies, s3, hcopies, h3⟩ := bind_eq_ok.1 h2
  obtain ⟨k2, d, rfl⟩ := takeCopies_frame hcopies
  obtain ⟨numSpec, s4, hspec, h4⟩ := bind_eq_ok.1 h3
  obtain ⟨-, rfl⟩ := liftPy_eq_ok.1 hspec
  obtain ⟨hashes, s5, hhashes, h5⟩ := bind_eq_ok.1 h4
  obtain ⟨e, -, rfl⟩ := onEncoder_eq_ok.1 hhashes
  obtain ⟨ids, s6, hids, h6⟩ := bind_eq_ok.1 h5
  obtain ⟨k3, -, rfl⟩ := onKv_eq_ok.1 hids
  cases h6
  refine ⟨hcheck, rfl, rfl, rfl, rfl, ?_⟩
  unfold recordScheduled
  split
  · exact ⟨k3, e, d, _, rfl⟩
  · exact ⟨k3, e, d, _, rfl⟩

/-- The end of a call that the loops left in `s` with the variables `p`. -/
structure ScheduleEnd (p : Pass) (out : SchedulerOutput) (s s' : Scheduler H K) : Prop where
  scheduled : out.numScheduledTokens = p.numScheduledTokens
  total : out.totalNumScheduledTokens = p.numScheduledTokens.sum id
  drafts : out.scheduledSpecDecodeTokens = p.scheduledSpecDecodeTokens
  inputs : out.scheduledEncoderInputs = p.scheduledEncoderInputs
  config : s'.config = s.config
  requests : s'.requests = s.requests
  nextRef : s'.nextRef = s.nextRef
  streaming : s'.numWaitingForStreamingInput = s.numWaitingForStreamingInput
  running : s'.running = s.running
  waiting : s'.waiting = s.waiting
  skippedWaiting : s'.skippedWaiting = s.skippedWaiting
  found : ∀ x ∈ p.numScheduledTokens.entries, ∃ ref, s.requests.get? x.1 = some ref
  listed : ∀ x ∈ p.numScheduledTokens.entries, ∀ ref, s.requests.get? x.1 = some ref →
    s'.objs ref = (s.objs ref).afterSchedule s.config s'.schedStepSeq s.currentStep x.2
      ((p.scheduledSpecDecodeTokens.get? x.1).getD []).length
      (List.replicate out.numSpecTokensToSchedule (-1))
  others : ∀ ref, (∀ x ∈ p.numScheduledTokens.entries, s.requests.get? x.1 ≠ some ref) →
    s'.objs ref = s.objs ref

omit [KvCache H K] in
lemma advanceFence_frame (s : Scheduler H K) (out : SchedulerOutput) :
    ∃ seq, s.advanceFence out = { s with schedStepSeq := seq } := by
  unfold advanceFence
  split
  · exact ⟨_, rfl⟩
  · exact ⟨s.schedStepSeq, rfl⟩

omit [KvCache H K] in
/-- Advancing the counters and then reserving placeholders. -/
lemma finishSchedule_eq_ok {out' : SchedulerOutput} (hdistinct : s.DistinctRefs)
    (h : finishSchedule out s = .ok out' s') :
    (∃ structured pending, out' = { out with
      hasStructuredOutputRequests := structured, pendingStructuredOutputTokens := pending }) ∧
    (∃ objs prefills seq placeholders, s' = { s with
      objs := objs, inflightPrefills := prefills, schedStepSeq := seq
      finishedReqIds := [], resetPreemptedReqIds := [], specTokenPlaceholders := placeholders }) ∧
    (∀ x ∈ out.numScheduledTokens.entries, ∃ ref, s.requests.get? x.1 = some ref) ∧
    (∀ x ∈ out.numScheduledTokens.entries, ∀ ref, s.requests.get? x.1 = some ref →
      s'.objs ref = (s.objs ref).afterSchedule s.config s'.schedStepSeq s.currentStep x.2
        ((out.scheduledSpecDecodeTokens.get? x.1).getD []).length
        (List.replicate out.numSpecTokensToSchedule (-1))) ∧
    ∀ ref, (∀ x ∈ out.numScheduledTokens.entries, s.requests.get? x.1 ≠ some ref) →
      s'.objs ref = s.objs ref := by
  rw [finishSchedule, bind_modify] at h
  obtain ⟨seq, hseq⟩ := advanceFence_frame s out
  rw [hseq] at h
  obtain ⟨structured, s₁, hadvance, h1⟩ := bind_eq_ok.1 h
  have hfirst := updateAfterSchedule_advances (s := { s with schedStepSeq := seq }) hdistinct
    out.numScheduledTokens.nodup hadvance
  have hfound : ∀ x ∈ out.numScheduledTokens.entries, ∃ ref, s.requests.get? x.1 = some ref :=
    hfirst.found
  obtain ⟨objs, prefills, rfl⟩ := hfirst.frame
  rw [bind_modify] at h1
  obtain ⟨pending, s2, hasync, h2⟩ := bind_eq_ok.1 h1
  cases h2
  rw [asyncPart, bind_get] at hasync
  cases hmode : s.config.asyncScheduling with
  | false =>
    rw [if_neg (by simp [clearReported, hmode])] at hasync
    cases hasync
    refine ⟨⟨_, _, rfl⟩, ⟨objs, prefills, seq, s.specTokenPlaceholders, rfl⟩, hfound, ?_,
      hfirst.others⟩
    intro x hx ref hget
    refine (hfirst.listed x hx ref hget).trans ?_
    simp [Request.afterSchedule, hmode, clearReported]
  | true =>
    rw [if_pos (by simp [clearReported, hmode]), bind_modify] at hasync
    have hsecond := asyncUpdateAfterSchedule_advances (by exact hdistinct)
      out.numScheduledTokens.nodup hasync
    obtain ⟨objs', prefills', rfl⟩ := hsecond.frame
    refine ⟨⟨_, _, rfl⟩, ⟨objs', prefills', seq,
      List.replicate out.numSpecTokensToSchedule (-1), rfl⟩, hfound, ?_, ?_⟩
    · intro x hx ref hget
      have hobjs : objs ref = (s.objs ref).updateAfterSchedule x.2
        (if s.config.deferBlockFree then some seq else none) := hfirst.listed x hx ref hget
      refine (hsecond.listed x hx ref hget).trans ?_
      simp only [placeholdersOf, Request.afterSchedule, clearReported, hobjs, hmode, true_and]
      generalize (s.objs ref).updateAfterSchedule x.2
        (if s.config.deferBlockFree = true then some seq else none) = r
      cases hprefill : r.isPrefillChunk with
      | true => simp only [if_true, Bool.true_eq_false, if_false]
      | false => simp only [Bool.false_eq_true, if_true, if_false]
    · intro ref hothers
      exact (hsecond.others ref hothers).trans (hfirst.others ref hothers)

/-- **What a call of `schedule` does**: the two loops, the closing assertions, and the end. -/
theorem schedule_eq_ok {inp : ScheduleInput H} (h : schedule inp s = .ok (out, p) s') :
    ∃ s₁, schedulePass inp s = .ok p s₁ ∧ checkPass p s₁ = .ok () s₁ ∧
      (s₁.DistinctRefs → ScheduleEnd p out s₁ s') := by
  obtain ⟨p', s₁, hpass, h1⟩ := bind_eq_ok.1 h
  obtain ⟨out1, s2, hmake, h2⟩ := bind_eq_ok.1 h1
  obtain ⟨out2, s3, hfinish, h3⟩ := bind_eq_ok.1 h2
  cases h3
  obtain ⟨hcheck, hscheduled, htotal, hdrafts, hinputs, kv, e, d, prev, rfl⟩ := makeOutput_frame hmake
  refine ⟨s₁, hpass, hcheck, fun hdistinct => ?_⟩
  obtain ⟨⟨structured, pending, rfl⟩, ⟨objs, prefills, seq, placeholders, rfl⟩, hfound, hlisted,
    hothers⟩ := finishSchedule_eq_ok (s := { s₁ with
      kv := kv, encoder := e, deferredFrees := d, prevStepScheduledReqIds := prev }) hdistinct hfinish
  rw [hscheduled, hdrafts] at hlisted
  rw [hscheduled] at hfound hothers
  exact ⟨hscheduled, htotal, hdrafts, hinputs, rfl, rfl, rfl, rfl, rfl, rfl, rfl, hfound, hlisted,
    hothers⟩

end Scheduler

end Lvllm
