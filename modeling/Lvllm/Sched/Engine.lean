import Lvllm.Foundation.Run
import Lvllm.Sched.Update

/-!
# Runs of the scheduler

The engine core calls the scheduler in any order: it adds and finishes requests, schedules steps, and
hands the outputs of the steps back in the order in which they were scheduled.  Several steps can be
in flight.  `Engine` is the scheduler together with the steps it has returned; an `Engine` event is one
call.  An exception ends the run.

A step records for each of its requests what the workers do: the positions it computes, the draft
tokens among them, and whether it reaches the end of the known tokens and samples.
-/

namespace Lvllm

variable {H K : Type}

/-- What a step does for one request. -/
structure StepEntry where
  reqId : String
  ref : Ref
  /-- How often the request had been preempted when the step was scheduled. -/
  epoch : ℕ
  /-- The first position that is computed. -/
  start : ℕ
  numTokens : ℕ
  numSpecTokens : ℕ
  /-- Whether the step reaches the end of the known tokens, so that it samples. -/
  decode : Bool

/-- A step that the scheduler has returned. -/
structure Step where
  output : SchedulerOutput
  entries : List StepEntry

/-- The scheduler with the steps it has returned, the first of which are processed. -/
structure Engine (H K : Type) where
  sched : Scheduler H K
  steps : List Step := []
  numProcessed : ℕ := 0

/-- The steps whose output has not been processed, oldest first. -/
def Engine.inFlight (e : Engine H K) : List Step := e.steps.drop e.numProcessed

/-- The entry of a request in an output, read off the scheduler behind the call. -/
def Scheduler.stepEntry (s : Scheduler H K) (out : SchedulerOutput) (x : String × ℕ) : StepEntry :=
  let ref := (s.requests.get? x.1).getD 0
  let r := s.objs ref
  { reqId := x.1
    ref := ref
    epoch := r.numPreemptions
    start := r.numComputedTokens - x.2
    numTokens := x.2
    numSpecTokens := ((out.scheduledSpecDecodeTokens.get? x.1).getD []).length
    decode := !r.isPrefillChunk }

/-- The step that a call of `schedule` returns. -/
def Scheduler.stepOf (s : Scheduler H K) (out : SchedulerOutput) : Step :=
  ⟨out, out.numScheduledTokens.entries.map (s.stepEntry out)⟩

/-- The calls of the engine core. -/
inductive EngineOp (H : Type) where
  | addRequest (request : EngineCoreRequest) (delayFreeBlocks : String → Bool)
  | schedule (inp : ScheduleInput H)
  | updateFromOutput (mro : ModelRunnerOutput)
  | finishRequests (reqIds : Option (List String)) (status : RequestStatus)
      (delayFreeBlocks : String → Bool)
  | updateDraftTokenIds (reqId : String) (specTokenIds : List Token)
  | resetPrefixCache (resetRunningRequests : Bool)
  | setPauseState (pauseState : PauseState)

variable [KvCache H K] [DecidableEq H]

/-- The state that code of the scheduler returns in, if it returns. -/
def stateAfter {σ α : Type} (m : EStateM SchedErr σ α) (s : σ) : Option σ :=
  match m s with
  | .ok _ s' => some s'
  | .error _ _ => none

omit [KvCache H K] [DecidableEq H] in
lemma stateAfter_eq_some {σ α : Type} {m : EStateM SchedErr σ α} {s s' : σ} :
    stateAfter m s = some s' ↔ ∃ a, m s = .ok a s' := by
  unfold stateAfter
  cases m s with
  | ok a s1 => simp
  | error e s1 => simp

namespace Engine

open Scheduler in
/-- One call. -/
def step (e : Engine H K) : EngineOp H → Option (Engine H K)
  | .addRequest request delay =>
    match Request.fromEngineCoreRequest e.sched.config.blockHasher request with
    | .error _ => none
    | .ok r => (stateAfter (addRequest delay r) e.sched).map fun s => { e with sched := s }
  | .schedule inp =>
    match Scheduler.schedule inp e.sched with
    | .error _ _ => none
    | .ok (out, _) s => some { e with sched := s, steps := e.steps ++ [s.stepOf out] }
  | .updateFromOutput mro =>
    match e.inFlight with
    | [] => none
    | step :: _ =>
      (stateAfter (updateFromOutput step.output mro) e.sched).map fun s =>
        { e with sched := s, numProcessed := e.numProcessed + 1 }
  | .finishRequests reqIds status delay =>
    (stateAfter (finishRequests delay reqIds status) e.sched).map fun s => { e with sched := s }
  | .updateDraftTokenIds reqId specTokenIds =>
    some { e with sched := e.sched.updateDraftTokenIds reqId specTokenIds }
  | .resetPrefixCache flag =>
    (stateAfter (resetPrefixCache flag) e.sched).map fun s => { e with sched := s }
  | .setPauseState pauseState => some { e with sched := { e.sched with pauseState := pauseState } }

open Scheduler in
/-- What a call that returns does. -/
inductive Call (e : Engine H K) : EngineOp H → Engine H K → Prop
  | added {request : EngineCoreRequest} {delay : String → Bool} {r : Request H} {s' : Scheduler H K}
      (hr : Request.fromEngineCoreRequest e.sched.config.blockHasher request = .ok r)
      (h : addRequest delay r e.sched = .ok () s') :
      Call e (.addRequest request delay) { e with sched := s' }
  | scheduled {inp : ScheduleInput H} {out : SchedulerOutput} {p : Pass} {s' : Scheduler H K}
      (h : Scheduler.schedule inp e.sched = .ok (out, p) s') :
      Call e (.schedule inp) { e with sched := s', steps := e.steps ++ [s'.stepOf out] }
  | updated {mro : ModelRunnerOutput} {first : Step} {rest : List Step}
      {outputs : List EngineCoreOutput} {s' : Scheduler H K} (hinFlight : e.inFlight = first :: rest)
      (h : updateFromOutput first.output mro e.sched = .ok outputs s') :
      Call e (.updateFromOutput mro) { e with sched := s', numProcessed := e.numProcessed + 1 }
  | finished {reqIds : Option (List String)} {status : RequestStatus} {delay : String → Bool}
      {refs : List Ref} {s' : Scheduler H K}
      (h : finishRequests delay reqIds status e.sched = .ok refs s') :
      Call e (.finishRequests reqIds status delay) { e with sched := s' }
  | drafted {reqId : String} {specTokenIds : List Token} :
      Call e (.updateDraftTokenIds reqId specTokenIds)
        { e with sched := e.sched.updateDraftTokenIds reqId specTokenIds }
  | reset {flag res : Bool} {s' : Scheduler H K}
      (h : resetPrefixCache flag e.sched = .ok res s') :
      Call e (.resetPrefixCache flag) { e with sched := s' }
  | paused {pauseState : PauseState} :
      Call e (.setPauseState pauseState)
        { e with sched := { e.sched with pauseState := pauseState } }

lemma call_of_step {e e' : Engine H K} {op : EngineOp H} (h : e.step op = some e') :
    Call e op e' := by
  cases op with
  | addRequest request delay =>
    rw [step] at h
    cases hr : Request.fromEngineCoreRequest e.sched.config.blockHasher request with
    | error err =>
      rw [hr] at h
      cases h
    | ok r =>
      rw [hr] at h
      obtain ⟨s', hs', rfl⟩ := Option.map_eq_some_iff.1 h
      obtain ⟨_, hadd⟩ := stateAfter_eq_some.1 hs'
      exact .added hr hadd
  | schedule inp =>
    rw [step] at h
    cases hschedule : Scheduler.schedule inp e.sched with
    | error err s' =>
      rw [hschedule] at h
      cases h
    | ok res s' =>
      rw [hschedule] at h
      cases h
      exact .scheduled hschedule
  | updateFromOutput mro =>
    rw [step] at h
    cases hinFlight : e.inFlight with
    | nil =>
      rw [hinFlight] at h
      cases h
    | cons first rest =>
      rw [hinFlight] at h
      obtain ⟨s', hs', rfl⟩ := Option.map_eq_some_iff.1 h
      obtain ⟨outputs, hupdate⟩ := stateAfter_eq_some.1 hs'
      exact .updated hinFlight hupdate
  | finishRequests reqIds status delay =>
    obtain ⟨s', hs', rfl⟩ := Option.map_eq_some_iff.1 h
    obtain ⟨refs, hfinish⟩ := stateAfter_eq_some.1 hs'
    exact .finished hfinish
  | updateDraftTokenIds reqId specTokenIds =>
    cases h
    exact .drafted
  | resetPrefixCache flag =>
    obtain ⟨s', hs', rfl⟩ := Option.map_eq_some_iff.1 h
    obtain ⟨res, hreset⟩ := stateAfter_eq_some.1 hs'
    exact .reset hreset
  | setPauseState pauseState =>
    cases h
    exact .paused

/-- An engine that has not been called. -/
def Init (e : Engine H K) : Prop :=
  ∃ (config : SchedulerConfig H) (objs : Ref → Request H) (cacheSize : ℕ) (kv : K),
    e = { sched :=
      { config := config
        objs := objs
        nextRef := 0
        encoder := .create cacheSize
        kv := kv } }

/-- The states that calls lead to, when each meets `P`. -/
def Reachable (P : Engine H K → EngineOp H → Prop) (e : Engine H K) : Prop := Reached Init step P e

end Engine

end Lvllm
