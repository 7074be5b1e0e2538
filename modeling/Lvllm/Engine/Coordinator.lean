import Lvllm.Foundation.Run
import Mathlib.Data.List.Basic

/-!
# The in-process coordinator of data-parallel engines

Requests wake paused engines through `CoordinatorHandle`, which marks them as running before the
runner (`coordinator/inproc.rs`) has told them.  An event is a call of the handle, which holds the
lock, or one round of the runner's loop; a call that comes between the update of a round and its
broadcast finds the engines running and changes nothing.  The runner stops at the first error.
-/

namespace Lvllm

/-- `EngineId`: the bytes of a transport identity. -/
abbrev EngineId := List UInt8

/-- `engine_index`: two bytes, little-endian. -/
def EngineId.engineIndex : EngineId → Option UInt32
  | [low, high] => some (low.toUInt32 + 256 * high.toUInt32)
  | _ => none

/-- `CoordinatorStateSnapshot`. -/
structure CoordinatorStateSnapshot where
  currentWave : UInt32 := 0
  enginesRunning : Bool := false

/-- `CoordinatorCommand::FirstRequest`. -/
structure FirstRequest where
  targetEngineId : EngineId
  wave : UInt32

/-- `StartDpWaveMessage`. -/
structure StartDpWaveMessage where
  wave : UInt32
  excludeEngineIndex : Option UInt32

namespace CoordinatorStateSnapshot

/-- `start_wave_for_first_request`. -/
def startWaveForFirstRequest (s : CoordinatorStateSnapshot) (requestWave targetIndex : UInt32) :
    CoordinatorStateSnapshot × StartDpWaveMessage :=
  ({ s with enginesRunning := true },
    ⟨s.currentWave, if requestWave ≥ s.currentWave then some targetIndex else none⟩)

/-- `WaveComplete` in `handle_outputs`; the addition wraps in a release build. -/
def waveComplete (s : CoordinatorStateSnapshot) (wave : UInt32) : CoordinatorStateSnapshot :=
  if wave ≥ s.currentWave then ⟨wave + 1, false⟩ else s

/-- `StartWave` in `handle_outputs`. -/
def startWave (s : CoordinatorStateSnapshot) (engineIndex wave : UInt32) :
    CoordinatorStateSnapshot × Option StartDpWaveMessage :=
  if wave > s.currentWave ∨ wave = s.currentWave ∧ s.enginesRunning = false then
    (⟨wave, true⟩, some ⟨wave, some engineIndex⟩)
  else (s, none)

end CoordinatorStateSnapshot

/-- The shared state, the queued commands, and the broadcasts since `enginesRunning` last became
true. -/
structure Coordinator where
  state : CoordinatorStateSnapshot := {}
  commands : List FirstRequest := []
  sinceRunning : List StartDpWaveMessage := []

/-- A call of the handle, or what the runner receives. -/
inductive CoordinatorEvent
  | notifyFirstRequest (target : EngineId)
  | command
  | waveComplete (wave : UInt32)
  | startWave (engineIndex wave : UInt32)

namespace Coordinator

/-- The new state and queue and what is broadcast; none if there is no command or it fails. -/
def handle (c : Coordinator) :
    CoordinatorEvent →
      Option ((CoordinatorStateSnapshot × List FirstRequest) × Option StartDpWaveMessage)
  | .notifyFirstRequest target =>
    if c.state.enginesRunning then some ((c.state, c.commands), none)
    else some (({ c.state with enginesRunning := true },
      c.commands ++ [⟨target, c.state.currentWave⟩]), none)
  | .command =>
    match c.commands with
    | [] => none
    | ⟨target, wave⟩ :: commands => do
      let index ← target.engineIndex
      let (state, message) := c.state.startWaveForFirstRequest wave index
      some ((state, commands), some message)
  | .waveComplete wave => some ((c.state.waveComplete wave, c.commands), none)
  | .startWave engineIndex wave =>
    let (state, message) := c.state.startWave engineIndex wave
    some ((state, c.commands), message)

/-- One event, with its broadcast. -/
def step (c : Coordinator) (e : CoordinatorEvent) : Option Coordinator :=
  (c.handle e).map fun ((state, commands), message) =>
    ⟨state, commands, (if !c.state.enginesRunning && state.enginesRunning then []
      else c.sinceRunning) ++ message.toList⟩

/-- The states that events lead to. -/
abbrev Reachable : Coordinator → Prop := Reached ({} = ·) step fun _ _ => True

/-- While the engines run, a command is queued or the current wave has been broadcast. -/
def NoneOwed (c : Coordinator) : Prop :=
  c.state.enginesRunning = true →
    c.commands ≠ [] ∨ ∃ m ∈ c.sinceRunning, m.wave = c.state.currentWave

/-- What may be excluded from the broadcast of an event. -/
def MayExclude (c : Coordinator) (m : StartDpWaveMessage) (engineIndex : UInt32) :
    CoordinatorEvent → Prop
  | .command => ∃ command ∈ c.commands.head?,
      command.targetEngineId.engineIndex = some engineIndex ∧ m.wave ≤ command.wave
  | .startWave sender _ => engineIndex = sender
  | _ => False

variable {c : Coordinator} {e : CoordinatorEvent} {state : CoordinatorStateSnapshot}
  {commands : List FirstRequest} {message : Option StartDpWaveMessage}

/-- What one event can do. -/
inductive Handled (c : Coordinator) (e : CoordinatorEvent) :
    CoordinatorStateSnapshot → List FirstRequest → Option StartDpWaveMessage → Prop
  | unchanged : Handled c e c.state c.commands none
  | queued {commands : List FirstRequest} (hne : commands ≠ []) :
      Handled c e { c.state with enginesRunning := true } commands none
  | completed {wave : UInt32} (he : e = .waveComplete wave) (hle : c.state.currentWave ≤ wave) :
      Handled c e ⟨wave + 1, false⟩ c.commands none
  | broadcast {state : CoordinatorStateSnapshot} {commands : List FirstRequest}
      {m : StartDpWaveMessage} (hwave : m.wave = state.currentWave)
      (hle : c.state.currentWave ≤ state.currentWave)
      (hexclude : ∀ engineIndex ∈ m.excludeEngineIndex, c.MayExclude m engineIndex e) :
      Handled c e state commands (some m)

lemma handled_of_handle (h : c.handle e = some ((state, commands), message)) :
    c.Handled e state commands message := by
  unfold handle at h
  cases e with
  | notifyFirstRequest target =>
    dsimp only at h
    split at h
    · cases h
      exact .unchanged
    · cases h
      exact .queued (List.append_ne_nil_of_right_ne_nil _ (List.cons_ne_nil _ _))
  | command =>
    dsimp only at h
    split at h
    · cases h
    · rename_i target wave rest hcommands
      obtain ⟨index, hindex, h⟩ := Option.bind_eq_some_iff.1 h
      cases h
      refine .broadcast rfl (UInt32.le_refl _) fun engineIndex hexclude =>
        ⟨⟨target, wave⟩, by rw [hcommands]; rfl, ?_⟩
      obtain ⟨hle, heq⟩ := Option.ite_none_right_eq_some.1 hexclude
      exact ⟨hindex.trans heq, hle⟩
  | waveComplete wave =>
    simp only [CoordinatorStateSnapshot.waveComplete] at h
    split at h
    · rename_i hle
      cases h
      exact .completed rfl hle
    · cases h
      exact .unchanged
  | startWave sender wave =>
    simp only [CoordinatorStateSnapshot.startWave] at h
    split at h
    · rename_i hwave
      cases h
      exact .broadcast rfl (hwave.elim UInt32.le_of_lt fun heq => heq.1 ▸ UInt32.le_refl _)
        fun _ hexclude => (Option.some.inj hexclude).symm
    · cases h
      exact .unchanged

lemma NoneOwed.step {c' : Coordinator} (hinv : c.NoneOwed) (h : c.step e = some c') :
    c'.NoneOwed := by
  obtain ⟨⟨⟨state, commands⟩, message⟩, hhandle, rfl⟩ := Option.map_eq_some_iff.1 h
  intro hrun
  cases handled_of_handle hhandle with
  | unchanged =>
    have hrun' : c.state.enginesRunning = true := hrun
    simpa [hrun'] using hinv hrun
  | queued hne => exact .inl hne
  | completed => cases hrun
  | broadcast hwave => exact .inr ⟨_, by simp, hwave⟩

lemma Handled.currentWave_le (h : c.Handled e state commands message)
    (he : e ≠ .waveComplete 4294967295) : c.state.currentWave ≤ state.currentWave := by
  cases h with
  | unchanged => exact UInt32.le_refl _
  | queued => exact UInt32.le_refl _
  | broadcast _ hle => exact hle
  | @completed wave heq hle =>
    subst heq
    have hlast : wave.toNat ≠ 4294967295 := fun h => he (congrArg _ (UInt32.toNat_inj.1 h))
    have hlt := wave.toNat_lt
    have hone : (1 : UInt32).toNat = 1 := rfl
    rw [UInt32.le_iff_toNat_le] at hle ⊢
    rw [UInt32.toNat_add, hone]
    omega

/-- No wake-up is owed in any state of a run.  An event whose completed wave is not the last number
does not decrease the wave; a broadcast carries the current wave, and excludes only the engine that
has caused it. -/
theorem coordinator_owes_no_wakeup (h : c.Reachable) :
    c.NoneOwed ∧ ∀ e state commands message, e ≠ .waveComplete 4294967295 →
      c.handle e = some ((state, commands), message) → c.state.currentWave ≤ state.currentWave ∧
        ∀ m ∈ message, m.wave = state.currentWave ∧
          ∀ engineIndex ∈ m.excludeEngineIndex, c.MayExclude m engineIndex e := by
  refine ⟨h.invariant (fun c hc => ?_) fun _ _ _ hinv _ hstep => hinv.step hstep,
    fun e state commands message he hhandle => ?_⟩
  · subst hc
    exact fun hrun => nomatch hrun
  · have hhandled := handled_of_handle hhandle
    refine ⟨hhandled.currentWave_le he, fun m hm => ?_⟩
    cases hhandled with
    | broadcast hwave _ hexclude =>
      cases hm
      exact ⟨hwave, hexclude⟩
    | _ => cases hm

lemma exists_reachable (es : List CoordinatorEvent) (R : Coordinator → Prop) [DecidablePred R]
    (h : (runAll step (fun _ _ => True) es {}).any (fun c => decide (R c)) = true) :
    ∃ c, Reachable c ∧ R c :=
  Reached.exists_runAll rfl es R h

/-- The request of a wave that is over when its command is handled: the next wave is broadcast, and
no engine is excluded. -/
theorem stale_first_request_broadcast : ∃ c, Reachable c ∧ c.state.enginesRunning = true ∧
    c.commands = [] ∧ ∃ m ∈ c.sinceRunning, m.wave = 1 := by
  obtain ⟨c, hreach, hrun, hcommands, hwave⟩ := exists_reachable
    [.notifyFirstRequest [0, 0], .waveComplete 0, .command]
    (fun c => c.state.enginesRunning = true ∧ c.commands.isEmpty ∧ c.state.currentWave = 1)
    (by decide +kernel)
  have hnone : c.commands = [] := List.isEmpty_iff.1 hcommands
  have howed := (coordinator_owes_no_wakeup hreach).1 hrun
  exact ⟨c, hreach, hrun, hnone, hwave ▸ howed.resolve_left (absurd hnone)⟩

/-- Completing wave `u32::MAX` takes the wave back to zero. -/
theorem current_wave_wraps : ∃ c, Reachable c ∧ ∃ state commands message,
    c.handle (.waveComplete 4294967295) = some ((state, commands), message) ∧
      state.currentWave < c.state.currentWave := by
  obtain ⟨c, hreach, hwave⟩ :=
    exists_reachable [.waveComplete 0] (·.state.currentWave = 1) (by decide +kernel)
  refine ⟨c, hreach, _, _, _, rfl, ?_⟩
  rw [CoordinatorStateSnapshot.waveComplete, hwave, if_pos (by decide)]
  decide

end Coordinator

end Lvllm
