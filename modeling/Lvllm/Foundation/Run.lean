import Mathlib.Logic.Basic

/-!
# Runs of a guarded machine

A machine has initial states and a partial step function that takes a state and an event.
`Reached init step P` are the states that events lead to from an initial state when each event
satisfies the guard `P` in the state it happens in.  `Reached.invariant` is the induction over
runs.  A run can also be computed: `runAll` checks the guard before each step, and what it returns
is reached.
-/

namespace Lvllm

variable {σ ε : Type*} {init : σ → Prop} {step : σ → ε → Option σ} {P Q : σ → ε → Prop}

/-- The states that guarded steps lead to from an initial state. -/
inductive Reached (init : σ → Prop) (step : σ → ε → Option σ) (P : σ → ε → Prop) : σ → Prop
  | init {s : σ} : init s → Reached init step P s
  | step {s s' : σ} (e : ε) :
      Reached init step P s → P s e → step s e = some s' → Reached init step P s'

/-- What holds initially and is kept by guarded steps holds in every state reached. -/
lemma Reached.invariant {I : σ → Prop} (hinit : ∀ s, init s → I s)
    (hstep : ∀ s e s', I s → P s e → step s e = some s' → I s') {s : σ}
    (h : Reached init step P s) : I s := by
  induction h with
  | init h => exact hinit _ h
  | step e _ hP hstep' ih => exact hstep _ e _ ih hP hstep'

/-- Take the events one after another, each under its guard. -/
def runAll (step : σ → ε → Option σ) (P : σ → ε → Prop) [∀ s e, Decidable (P s e)] :
    List ε → σ → Option σ
  | [], s => some s
  | e :: es, s => if P s e then (step s e).bind (runAll step P es) else none

/-- What a computed run returns is reached. -/
lemma Reached.runAll [∀ s e, Decidable (P s e)] {es : List ε} {s s' : σ}
    (h : Reached init step P s) (hrun : runAll step P es s = some s') :
    Reached init step P s' := by
  induction es generalizing s with
  | nil =>
    cases hrun
    exact h
  | cons e es ih =>
    unfold Lvllm.runAll at hrun
    split at hrun
    · rename_i hP
      obtain ⟨s1, hstep, hrest⟩ := Option.bind_eq_some_iff.1 hrun
      exact ih (h.step e hP hstep) hrest
    · cases hrun

/-- A computed run that ends in a state with `R` shows that such a state is reached. -/
lemma Reached.exists_runAll [∀ s e, Decidable (P s e)] {s : σ} (hs : init s) (es : List ε)
    (R : σ → Prop) [DecidablePred R]
    (hrun : (Lvllm.runAll step P es s).any (fun s => decide (R s)) = true) :
    ∃ s, Reached init step P s ∧ R s := by
  obtain ⟨s', hs', hR⟩ := (Option.any_eq_true _ _).1 hrun
  exact ⟨s', (Reached.init hs).runAll hs', of_decide_eq_true hR⟩

end Lvllm
