import Mathlib.Logic.Basic

/-!
# Stateful code with exceptions

Imperative code that reads and writes a state and may raise is a term of `EStateM ε σ α`.  An
exception keeps the state reached so far, as it does in a language without transactions.

`Triple P m Q E` is the usual specification: from a state with `P`, a normal return ends in `Q`
and an exception in `E`.  `Keeps I m` is the case in which one invariant `I` holds before and
after, however `m` ends; it composes along the syntax of `m`, so that an invariant is proved for
the primitive updates and carried to whole functions by the rules here.
-/

namespace Lvllm

universe u

variable {ε σ τ α β : Type u}

/-- From a state with `P`, `m` returns with `Q` or raises with `E`. -/
def Triple (P : σ → Prop) (m : EStateM ε σ α) (Q : α → σ → Prop) (E : ε → σ → Prop) : Prop :=
  ∀ s, P s → match m s with
    | .ok a s' => Q a s'
    | .error e s' => E e s'

/-- The invariant `I` survives `m`, whether it returns or raises. -/
def Keeps (I : σ → Prop) (m : EStateM ε σ α) : Prop :=
  Triple I m (fun _ => I) (fun _ => I)

/-- The state `m` ends in, whether it returns or raises. -/
def finalState (m : EStateM ε σ α) (s : σ) : σ :=
  match m s with
  | .ok _ s' => s'
  | .error _ s' => s'

variable {m : EStateM ε σ α} {f : α → EStateM ε σ β} {s s' : σ} {a : α} {b : β} {x : Except ε α}

/-- `Keeps` speaks about the final state. -/
lemma keeps_iff {I : σ → Prop} : Keeps I m ↔ ∀ s, I s → I (finalState m s) := by
  unfold Keeps Triple finalState
  refine forall_congr' fun s => imp_congr_right fun _ => ?_
  cases m s <;> rfl

/-! ## Evaluation -/

/-- Whether code returns, with a property of what it returns, can be evaluated. -/
instance decidableExistsOk {r : EStateM.Result ε σ α} {R : α → σ → Prop}
    [∀ a s, Decidable (R a s)] : Decidable (∃ a s, r = .ok a s ∧ R a s) :=
  match r with
  | .ok a s => decidable_of_iff (R a s)
      ⟨fun h => ⟨a, s, rfl, h⟩, fun ⟨_, _, heq, h⟩ => by cases heq; exact h⟩
  | .error _ _ => isFalse fun ⟨_, _, heq, _⟩ => nomatch heq

instance decidableExistsExceptOk {R : α → Prop} [DecidablePred R] :
    Decidable (∃ a, x = .ok a ∧ R a) :=
  match x with
  | .ok a => decidable_of_iff (R a) ⟨fun h => ⟨a, rfl, h⟩, fun ⟨_, heq, h⟩ => by cases heq; exact h⟩
  | .error _ => isFalse fun ⟨_, heq, _⟩ => nomatch heq

/-! ## Equations -/

lemma bind_apply (m : EStateM ε σ α) (f : α → EStateM ε σ β) (s : σ) : (m >>= f) s = match m s with
      | .ok a s' => f a s'
      | .error e s' => .error e s' := rfl

lemma bind_ok (h : m s = .ok a s') : (m >>= f) s = f a s' := by
  rw [bind_apply, h]

lemma bind_error {e : ε} (h : m s = .error e s') : (m >>= f) s = .error e s' := by
  rw [bind_apply, h]

/-- A sequence that returns ran through its first part. -/
lemma bind_eq_ok {s'' : σ} :
    (m >>= f) s = .ok b s'' ↔ ∃ a s', m s = .ok a s' ∧ f a s' = .ok b s'' := by
  rw [bind_apply]
  cases m s with
  | ok a s' =>
    constructor
    · intro h
      exact ⟨a, s', rfl, h⟩
    · rintro ⟨a', s1, heq, h⟩
      cases heq
      exact h
  | error e s' => simp

lemma except_map_eq_ok {f : α → β} : x.map f = .ok b ↔ ∃ a, x = .ok a ∧ f a = b := by
  cases x with
  | ok _ | error _ => simp [Except.map]

/-- A pure computation that returns ran through its first part. -/
lemma except_bind_eq_ok {f : α → Except ε β} :
    (x >>= f) = .ok b ↔ ∃ a, x = .ok a ∧ f a = .ok b := by
  cases x with
  | ok a =>
    constructor
    · intro h
      exact ⟨a, rfl, h⟩
    · rintro ⟨a', heq, h⟩
      cases heq
      exact h
  | error e =>
    constructor
    · intro h
      cases h
    · rintro ⟨a, heq, -⟩
      cases heq

@[simp] lemma pure_apply (a : α) (s : σ) : (pure a : EStateM ε σ α) s = .ok a s := rfl

@[simp] lemma map_apply (f : α → β) (m : EStateM ε σ α) (s : σ) : (f <$> m) s = match m s with
      | .ok a s' => .ok (f a) s'
      | .error e s' => .error e s' := rfl

@[simp] lemma get_apply (s : σ) : (get : EStateM ε σ σ) s = .ok s s := rfl

@[simp] lemma throw_apply (e : ε) (s : σ) : (throw e : EStateM ε σ α) s = .error e s := rfl

@[simp] lemma set_apply (s s' : σ) : (set s' : EStateM ε σ PUnit) s = .ok ⟨⟩ s' := rfl

@[simp] lemma modify_apply (f : σ → σ) (s : σ) :
    (modify f : EStateM ε σ PUnit) s = .ok ⟨⟩ (f s) := rfl

lemma bind_get {f : σ → EStateM ε σ β} : (get >>= f) s = f s s := rfl

lemma bind_modify {g : σ → σ} {f : PUnit → EStateM ε σ β} : (modify g >>= f) s = f ⟨⟩ (g s) := rfl

/-- Raise what a computation without effects raises. -/
def liftExcept : Except ε α → EStateM ε σ α
  | .ok a => pure a
  | .error e => throw e

lemma liftExcept_eq_ok : (liftExcept x : EStateM ε σ α) s = .ok a s' ↔ x = .ok a ∧ s' = s := by
  cases x with
  | ok b =>
    constructor
    · intro h
      cases h
      exact ⟨rfl, rfl⟩
    · rintro ⟨heq, rfl⟩
      cases heq
      rfl
  | error e => simp [liftExcept]

/-! ## Loops -/

lemma forM_cons_ok {l : List β} {f : β → EStateM ε σ PUnit} {s'' : σ} (hfirst : f b s = .ok ⟨⟩ s')
    (hrest : l.forM f s' = .ok ⟨⟩ s'') : (b :: l).forM f s = .ok ⟨⟩ s'' :=
  (bind_ok hfirst).trans hrest

/-! ## Rules for invariants -/

namespace Keeps

variable {I : σ → Prop}

lemma pure (a : α) : Keeps I (pure a : EStateM ε σ α) := fun _ hs => hs

lemma throw (e : ε) : Keeps I (throw e : EStateM ε σ α) := fun _ hs => hs

lemma get : Keeps I (get : EStateM ε σ σ) := fun _ hs => hs

lemma modify {f : σ → σ} (hf : ∀ s, I s → I (f s)) :
    Keeps I (modify f : EStateM ε σ PUnit) := fun s hs => hf s hs

lemma bind (hm : Keeps I m) (hf : ∀ a, Keeps I (f a)) : Keeps I (m >>= f) := by
  intro s hs
  rw [bind_apply]
  have h := hm s hs
  cases hms : m s with
  | ok a s' =>
    rw [hms] at h
    exact hf a s' h
  | error e s' =>
    rw [hms] at h
    exact h

lemma map {f : α → β} (hm : Keeps I m) : Keeps I (f <$> m) := by
  intro s hs
  have h := hm s hs
  rw [map_apply]
  cases hms : m s with
  | ok _ _ | error _ _ =>
    rw [hms] at h
    exact h

/-- After reading the state, the rest may use that it is the state just read. -/
lemma get_bind {f : σ → EStateM ε σ β}
    (hf : ∀ s, I s → match f s s with | .ok _ s' => I s' | .error _ s' => I s') :
    Keeps I (MonadState.get >>= f) := fun s hs => hf s hs

lemma ite {c : Prop} [Decidable c] {m' : EStateM ε σ α} (hm : Keeps I m) (hm' : Keeps I m') :
    Keeps I (if c then m else m') := by
  split
  · exact hm
  · exact hm'

lemma liftExcept (x : Except ε α) : Keeps I (liftExcept x : EStateM ε σ α) := by
  cases x with
  | ok a => exact Keeps.pure a
  | error e => exact Keeps.throw e

lemma forM {l : List β} {f : β → EStateM ε σ PUnit} (hf : ∀ b ∈ l, Keeps I (f b)) :
    Keeps I (l.forM f) := by
  induction l with
  | nil => exact Keeps.pure _
  | cons b l ih =>
    exact Keeps.bind (hf b List.mem_cons_self) fun _ =>
      ih fun b' hb' => hf b' (List.mem_cons_of_mem b hb')

lemma ok (hm : Keeps I m) (hs : I s) (h : m s = .ok a s') : I s' := by
  have := hm s hs
  rwa [h] at this

end Keeps

/-! ## Running code on a component of the state -/

/-- Run `m` on the component of the state that `get` reads and `put` writes back. -/
def zoomWith (get : τ → σ) (put : τ → σ → τ) (m : EStateM ε σ α) : EStateM ε τ α := fun t =>
  match m (get t) with
  | .ok a s' => .ok a (put t s')
  | .error e s' => .error e (put t s')

lemma zoomWith_ok {get : τ → σ} {put : τ → σ → τ} {t : τ} (h : m (get t) = .ok a s') :
    zoomWith get put m t = .ok a (put t s') := by
  rw [zoomWith, h]

/-- Normal returns of zoomed code come from normal returns of the code. -/
lemma zoomWith_eq_ok {get : τ → σ} {put : τ → σ → τ} {t t' : τ} :
    zoomWith get put m t = .ok a t' ↔ ∃ s', m (get t) = .ok a s' ∧ t' = put t s' := by
  unfold zoomWith
  cases m (get t) with
  | ok b s' =>
    constructor
    · intro h
      cases h
      exact ⟨s', rfl, rfl⟩
    · rintro ⟨s1, heq, rfl⟩
      cases heq
      rfl
  | error e s' => simp

end Lvllm
