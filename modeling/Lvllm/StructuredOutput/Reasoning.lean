import Mathlib.Data.List.Basic
import Mathlib.Tactic.Linarith
import Lvllm.Foundation.Run

/-!
# What the grammar of a reasoning request sees

A request with a grammar and a reasoning parser hands its grammar the tokens after the marker that ends
reasoning.  The scheduler asks `shouldAdvance` after every step, with the new tokens, and also between steps,
without tokens, when it receives drafts; the marker's index is stored by the call that sees it, and
`trimReasoningForAdvance` cuts the tokens of a step at it.  The invariant `GrammarFed` compares what was
handed over with `afterReasoning`, which looks at the whole output.
-/

namespace Lvllm

open List

variable {T : Type}

/-- A `ReasoningParser`.  Its streaming test fires on a delta if it fires on one of the delta's tokens,
given what precedes it. -/
structure ReasoningParser (T : Type) where
  isReasoningEnd : List T → Bool
  isReasoningEndStreaming : List T → List T → Bool
  streaming_iff : ∀ p d, isReasoningEndStreaming (p ++ d) d = true ↔
    ∃ d₁ t d₂, d = d₁ ++ t :: d₂ ∧ isReasoningEndStreaming (p ++ d₁ ++ [t]) [t] = true

/-- What `StructuredOutputManager` has for a request that concerns reasoning: the parser that
`_get_reasoner` built for the request, and a setting. -/
structure StructuredOutputManager (T : Type) where
  reasoner : Option (ReasoningParser T)
  enableInReasoning : Bool

/-- A request and its `StructuredOutputRequest`. -/
structure SoRequest (T : Type) where
  useStructuredOutput : Bool
  promptTokenIds : List T
  outputTokenIds : List T
  numComputedTokens : ℤ
  numOutputPlaceholders : ℤ
  reasoningEnded : Option Bool
  reasoningEndTokenIndex : Option ℕ

/-- `Request.all_token_ids`. -/
def SoRequest.allTokenIds (r : SoRequest T) : List T := r.promptTokenIds ++ r.outputTokenIds

/-- `StructuredOutputManager.should_fill_bitmask`; it may settle `reasoning_ended` from the prompt. -/
def shouldFillBitmask (m : StructuredOutputManager T) (r : SoRequest T) : Bool × SoRequest T :=
  if m.enableInReasoning || r.reasoningEnded == some true then (true, r)
  else match m.reasoner with
    | none => (true, r)
    | some R =>
      let ended := r.reasoningEnded.getD (R.isReasoningEnd r.promptTokenIds)
      (ended, { r with reasoningEnded := some ended })

/-- The loop of `_find_reasoning_end_index`. -/
def findReasoningEnd (R : ReasoningParser T) : List T → List T → Option ℕ
  | _, [] => none
  | pre, t :: ts =>
    if R.isReasoningEndStreaming (pre ++ [t]) [t] then some pre.length
    else findReasoningEnd R (pre ++ [t]) ts

/-- `_find_reasoning_end_index`. -/
def findReasoningEndIndex (R : ReasoningParser T) (allTokenIds : List T) (start : ℕ) : ℕ :=
  (findReasoningEnd R (allTokenIds.take start) (allTokenIds.drop start)).getD (allTokenIds.length - 1)

/-- Where the window of a call without new tokens starts. -/
def SoRequest.deltaStart (r : SoRequest T) : ℕ :=
  let deltaFrom := r.numComputedTokens - r.numOutputPlaceholders
  if 0 ≤ deltaFrom then deltaFrom.toNat else (max (r.allTokenIds.length + deltaFrom) 0).toNat

/-- `StructuredOutputManager.should_advance`; no new tokens are the empty list. -/
def shouldAdvance (m : StructuredOutputManager T) (r : SoRequest T) (newTokenIds : List T) :
    Bool × SoRequest T :=
  if !r.useStructuredOutput then (false, r)
  else if m.enableInReasoning || r.reasoningEnded == some true then (true, r)
  else match m.reasoner with
    | none => (true, r)
    | some R =>
      let start := if newTokenIds.isEmpty then r.deltaStart
        else r.allTokenIds.length - newTokenIds.length
      let deltaIds := if newTokenIds.isEmpty then r.allTokenIds.drop start else newTokenIds
      if R.isReasoningEndStreaming r.allTokenIds deltaIds then
        (true, { r with
          reasoningEnded := some true
          reasoningEndTokenIndex := some (findReasoningEndIndex R r.allTokenIds start) })
      else (false, r)

/-- `trim_reasoning_for_advance`. -/
def trimReasoningForAdvance (r : SoRequest T) (newTokenIds : List T) : List T :=
  match r.reasoningEndTokenIndex with
  | none => newTokenIds
  | some endIdx => newTokenIds.drop (endIdx + 1 - (r.allTokenIds.length - newTokenIds.length))

/-! ## Runs of a request -/

/-- A request with the lists its grammar was given, and whether the grammar rejected one. -/
structure GrammarRun (T : Type) where
  request : SoRequest T
  passed : List (List T)
  rejected : Bool

/-- What happens to a request: the output of a step, a call of `should_advance` without tokens (for
drafts) under some counts of the scheduler, a call of `should_fill_bitmask`. -/
inductive GrammarEvent (T : Type) where
  | output (newTokenIds : List T)
  | drafts (numComputedTokens numOutputPlaceholders : ℤ)
  | fillBitmask

/-- The part of `update_from_output` that feeds the grammar; `accepts` is the answer of
`accept_tokens` after what it was given before.  A rejection finishes the request. -/
def updateFromOutput (m : StructuredOutputManager T) (accepts : List (List T) → List T → Bool)
    (s : GrammarRun T) (newTokenIds : List T) : GrammarRun T :=
  let r := { s.request with outputTokenIds := s.request.outputTokenIds ++ newTokenIds }
  if newTokenIds.isEmpty then { s with request := r }
  else
    let (advance, r') := shouldAdvance m r newTokenIds
    if !advance then { s with request := r' }
    else
      let advanceTokenIds := trimReasoningForAdvance r' newTokenIds
      if advanceTokenIds.isEmpty then { s with request := r' }
      else
        { request := r', passed := s.passed ++ [advanceTokenIds],
          rejected := !accepts s.passed advanceTokenIds }

/-- One event; a finished request has none. -/
def grammarStep (m : StructuredOutputManager T) (accepts : List (List T) → List T → Bool)
    (s : GrammarRun T) (e : GrammarEvent T) : Option (GrammarRun T) :=
  if s.rejected then none
  else some <| match e with
    | .output newTokenIds => updateFromOutput m accepts s newTokenIds
    | .drafts c p =>
      let r := { s.request with numComputedTokens := c, numOutputPlaceholders := p }
      { s with request := (shouldAdvance m r []).2 }
    | .fillBitmask => { s with request := (shouldFillBitmask m s.request).2 }

/-- A new structured-output request: it has no output, and its reasoning did not end in the prompt. -/
def grammarInit (R : ReasoningParser T) (prompt : List T) (s : GrammarRun T) : Prop :=
  s.request.useStructuredOutput = true ∧ s.request.promptTokenIds = prompt ∧
    s.request.outputTokenIds = [] ∧ s.request.reasoningEnded ≠ some true ∧
    s.request.reasoningEndTokenIndex = none ∧ R.isReasoningEnd prompt = false ∧
    s.passed = [] ∧ s.rejected = false

/-- As long as reasoning goes on, no token of the prompt in the window of a call without new tokens ends
reasoning given what precedes it. -/
def PromptOutside (R : ReasoningParser T) (s : GrammarRun T) : GrammarEvent T → Prop
  | .drafts c p => s.request.reasoningEnded ≠ some true → ∀ pre t post, s.request.promptTokenIds = pre ++ t :: post →
    ({ s.request with numComputedTokens := c, numOutputPlaceholders := p } : SoRequest T).deltaStart
      ≤ pre.length → R.isReasoningEndStreaming (pre ++ [t]) [t] = false
  | _ => True

/-- The output after the first token that ends reasoning, given the tokens before it. -/
def afterReasoning (R : ReasoningParser T) : List T → List T → List T
  | _, [] => []
  | pre, t :: ts =>
    if R.isReasoningEndStreaming (pre ++ [t]) [t] then ts else afterReasoning R (pre ++ [t]) ts

/-! ## Searching the marker -/

section Search

variable {R : ReasoningParser T}

lemma findReasoningEnd_none_iff {pre ts : List T} :
    findReasoningEnd R pre ts = none ↔ ∀ d₁ t d₂, ts = d₁ ++ t :: d₂ →
      R.isReasoningEndStreaming (pre ++ d₁ ++ [t]) [t] = false := by
  induction ts generalizing pre with
  | nil => simp [findReasoningEnd]
  | cons t ts ih =>
    unfold findReasoningEnd
    split
    · rename_i h
      exact iff_of_false (by simp) fun hall => by simpa [h] using hall [] t ts rfl
    · rename_i h
      rw [ih]
      constructor
      · intro hall d₁ x d₂ heq
        cases d₁ with
        | nil =>
          cases heq
          simpa using h
        | cons y d₁ =>
          cases heq
          simpa using hall d₁ x d₂ rfl
      · intro hall d₁ x d₂ heq
        simpa using hall (t :: d₁) x d₂ (by rw [heq, cons_append])

/-- The streaming test fires exactly if the search finds a token. -/
lemma streaming_iff_find (pre d : List T) :
    R.isReasoningEndStreaming (pre ++ d) d = true ↔ ∃ e, findReasoningEnd R pre d = some e := by
  rw [← Option.ne_none_iff_exists', Ne, findReasoningEnd_none_iff, R.streaming_iff]
  constructor
  · rintro ⟨d₁, t, d₂, rfl, h⟩ hall
    rw [hall d₁ t d₂ rfl] at h
    cases h
  · intro h
    by_contra hno
    refine h fun d₁ t d₂ heq => ?_
    by_contra hfire
    exact hno ⟨d₁, t, d₂, heq, by simpa using hfire⟩

/-- Before the marker nothing is left over, and the search goes on behind it. -/
lemma find_append_of_none {pre d : List T} (d' : List T) (h : findReasoningEnd R pre d = none) :
    findReasoningEnd R pre (d ++ d') = findReasoningEnd R (pre ++ d) d' ∧
      afterReasoning R pre (d ++ d') = afterReasoning R (pre ++ d) d' := by
  induction d generalizing pre with
  | nil => simp
  | cons t d ih =>
    unfold findReasoningEnd at h
    split at h
    · cases h
    · rename_i hno
      simpa [findReasoningEnd, afterReasoning, hno] using ih h

/-- A marker that was found stays, and what follows it is handed over. -/
lemma find_append_of_some {pre d : List T} {e : ℕ} (d' : List T) (h : findReasoningEnd R pre d = some e) :
    findReasoningEnd R pre (d ++ d') = some e ∧ pre.length ≤ e ∧ e < pre.length + d.length ∧
      afterReasoning R pre (d ++ d') = d.drop (e + 1 - pre.length) ++ d' := by
  induction d generalizing pre with
  | nil => cases h
  | cons t d ih =>
    unfold findReasoningEnd at h
    split at h
    · rename_i hfire
      cases h
      simp [findReasoningEnd, afterReasoning, hfire]
    · rename_i hno
      obtain ⟨h1, h2, h3, h4⟩ := ih h
      simp only [length_append, length_cons, length_nil] at h2 h3 h4
      refine ⟨by simpa [findReasoningEnd, hno] using h1, by omega, by simp; omega, ?_⟩
      obtain ⟨k, rfl⟩ : ∃ k, e = pre.length + 1 + k := ⟨e - (pre.length + 1), by omega⟩
      have h5 : pre.length + 1 + k + 1 - pre.length = k + 2 := by omega
      have h6 : pre.length + 1 + k + 1 - (pre.length + (0 + 1)) = k + 1 := by omega
      rw [h5]
      rw [h6] at h4
      simpa [afterReasoning, hno] using h4

end Search

/-! ## The invariant -/

/-- What a request's flags say about its output, and what its grammar was given. -/
structure GrammarFed (R : ReasoningParser T) (prompt : List T) (s : GrammarRun T) : Prop where
  structured : s.request.useStructuredOutput = true
  prompt_eq : s.request.promptTokenIds = prompt
  prompt_open : R.isReasoningEnd prompt = false
  index : s.request.reasoningEndTokenIndex = findReasoningEnd R prompt s.request.outputTokenIds
  ended : s.request.reasoningEnded = some true ↔ s.request.reasoningEndTokenIndex ≠ none
  passed : s.passed.flatten = afterReasoning R prompt s.request.outputTokenIds

variable {m : StructuredOutputManager T} {accepts : List (List T) → List T → Bool}
  {R : ReasoningParser T} {prompt : List T} {s s' : GrammarRun T}

lemma GrammarFed.init (h : grammarInit R prompt s) : GrammarFed R prompt s := by
  obtain ⟨h1, h2, h3, h4, h5, h6, h7, -⟩ := h
  exact ⟨h1, h2, h6, by rw [h3, h5]; rfl, by simp [h4, h5], by rw [h3, h7]; rfl⟩

lemma GrammarFed.output (hR : m.reasoner = some R) (hm : m.enableInReasoning = false)
    (h : GrammarFed R prompt s) (new : List T) :
    GrammarFed R prompt (updateFromOutput m accepts s new) := by
  obtain ⟨⟨u, p, o, c, ph, ended, idx⟩, passed, rejected⟩ := s
  obtain ⟨h1, h2, h3, h4, h5, h6⟩ := h
  subst h1 h2
  cases new with
  | nil =>
    simp only [updateFromOutput, append_nil, isEmpty_nil, if_true]
    exact ⟨rfl, rfl, h3, h4, h5, h6⟩
  | cons t ts =>
    have hne : (t :: ts).isEmpty = false := rfl
    generalize t :: ts = new at hne ⊢
    have hlen : (p ++ (o ++ new)).length - new.length = (p ++ o).length := by simp; omega
    rcases hfind : findReasoningEnd R p o with _ | e
    · -- reasoning goes on before this step
      have hidx : idx = none := h4.trans hfind
      have hend : (ended == some true) = false := by simpa [hidx] using h5
      have hap := find_append_of_none new hfind
      have hold := find_append_of_none [] hfind
      rw [append_nil] at hold
      have hpass : passed.flatten = [] := h6.trans (by rw [hold.2]; rfl)
      have hstream := streaming_iff_find (R := R) (p ++ o) new
      rcases hnext : findReasoningEnd R (p ++ o) new with _ | e'
      · have hno : R.isReasoningEndStreaming (p ++ (o ++ new)) new = false := by
          simpa [hnext] using hstream
        simp only [updateFromOutput, shouldAdvance, SoRequest.allTokenIds, hne, hm, hR, hno, hend,
          Bool.not_true, Bool.false_eq_true, if_false, Bool.or_self, Bool.not_false, if_true]
        refine ⟨rfl, rfl, h3, ?_, by simpa [hidx] using hend, ?_⟩
        · exact hidx.trans (by rw [hap.1, hnext])
        · have := find_append_of_none [] hnext
          rw [append_nil] at this
          simp only [hpass, hap.2, this.2]
          rfl
      · -- the marker is in this step: the search of the call finds it, and the step is cut there
        have hyes : R.isReasoningEndStreaming (p ++ (o ++ new)) new = true := by
          simpa [hnext] using hstream
        obtain ⟨-, hge, hlt, hafter⟩ := find_append_of_some [] hnext
        rw [append_nil, append_nil] at hafter
        have hidx' : findReasoningEndIndex R (p ++ (o ++ new)) (p ++ o).length = e' := by
          unfold findReasoningEndIndex
          rw [← append_assoc, take_left, drop_left, hnext]
          rfl
        simp only [updateFromOutput, shouldAdvance, SoRequest.allTokenIds, hne, hm, hR, hyes, hend,
          Bool.not_true, Bool.false_eq_true, if_false, Bool.or_self, if_true, hlen, hidx',
          trimReasoningForAdvance]
        split
        · rename_i hempty
          refine ⟨rfl, rfl, h3, by rw [hap.1, hnext], by simp, ?_⟩
          rw [hpass, hap.2, hafter]
          exact (List.isEmpty_iff.1 hempty).symm
        · refine ⟨rfl, rfl, h3, by rw [hap.1, hnext], by simp, ?_⟩
          simp only [flatten_append, hpass, hap.2, hafter]
          simp
    · -- reasoning ended before: the stored index is behind this step
      have hidx : idx = some e := h4.trans hfind
      have hend : ended = some true := h5.2 (by simp [hidx])
      obtain ⟨hkeep, hge, hlt, hafter⟩ := find_append_of_some new hfind
      have hold := (find_append_of_some [] hfind).2.2.2
      rw [append_nil, append_nil] at hold
      have hzero : e + 1 - (p ++ o).length = 0 := by simp; omega
      simp only [updateFromOutput, shouldAdvance, SoRequest.allTokenIds, hne, hend, hidx, hlen,
        trimReasoningForAdvance, hzero, drop_zero, Bool.not_true, Bool.false_eq_true, if_false,
        beq_self_eq_true, Bool.or_true, if_true]
      refine ⟨rfl, rfl, h3, by rw [hkeep], by simp, ?_⟩
      simp only [flatten_append, h6, hold, hafter]
      simp

/-- A call without new tokens sees no marker: those of the output were seen before. -/
lemma GrammarFed.window_open (h : GrammarFed R prompt s) (hidx : s.request.reasoningEndTokenIndex = none)
    {start : ℕ} (hP : ∀ pre t post, prompt = pre ++ t :: post → start ≤ pre.length →
      R.isReasoningEndStreaming (pre ++ [t]) [t] = false) :
    R.isReasoningEndStreaming s.request.allTokenIds (s.request.allTokenIds.drop start) = false := by
  obtain ⟨all, hall⟩ : ∃ all, all = s.request.allTokenIds := ⟨_, rfl⟩
  have hsplit : all = prompt ++ s.request.outputTokenIds := by rw [hall, ← h.prompt_eq]; rfl
  have hout := findReasoningEnd_none_iff.1 (h.index.symm.trans hidx)
  have hstream := streaming_iff_find (R := R) (all.take start) (all.drop start)
  rw [take_append_drop] at hstream
  rw [← hall, ← Bool.not_eq_true, hstream, not_exists]
  refine fun e he => Option.some_ne_none e (he.symm.trans (findReasoningEnd_none_iff.2 ?_))
  intro d₁ t d₂ hd
  have hlen : start ≤ (all.take start ++ d₁).length := by
    have := congrArg List.length hd
    simp at this ⊢
    omega
  have hcut : prompt ++ s.request.outputTokenIds = (all.take start ++ d₁) ++ t :: d₂ := by
    rw [append_assoc, ← hd, take_append_drop, hsplit]
  rcases append_eq_append_iff.1 hcut with ⟨o1, hpre, ho⟩ | ⟨q, hp, hq⟩
  · rw [hpre]
    exact hout o1 t d₂ ho
  · cases q with
    | nil =>
      have := hout [] t d₂ hq.symm
      rwa [append_nil, hp, append_nil] at this
    | cons x q =>
      cases hq
      exact hP _ t q hp hlen

lemma GrammarFed.step (hR : m.reasoner = some R) (hm : m.enableInReasoning = false)
    {e : GrammarEvent T} (h : GrammarFed R prompt s) (hP : PromptOutside R s e)
    (hstep : grammarStep m accepts s e = some s') : GrammarFed R prompt s' := by
  unfold grammarStep at hstep
  split at hstep
  · cases hstep
  · obtain rfl := Option.some.inj hstep
    obtain ⟨h1, h2, h3, h4, h5, h6⟩ := h
    have hended : s.request.reasoningEndTokenIndex = none →
        (s.request.reasoningEnded == some true) = false := by
      intro hidx
      simpa [hidx] using h5
    cases e with
    | output new => exact GrammarFed.output hR hm ⟨h1, h2, h3, h4, h5, h6⟩ new
    | drafts c p =>
      obtain ⟨r, hr⟩ : ∃ r : SoRequest T,
        r = { s.request with numComputedTokens := c, numOutputPlaceholders := p } := ⟨_, rfl⟩
      have hkeep : (shouldAdvance m r []).2 = r := by
        rcases hidx : s.request.reasoningEndTokenIndex with _ | i
        · have hopen : R.isReasoningEndStreaming r.allTokenIds
              (r.allTokenIds.drop r.deltaStart) = false := by
            refine GrammarFed.window_open (s := { s with request := r })
              (by rw [hr]; exact ⟨h1, h2, h3, h4, h5, h6⟩) (by rw [hr]; exact hidx) ?_
            rw [hr, ← h2]
            exact hP (by simpa using hended hidx)
          have hend : (r.reasoningEnded == some true) = false := by rw [hr]; exact hended hidx
          simp [shouldAdvance, hm, hR, hend, hopen]
        · have hend : r.reasoningEnded = some true := by
            rw [hr]
            exact h5.2 (by simp [hidx])
          simp [shouldAdvance, hend]
          split <;> rfl
      simp only [← hr, hkeep]
      rw [hr]
      exact ⟨h1, h2, h3, h4, h5, h6⟩
    | fillBitmask =>
      rcases hidx : s.request.reasoningEndTokenIndex with _ | i
      · have hend := hended hidx
        have hflag : s.request.reasoningEnded.getD (R.isReasoningEnd s.request.promptTokenIds) =
            false := by
          rw [h2, h3]
          revert hend
          rcases s.request.reasoningEnded with _ | _ | _ <;> simp
        simp only [shouldFillBitmask, hm, hend, hR, hflag]
        exact ⟨h1, h2, h3, h4, by simp [hidx], h6⟩
      · have hend := h5.2 (by simp [hidx])
        simp only [shouldFillBitmask, hend]
        simp only [beq_self_eq_true, Bool.or_true, if_true]
        exact ⟨h1, h2, h3, h4, h5, h6⟩

/-- In every run of a request whose grammar is not used during reasoning, the grammar was given exactly
the output after the first token that ends reasoning, and nothing if there is none. -/
theorem grammar_sees_output_after_reasoning (m : StructuredOutputManager T)
    (accepts : List (List T) → List T → Bool) (R : ReasoningParser T) (prompt : List T)
    (hR : m.reasoner = some R) (hm : m.enableInReasoning = false) {s : GrammarRun T}
    (h : Reached (grammarInit R prompt) (grammarStep m accepts) (PromptOutside R) s) :
    s.passed.flatten = afterReasoning R prompt s.request.outputTokenIds :=
  (h.invariant (I := GrammarFed R prompt) (fun _ => GrammarFed.init)
    fun _ _ _ hs hP hstep => hs.step hR hm hP hstep).passed

/-- A parser whose marker is the token 0; a prompt has ended reasoning if its last token is the
marker. -/
def markerParser : ReasoningParser ℕ where
  isReasoningEnd ids := ids.getLast? == some 0
  isReasoningEndStreaming _ delta := delta.contains 0
  streaming_iff p d := by
    rw [List.contains_iff_mem, List.mem_iff_append]
    constructor
    · rintro ⟨d₁, d₂, rfl⟩
      exact ⟨d₁, 0, d₂, rfl, rfl⟩
    · rintro ⟨d₁, t, d₂, rfl, h⟩
      obtain rfl : 0 = t := by simpa using h
      exact ⟨d₁, d₂, rfl⟩

/-- A new request with the prompt 0, 7. -/
def reasoningRequest : GrammarRun ℕ where
  request := ⟨true, [0, 7], [], 2, 0, none, none⟩
  passed := []
  rejected := false

lemma reasoningRequest_init : grammarInit markerParser [0, 7] reasoningRequest := by
  simp [grammarInit, reasoningRequest, markerParser]

/-- The marker arrives in the middle of a step, between calls for drafts. -/
theorem grammar_sees_output_after_marker : ∃ s, Reached (grammarInit markerParser [0, 7])
      (grammarStep ⟨some markerParser, false⟩ fun _ _ => true) (PromptOutside markerParser) s ∧
    s.request.outputTokenIds = [5, 0, 6, 8] ∧
    s.passed.flatten = afterReasoning markerParser [0, 7] s.request.outputTokenIds := by
  have h0 : Reached (grammarInit markerParser [0, 7])
      (grammarStep ⟨some markerParser, false⟩ fun _ _ => true) (PromptOutside markerParser)
      reasoningRequest := .init reasoningRequest_init
  have h1 := h0.step GrammarEvent.fillBitmask trivial rfl
  have h2 := h1.step (GrammarEvent.output [5]) trivial rfl
  have h3 := h2.step (GrammarEvent.drafts 2 0) (by
    intro _ pre t post hp hle
    have hlen := congrArg List.length hp
    have hle' : 2 ≤ pre.length := hle
    have hlen' : 2 = (pre ++ t :: post).length := hlen
    rw [length_append, length_cons] at hlen'
    omega) rfl
  have h4 := h3.step (GrammarEvent.output [0, 6]) trivial rfl
  have h5 := h4.step (GrammarEvent.output [8]) trivial rfl
  exact ⟨_, h5, rfl, grammar_sees_output_after_reasoning ⟨some markerParser, false⟩
    (fun _ _ => true) markerParser [0, 7] rfl rfl h5⟩

/-- A call for drafts whose window reaches a marker in the prompt: the grammar is given the reasoning. -/
theorem grammar_sees_reasoning_after_old_marker : ∃ s, Reached (grammarInit markerParser [0, 7])
      (grammarStep ⟨some markerParser, false⟩ fun _ _ => true) (fun _ _ => True) s ∧
    s.passed.flatten = [5] ∧ afterReasoning markerParser [0, 7] s.request.outputTokenIds = [] :=
  ⟨_, ((Reached.init reasoningRequest_init).step (GrammarEvent.drafts 0 0) trivial rfl).step
    (GrammarEvent.output [5]) trivial rfl, rfl, rfl⟩

/-- With `enable_in_reasoning` the grammar is given the tokens of the reasoning too. -/
theorem grammar_sees_reasoning : ∃ s, Reached (grammarInit markerParser [0, 7])
      (grammarStep ⟨some markerParser, true⟩ fun _ _ => true) (PromptOutside markerParser) s ∧
    s.passed.flatten = [5] ∧ afterReasoning markerParser [0, 7] s.request.outputTokenIds = [] :=
  ⟨_, (Reached.init reasoningRequest_init).step (GrammarEvent.output [5]) trivial rfl, rfl, rfl⟩

end Lvllm
