import Lvllm.Request.Request

/-!
# Stopping

`check_stop` (`vllm/v1/core/sched/utils.py`) looks at a request after a token was appended: it stops
on the end-of-sequence token, on a stop token, at the length limits, and, past the least number of
tokens, on a repeating pattern at the end of the output.
-/

namespace Lvllm

/-- `token_ids[-k]`. -/
def fromEnd (tokenIds : List Token) (k : ℕ) : Option Token := tokenIds[tokenIds.length - k]?

/-- `_has_repeating_pattern`: the last `patternLen` tokens stand `repetitionMinCount` times in a row
at the end. -/
def hasRepeatingPattern (tokenIds : List Token) (patternLen repetitionMinCount : ℕ) : Bool :=
  (List.range patternLen).all fun n =>
    (List.range (repetitionMinCount - 1)).all fun m =>
      fromEnd tokenIds (patternLen * (m + 1) + (n + 1)) == fromEnd tokenIds (n + 1)

/-- The loop of `check_sequence_repetition` over the pattern lengths. -/
def searchRepetition (tokenIds : List Token) (minCount : ℕ) : List ℕ → Bool
  | [] => false
  | patternLen :: rest =>
    if patternLen * minCount > tokenIds.length then false
    else hasRepeatingPattern tokenIds patternLen minCount || searchRepetition tokenIds minCount rest

/-- `check_sequence_repetition`. -/
def checkSequenceRepetition (tokenIds : List Token) (params : RepetitionDetectionParams) : Bool :=
  let minPatternSize := if params.minPatternSize ≤ 0 then 1 else params.minPatternSize
  if params.maxPatternSize ≤ 0 ∨ params.minCount < 2 ∨ minPatternSize > params.maxPatternSize then
    false
  else
    searchRepetition tokenIds params.minCount.toNat
      ((List.range (params.maxPatternSize - minPatternSize + 1).toNat).map
        (· + minPatternSize.toNat))

variable {H : Type}

/-- The checks of `check_stop` in their order: the status the request takes and its stop reason, if
it stops. -/
def stopStatus (r : Request H) (sp : SamplingParams) (lastTokenId : Token) (maxModelLen : ℕ) :
    Option (RequestStatus × Option StopReason) :=
  if sp.eosTokenId = some lastTokenId then some (.finishedStopped, r.stopReason)
  else if lastTokenId ∈ sp.stopTokenIds then some (.finishedStopped, some (.token lastTokenId))
  else if r.numTokens ≥ maxModelLen ∨ r.numOutputTokens ≥ r.maxTokens then
    some (.finishedLengthCapped, r.stopReason)
  else if r.numOutputTokens < sp.minTokens then none
  else if sp.repetitionDetection.any (checkSequenceRepetition r.outputTokenIds) then
    some (.finishedRepetition, some (.text "repetition_detected"))
  else none

/-- `check_stop`: the request with its new status, and whether it stops. -/
def checkStop (r : Request H) (maxModelLen : ℕ) : Except PyErr (Request H × Bool) :=
  match r.poolingParams, r.samplingParams, r.outputTokenIds.getLast? with
  | some _, _, _ => .error .assertionError
  | none, none, _ => .error .assertionError
  | none, some _, none => .error .indexError
  | none, some sp, some lastTokenId =>
    match stopStatus r sp lastTokenId maxModelLen with
    | none => .ok (r, false)
    | some (status, reason) => .ok ({ r with status := status, stopReason := reason }, true)

/-- A request that stops has a finished status. -/
lemma isFinished_of_stopStatus {r : Request H} {sp : SamplingParams} {t : Token} {n : ℕ}
    {status : RequestStatus} {reason : Option StopReason}
    (h : stopStatus r sp t n = some (status, reason)) : status.isFinished = true := by
  unfold stopStatus at h
  split at h
  · cases h
    rfl
  split at h
  · cases h
    rfl
  split at h
  · cases h
    rfl
  split at h
  · cases h
  split at h
  · cases h
    rfl
  · cases h

/-- `check_stop` changes nothing but the status and the stop reason, and those only to stop. -/
lemma checkStop_eq_ok {r r' : Request H} {n : ℕ} {stopped : Bool}
    (h : checkStop r n = .ok (r', stopped)) :
    stopped = false ∧ r' = r ∨
      stopped = true ∧ ∃ status reason, RequestStatus.isFinished status = true ∧
        r' = { r with status := status, stopReason := reason } := by
  unfold checkStop at h
  split at h
  · cases h
  · cases h
  · cases h
  · split at h
    · cases h
      exact .inl ⟨rfl, rfl⟩
    · rename_i status reason hstop
      cases h
      exact .inr ⟨rfl, status, reason, isFinished_of_stopStatus hstop, rfl⟩

/-- Whether `check_stop` stops a request. -/
def stopsNow (r : Request H) (maxModelLen : ℕ) : Bool :=
  (checkStop r maxModelLen).toOption.any Prod.snd

/-- The parameters and the tokens of a request, which decide whether it stops. -/
abbrev Request.stopFields (r : Request H) :=
  (r.poolingParams, r.samplingParams, r.allTokenIds, r.outputTokenIds, r.maxTokens)

lemma stopsNow_congr {r r' : Request H} (h : r.stopFields = r'.stopFields) (n : ℕ) :
    stopsNow r n = stopsNow r' n := by
  simp only [Prod.mk.injEq] at h
  obtain ⟨hpooling, hsampling, hall, houtput, hmax⟩ := h
  unfold stopsNow checkStop stopStatus Request.numTokens Request.numOutputTokens
  rw [hpooling, hsampling, hall, houtput, hmax]
  cases r'.poolingParams with
  | some _ => rfl
  | none =>
    cases r'.samplingParams with
    | none => rfl
    | some sp =>
      cases r'.outputTokenIds.getLast? with
      | none => rfl
      | some t =>
        dsimp only
        split_ifs <;> rfl

/-- The last three tokens repeat the three before them. -/
example : checkSequenceRepetition [9, 1, 2, 3, 1, 2, 3] ⟨4, 2, 2⟩ = true := by decide

end Lvllm
