import Lvllm.Foundation.Search
import Lvllm.Request.Request
import Mathlib.Data.List.Induction

/-!
# Detokenization and stop strings

`BaseIncrementalDetokenizer` of `vllm/v1/engine/detokenizer.py`: the tokens of a request are decoded
as they come, the new text is searched for stop strings, and text is handed out with enough held
back that a stop string can still be cut off.

Texts are lists of characters.  Decoding a token is a parameter: it may depend on the state of the
decoder and on all tokens so far.  The slow detokenizer keeps the prompt in front of its tokens, the
fast one does not; `promptLen` says how many tokens do not count as output.

`checkStopStrings_eq` says what the search finds: the first position behind the old text at which a
stop string ends, and the first stop string of the list that ends there.
-/

namespace Lvllm

open List Nat

/-! ## Stop strings -/

/-- The search of one stop string among the others: a match that ends earlier than the best so far
is better.  A match is a stop string and where it starts. -/
def betterStop (outputText : List Char) (newCharCount : ℕ) (best : Option (List Char × ℕ))
    (stopStr : List Char) : Option (List Char × ℕ) :=
  -- the source counts the start from the end of the text, and Python stops at the beginning
  match findFrom stopStr outputText (outputText.length + 1 - (newCharCount + stopStr.length)) with
  | none => best
  | some stopIndex =>
    if best.all fun b => decide (stopIndex + stopStr.length < b.2 + b.1.length) then
      some (stopStr, stopIndex)
    else best

/-- `check_stop_strings`: the stop string and the length to which the text is cut, if it is. -/
def checkStopStrings (outputText : List Char) (newCharCount : ℕ) (stop : List (List Char))
    (includeInOutput : Bool) : Option (List Char × Option ℕ) :=
  if newCharCount = 0 ∨ stop = [] then none
  else
    match stop.foldl (betterStop outputText newCharCount) none with
    | none => none
    | some (stopStr, stopIndex) =>
      if includeInOutput then
        let stopEnd := stopIndex + stopStr.length
        some (stopStr, if outputText.length ≤ stopEnd then none else some stopEnd)
      else some (stopStr, some stopIndex)

/-- A string ends in a text at position `e`. -/
def endsAt (text : List Char) (e : ℕ) (sub : List Char) : Bool :=
  decide (e ≤ text.length ∧ sub <:+ text.take e)

/-- The first position behind `offset` at which one of the strings ends. -/
def firstEnd (stop : List (List Char)) (text : List Char) (offset : ℕ) : Option ℕ :=
  (List.range (text.length + 1)).find? fun e => decide (offset < e) && stop.any (endsAt text e)

/-- Where a text is cut for a stop string that ends at `e`. -/
def cutFor (text : List Char) (includeInOutput : Bool) (e : ℕ) (stopStr : List Char) : Option ℕ :=
  if includeInOutput then if text.length ≤ e then none else some e else some (e - stopStr.length)

variable {sub rest text : List Char} {e offset : ℕ} {stop : List (List Char)}

lemma endsAt_iff {i : ℕ} :
    endsAt text (i + sub.length) sub = true ↔ occursAt sub text i = true := by
  unfold endsAt occursAt
  rw [decide_eq_true_eq, decide_eq_true_eq]
  constructor
  · rintro ⟨hle, hsuf⟩
    refine ⟨by omega, ?_⟩
    rw [suffix_iff_eq_drop, length_take, Nat.min_eq_left hle, Nat.add_sub_cancel,
      drop_take, Nat.add_sub_cancel_left] at hsuf
    rw [prefix_iff_eq_take]
    exact hsuf
  · rintro ⟨hle, hpre⟩
    have hlen := hpre.length_le
    rw [length_drop] at hlen
    have hle' : i + sub.length ≤ text.length := by omega
    refine ⟨hle', ?_⟩
    rw [suffix_iff_eq_drop, length_take, Nat.min_eq_left hle', Nat.add_sub_cancel,
      drop_take, Nat.add_sub_cancel_left]
    exact prefix_iff_eq_take.1 hpre

/-- A string ends no earlier than it is long. -/
lemma length_le_of_endsAt (h : endsAt text e sub = true) : sub.length ≤ e ∧ e ≤ text.length := by
  obtain ⟨hle, hsuf⟩ := of_decide_eq_true h
  have hlen := hsuf.length_le
  rw [length_take] at hlen
  exact ⟨by omega, hle⟩

lemma firstEnd_eq_some : firstEnd stop text offset = some e ↔
      offset < e ∧ (∃ s ∈ stop, endsAt text e s = true) ∧
        ∀ e', offset < e' → e' < e → ∀ s ∈ stop, endsAt text e' s = false := by
  unfold firstEnd
  rw [find?_range_eq_some]
  constructor
  · rintro ⟨he, -, hbefore⟩
    rw [Bool.and_eq_true, decide_eq_true_eq, any_eq_true] at he
    refine ⟨he.1, he.2, fun e' hoff hlt s hs => ?_⟩
    have hnot := hbefore e' hlt
    rw [Bool.not_eq_true', Bool.and_eq_false_iff] at hnot
    have hany := hnot.resolve_left fun hfalse => of_decide_eq_false hfalse hoff
    exact Bool.eq_false_iff.2 (any_eq_false.1 hany s hs)
  · rintro ⟨hoff, hex, hbefore⟩
    obtain ⟨s, hs, hends⟩ := hex
    refine ⟨?_, mem_range.2 (lt_succ_of_le (length_le_of_endsAt hends).2), fun e' hlt => ?_⟩
    · rw [Bool.and_eq_true, decide_eq_true_eq, any_eq_true]
      exact ⟨hoff, s, hs, hends⟩
    · rw [Bool.not_eq_true', Bool.and_eq_false_iff]
      by_cases hoff' : offset < e'
      · refine .inr (any_eq_false.2 fun s' hs' => ?_)
        rw [hbefore e' hoff' hlt s' hs']
        exact Bool.false_ne_true
      · exact .inl (decide_eq_false hoff')

lemma firstEnd_eq_none : firstEnd stop text offset = none ↔
      ∀ e, offset < e → ∀ s ∈ stop, endsAt text e s = false := by
  constructor
  · intro h e hoff s hs
    by_contra hends
    rw [Bool.not_eq_false] at hends
    refine find?_eq_none.1 h e (mem_range.2 (lt_succ_of_le (length_le_of_endsAt hends).2)) ?_
    rw [Bool.and_eq_true, decide_eq_true_eq, any_eq_true]
    exact ⟨hoff, s, hs, hends⟩
  · intro h
    cases hfirst : firstEnd stop text offset with
    | none => rfl
    | some e =>
      obtain ⟨hoff, ⟨s, hs, hends⟩, -⟩ := firstEnd_eq_some.1 hfirst
      rw [h e hoff s hs] at hends
      cases hends

/-- What the loop over stop strings has found: nothing ends behind the offset, or the match ends
first, and no string before it in the list ends there. -/
def StopFound (stop : List (List Char)) (text : List Char) (offset : ℕ) :
    Option (List Char × ℕ) → Prop
  | none => ∀ s ∈ stop, ∀ e, offset < e → endsAt text e s = false
  | some (s, i) => offset < i + s.length ∧ stop.find? (endsAt text (i + s.length)) = some s ∧
      ∀ s' ∈ stop, ∀ e, offset < e → endsAt text e s' = true → i + s.length ≤ e

/-- The match stays if the next string does not end earlier. -/
lemma StopFound.keep {b : List Char × ℕ} (h : StopFound stop text offset (some b))
    (hlater : ∀ e, offset < e → endsAt text e sub = true → b.2 + b.1.length ≤ e) :
    StopFound (stop ++ [sub]) text offset (some b) := by
  obtain ⟨hb, hfind, hmin⟩ := h
  refine ⟨hb, ?_, fun s hs e hlt hends => ?_⟩
  · rw [find?_append, hfind]
    rfl
  · rcases mem_append.1 hs with hs | hs
    · exact hmin s hs e hlt hends
    · exact hlater e hlt (mem_singleton.1 hs ▸ hends)

/-- The next string is the match if it ends before the others. -/
lemma StopFound.better {i : ℕ} (hlate : offset < i + sub.length)
    (hends : endsAt text (i + sub.length) sub = true)
    (hmin : ∀ e, offset < e → endsAt text e sub = true → i + sub.length ≤ e)
    (hless : ∀ s ∈ stop, ∀ e, offset < e → endsAt text e s = true → i + sub.length < e) :
    StopFound (stop ++ [sub]) text offset (some (sub, i)) := by
  refine ⟨hlate, ?_, fun s hs e hlt hends' => ?_⟩
  · have hnone : stop.find? (endsAt text (i + sub.length)) = none :=
      find?_eq_none.2 fun s hs hends' => lt_irrefl _ (hless s hs _ hlate hends')
    rw [find?_append, hnone, Option.none_or, find?_cons_of_pos hends]
  · rcases mem_append.1 hs with hs | hs
    · exact (hless s hs e hlt hends').le
    · exact hmin e hlt (mem_singleton.1 hs ▸ hends')

lemma stopFound_foldl (stop : List (List Char)) (text : List Char) (hoff : offset ≤ text.length) :
    StopFound stop text offset (stop.foldl (betterStop text (text.length - offset)) none) := by
  induction stop using List.reverseRecOn with
  | nil => exact nofun
  | append_singleton stop s ih =>
    rw [foldl_append, foldl_cons, foldl_nil]
    have hstart : text.length + 1 - (text.length - offset + s.length) = offset + 1 - s.length := by
      omega
    generalize stop.foldl (betterStop text (text.length - offset)) none = best at ih ⊢
    unfold betterStop
    rw [hstart]
    cases hfind : findFrom s text (offset + 1 - s.length) with
    | none =>
      have hno : ∀ e, offset < e → endsAt text e s = false := by
        intro e hlt
        by_contra hends
        rw [Bool.not_eq_false] at hends
        have hlen := (length_le_of_endsAt hends).1
        obtain ⟨i, rfl⟩ := Nat.exists_eq_add_of_le' hlen
        have hocc := findFrom_eq_none hfind i (by omega)
        rw [endsAt_iff.1 hends] at hocc
        cases hocc
      cases best with
      | none =>
        intro s' hs' e hlt
        rcases mem_append.1 hs' with hs' | hs'
        · exact ih s' hs' e hlt
        · rw [mem_singleton.1 hs']
          exact hno e hlt
      | some b => exact ih.keep fun e hlt hends => absurd (hno e hlt) (Bool.not_eq_false _ ▸ hends)
    | some i =>
      obtain ⟨hge, hocc, hbefore⟩ := findFrom_eq_some hfind
      have hends : endsAt text (i + s.length) s = true := endsAt_iff.2 hocc
      have hmin : ∀ e, offset < e → endsAt text e s = true → i + s.length ≤ e := by
        intro e hlt hends'
        have hlen := (length_le_of_endsAt hends').1
        obtain ⟨j, rfl⟩ := Nat.exists_eq_add_of_le' hlen
        by_contra hlt'
        have hocc' := hbefore j (by omega) (by omega)
        rw [endsAt_iff.1 hends'] at hocc'
        cases hocc'
      have hlate : offset < i + s.length := by omega
      dsimp only
      cases best with
      | none =>
        refine .better hlate hends hmin fun s' hs' e hlt hends' => ?_
        rw [ih s' hs' e hlt] at hends'
        cases hends'
      | some b =>
        rw [Option.all_some]
        by_cases hless : i + s.length < b.2 + b.1.length
        · rw [if_pos (decide_eq_true hless)]
          exact .better hlate hends hmin fun s' hs' e hlt hends' =>
            hless.trans_le (ih.2.2 s' hs' e hlt hends')
        · rw [if_neg (by rw [decide_eq_true_eq]; exact hless)]
          exact ih.keep fun e hlt hends' => (not_lt.1 hless).trans (hmin e hlt hends')

/-- The search finds the first position behind the old text at which a stop string ends, and the
first stop string that ends there. -/
lemma checkStopStrings_eq (text : List Char) (hoff : offset ≤ text.length) (stop : List (List Char))
    (includeInOutput : Bool) :
    checkStopStrings text (text.length - offset) stop includeInOutput =
      (firstEnd stop text offset).bind fun e =>
        (stop.find? (endsAt text e)).map fun s => (s, cutFor text includeInOutput e s) := by
  have hfound := stopFound_foldl stop text hoff
  unfold checkStopStrings
  split
  · rename_i hor
    have hnone : firstEnd stop text offset = none := by
      refine firstEnd_eq_none.2 fun e hlt s hs => ?_
      rcases hor with hzero | hnil
      · by_contra hends
        rw [Bool.not_eq_false] at hends
        have := (length_le_of_endsAt hends).2
        omega
      · rw [hnil] at hs
        cases hs
    rw [hnone]
    rfl
  · cases hfold : stop.foldl (betterStop text (text.length - offset)) none with
    | none =>
      rw [hfold] at hfound
      have hnone : firstEnd stop text offset = none :=
        firstEnd_eq_none.2 fun e hlt s hs => hfound s hs e hlt
      rw [hnone]
      rfl
    | some b =>
      rw [hfold] at hfound
      obtain ⟨s, i⟩ := b
      obtain ⟨hlate, hfind, hmin⟩ := hfound
      have hfirst : firstEnd stop text offset = some (i + s.length) := by
        refine firstEnd_eq_some.2 ⟨hlate, ⟨s, mem_of_find?_eq_some hfind,
          find?_some hfind⟩, fun e hlt hlt' s' hs' => ?_⟩
        by_contra hends
        rw [Bool.not_eq_false] at hends
        have := hmin s' hs' e hlt hends
        omega
      rw [hfirst, Option.bind_some, hfind, Option.map_some]
      unfold cutFor
      dsimp only
      rw [Nat.add_sub_cancel]
      split <;> rfl

/-! ## The detokenizer -/

/-- The sampling parameters that the detokenizer reads; the source refuses empty stop strings. -/
structure StopParams where
  stop : List (List Char)
  stop_ne : ∀ s ∈ stop, s ≠ []
  minTokens : ℕ
  includeStopStrInOutput : Bool

/-- `stop_buffer_length`: how many characters are held back. -/
def StopParams.stopBufferLength (params : StopParams) : ℕ :=
  if params.stop ≠ [] ∧ params.includeStopStrInOutput = false then
    (params.stop.map List.length).foldr max 0 - 1
  else 0

/-- `BaseIncrementalDetokenizer`, with the state of the decoder. -/
structure Detokenizer (D : Type) where
  params : StopParams
  promptLen : ℕ
  decoder : D
  tokenIds : List Token
  promptLen_le : promptLen ≤ tokenIds.length
  outputText : List Char
  lastOutputTextOffset : ℕ

/-- How a token is decoded: from the state of the decoder and all tokens, with the new one. -/
abbrev DecodeNext (D : Type) := D → List Token → Token → List Char × D

namespace Detokenizer

variable {D : Type}

/-- A new detokenizer, with the tokens of the prompt if it keeps them. -/
def init (params : StopParams) (decoder : D) (prompt : List Token) : Detokenizer D :=
  ⟨params, prompt.length, decoder, prompt, Nat.le_refl _, [], 0⟩

/-- `num_output_tokens`. -/
def numOutputTokens (d : Detokenizer D) : ℕ := d.tokenIds.length - d.promptLen

/-- Tokens are appended. -/
def appendTokens (d : Detokenizer D) (tokens : List Token) : Detokenizer D :=
  { d with
    tokenIds := d.tokenIds ++ tokens
    promptLen_le := by
      rw [List.length_append]
      exact Nat.le_add_right_of_le d.promptLen_le }

/-- A token is appended and decoded. -/
def decodeToken (decodeNext : DecodeNext D) (d : Detokenizer D) (token : Token) : Detokenizer D :=
  let d := d.appendTokens [token]
  let (text, decoder) := decodeNext d.decoder d.tokenIds token
  { d with decoder, outputText := d.outputText ++ text }

/-- The loop of `update` over the new tokens, with `stop_check_offset`. -/
def decodeTokens (decodeNext : DecodeNext D) :
    List Token → Detokenizer D → ℕ → Detokenizer D × ℕ
  | [], d, stopCheckOffset => (d, stopCheckOffset)
  | token :: tokens, d, stopCheckOffset =>
    let d := d.decodeToken decodeNext token
    decodeTokens decodeNext tokens d
      (if d.params.minTokens ≠ 0 ∧ d.numOutputTokens ≤ d.params.minTokens then d.outputText.length
      else stopCheckOffset)

/-- The second half of `update`: the new text is searched, and cut if a stop string was found. -/
def evaluateStop (d : Detokenizer D) (stopCheckOffset : ℕ) : Option (List Char) × Detokenizer D :=
  if d.params.stop ≠ [] ∧ d.params.minTokens < d.numOutputTokens then
    match checkStopStrings d.outputText (d.outputText.length - stopCheckOffset) d.params.stop
      d.params.includeStopStrInOutput with
    | none => (none, d)
    | some (stopString, none) => (some stopString, d)
    | some (stopString, some truncateTo) =>
      (some stopString, { d with outputText := d.outputText.take truncateTo })
  else (none, d)

/-- `update`. -/
def update (decodeNext : DecodeNext D) (d : Detokenizer D) (newTokenIds : List Token)
    (stopTerminated : Bool) : Option (List Char) × Detokenizer D :=
  if newTokenIds = [] then (none, d)
  else
    let skip := stopTerminated && !d.params.includeStopStrInOutput
    let decoded := if skip then newTokenIds.dropLast else newTokenIds
    let skipped := if skip then newTokenIds.getLast?.toList else []
    let (d, stopCheckOffset) := decodeTokens decodeNext decoded d d.outputText.length
    (d.appendTokens skipped).evaluateStop stopCheckOffset

/-- `get_next_output_text`. -/
def getNextOutputText (d : Detokenizer D) (finished delta : Bool) : List Char × Detokenizer D :=
  let bufferLength := if finished then 0 else d.params.stopBufferLength
  if delta = false then
    (if bufferLength = 0 then d.outputText
      else d.outputText.take (d.outputText.length - bufferLength), d)
  else
    let length := d.outputText.length - bufferLength
    if d.lastOutputTextOffset < length then
      ((d.outputText.take length).drop d.lastOutputTextOffset,
        { d with lastOutputTextOffset := length })
    else ([], d)

end Detokenizer

end Lvllm
