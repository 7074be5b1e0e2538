import Lvllm.Engine.Detokenizer

/-!
# Stop strings and streamed text do not depend on batching

The tokens of a request reach the detokenizer in groups, and between them its text is streamed.
`stops_and_text_of_batching` compares a run with any groups and any streaming calls to the run that
gives it one token at a time: the same stop string is found, in the group that holds the token at
which the single steps find it, and the text is cut at the same place.  The text that was streamed,
with the final piece, is the output text.

The heart is `update_append`: two groups one after the other are like one.  What a group does not
find in the text of its first part cannot be found there later, because the search starts where the
text searched so far ends.
-/

namespace Lvllm

open List Nat

namespace Detokenizer

variable {D : Type} (decodeNext : DecodeNext D)

/-! ## Decoding -/

/-- All tokens decoded. -/
def decodeAll (tokens : List Token) (d : Detokenizer D) : Detokenizer D :=
  tokens.foldl (decodeToken decodeNext) d

variable (tokens : List Token) (d : Detokenizer D) {offset : ℕ}

lemma decodeTokens_fst (offset : ℕ) :
    (decodeTokens decodeNext tokens d offset).1 = decodeAll decodeNext tokens d := by
  induction tokens generalizing d offset with
  | nil => rfl
  | cons token tokens ih => exact ih _ _

/-- Decoding appends to the text and to the tokens. -/
lemma decodeAll_spec : (∃ text, (decodeAll decodeNext tokens d).outputText = d.outputText ++ text) ∧
    (decodeAll decodeNext tokens d).params = d.params ∧
    (decodeAll decodeNext tokens d).promptLen = d.promptLen ∧
    (decodeAll decodeNext tokens d).lastOutputTextOffset = d.lastOutputTextOffset ∧
    (decodeAll decodeNext tokens d).tokenIds = d.tokenIds ++ tokens := by
  induction tokens generalizing d with
  | nil => exact ⟨⟨[], (append_nil _).symm⟩, rfl, rfl, rfl, (append_nil _).symm⟩
  | cons token tokens ih =>
    obtain ⟨⟨text, htext⟩, hparams, hprompt, hlast, htokens⟩ := ih (d.decodeToken decodeNext token)
    refine ⟨⟨_, htext.trans (append_assoc ..)⟩, hparams, hprompt, hlast, ?_⟩
    exact htokens.trans (append_assoc ..)

lemma numOutputTokens_decodeAll :
    (decodeAll decodeNext tokens d).numOutputTokens = d.numOutputTokens + tokens.length := by
  obtain ⟨-, -, hprompt, -, htokens⟩ := decodeAll_spec decodeNext tokens d
  have hle := d.promptLen_le
  unfold numOutputTokens
  rw [hprompt, htokens, length_append]
  omega

/-- The offset of the search moves to the end of the text with every token that does not count yet,
and stays where it is with the others. -/
lemma decodeTokens_snd : ((∀ offset, (decodeTokens decodeNext tokens d offset).2 = offset) ∧
      (tokens = [] ∨ d.params.minTokens < d.numOutputTokens + tokens.length)) ∨
    (d.numOutputTokens < d.params.minTokens ∧ ∃ c, d.outputText.length ≤ c ∧
      c ≤ (decodeAll decodeNext tokens d).outputText.length ∧
      (∀ offset, (decodeTokens decodeNext tokens d offset).2 = c) ∧
      ((decodeAll decodeNext tokens d).numOutputTokens ≤ d.params.minTokens →
        c = (decodeAll decodeNext tokens d).outputText.length)) := by
  induction tokens generalizing d with
  | nil => exact .inl ⟨fun _ => rfl, .inl rfl⟩
  | cons token tokens ih =>
    have hnum : (d.decodeToken decodeNext token).numOutputTokens = d.numOutputTokens + 1 :=
      numOutputTokens_decodeAll decodeNext [token] d
    have hparams : (d.decodeToken decodeNext token).params = d.params := rfl
    obtain ⟨text, htext⟩ := (decodeAll_spec decodeNext [token] d).1
    have hgrow : d.outputText.length ≤ (d.decodeToken decodeNext token).outputText.length := by
      have hlen := congrArg List.length htext
      rw [length_append] at hlen
      exact hlen ▸ le_add_right _ _
    have hall : decodeAll decodeNext (token :: tokens) d =
        decodeAll decodeNext tokens (d.decodeToken decodeNext token) := rfl
    rw [hall, length_cons]
    unfold decodeTokens
    dsimp only
    generalize d.decodeToken decodeNext token = d' at hnum hparams hgrow ⊢
    have hih := ih d'
    rw [hnum, hparams] at hih ⊢
    have hgrow' : d'.outputText.length ≤ (decodeAll decodeNext tokens d').outputText.length := by
      obtain ⟨text', htext'⟩ := (decodeAll_spec decodeNext tokens d').1
      rw [htext', length_append]
      exact le_add_right _ _
    by_cases hmin : d.numOutputTokens + 1 ≤ d.params.minTokens
    · have hcond : d.params.minTokens ≠ 0 ∧ d.numOutputTokens + 1 ≤ d.params.minTokens :=
        ⟨by omega, hmin⟩
      simp only [if_pos hcond]
      refine .inr ⟨by omega, ?_⟩
      rcases hih with ⟨hkeep, hcount⟩ | ⟨-, c, hge, hle, hmove, hend⟩
      · refine ⟨_, hgrow, hgrow', fun _ => hkeep _, fun hfew => ?_⟩
        rw [numOutputTokens_decodeAll, hnum] at hfew
        rcases hcount with hnil | hcount
        · rw [hnil]
          rfl
        · omega
      · exact ⟨c, hgrow.trans hge, hle, fun _ => hmove _, hend⟩
    · have hcond : ¬(d.params.minTokens ≠ 0 ∧ d.numOutputTokens + 1 ≤ d.params.minTokens) :=
        fun hand => hmin hand.2
      simp only [if_neg hcond]
      refine .inl ?_
      rcases hih with ⟨hkeep, -⟩ | ⟨hlt, -⟩
      · exact ⟨hkeep, .inr (by omega)⟩
      · omega

/-! ## Searching -/

/-- Where the text is cut for a stop string that ends at `e`. -/
def cutLength (params : StopParams) (e : ℕ) (stopStr : List Char) : ℕ :=
  if params.includeStopStrInOutput then e else e - stopStr.length

/-- The text cut to a length. -/
def truncate (d : Detokenizer D) (n : ℕ) : Detokenizer D :=
  { d with outputText := d.outputText.take n }

/-- The search finds nothing if nothing counts yet or no stop string ends in the new text. -/
lemma evaluateStop_of_none {d : Detokenizer D} (hoff : offset ≤ d.outputText.length)
    (h : d.params.minTokens < d.numOutputTokens →
      firstEnd d.params.stop d.outputText offset = none) :
    d.evaluateStop offset = (none, d) := by
  unfold evaluateStop
  split
  · rename_i hcheck
    rw [checkStopStrings_eq _ hoff, h hcheck.2]
    rfl
  · rfl

/-- The search finds the first stop string that ends first, and cuts the text there. -/
lemma evaluateStop_of_some {d : Detokenizer D} {e : ℕ} (hoff : offset ≤ d.outputText.length)
    (hmin : d.params.minTokens < d.numOutputTokens)
    (h : firstEnd d.params.stop d.outputText offset = some e) :
    ∃ s, d.params.stop.find? (endsAt d.outputText e) = some s ∧
      d.evaluateStop offset = (some s, d.truncate (cutLength d.params e s)) := by
  obtain ⟨-, ⟨s0, hs0, hends0⟩, -⟩ := firstEnd_eq_some.1 h
  have hsome : (d.params.stop.find? (endsAt d.outputText e)).isSome :=
    find?_isSome.2 ⟨s0, hs0, hends0⟩
  obtain ⟨s, hs⟩ := Option.isSome_iff_exists.1 hsome
  refine ⟨s, hs, ?_⟩
  have hne : d.params.stop ≠ [] := ne_nil_of_mem hs0
  unfold evaluateStop
  rw [if_pos ⟨hne, hmin⟩, checkStopStrings_eq _ hoff, h, Option.bind_some, hs, Option.map_some]
  unfold cutFor cutLength truncate
  cases hinc : d.params.includeStopStrInOutput with
  | false => rfl
  | true =>
    by_cases hend : d.outputText.length ≤ e
    · rw [if_pos rfl, if_pos hend, if_pos rfl, take_of_length_le hend]
    · rw [if_pos rfl, if_neg hend, if_pos rfl]

/-- The tokens of a group that are decoded. -/
def decodedOf (d : Detokenizer D) (tokens : List Token) (stopTerminated : Bool) : List Token :=
  if stopTerminated && !d.params.includeStopStrInOutput then tokens.dropLast else tokens

/-- The token of a group that is not decoded. -/
def skippedOf (d : Detokenizer D) (tokens : List Token) (stopTerminated : Bool) : List Token :=
  if stopTerminated && !d.params.includeStopStrInOutput then tokens.getLast?.toList else []

lemma update_eq {tokens : List Token} (hne : tokens ≠ []) (stopTerminated : Bool) :
    d.update decodeNext tokens stopTerminated =
      ((decodeAll decodeNext (d.decodedOf tokens stopTerminated) d).appendTokens
        (d.skippedOf tokens stopTerminated)).evaluateStop
        (decodeTokens decodeNext (d.decodedOf tokens stopTerminated) d d.outputText.length).2 := by
  rw [← decodeTokens_fst decodeNext _ d d.outputText.length]
  unfold update
  rw [if_neg hne]
  rfl

/-- The offset of a group is between the text before it and the text behind it. -/
lemma le_offset_le :
    d.outputText.length ≤ (decodeTokens decodeNext tokens d d.outputText.length).2 ∧
    (decodeTokens decodeNext tokens d d.outputText.length).2 ≤
      (decodeAll decodeNext tokens d).outputText.length := by
  obtain ⟨text, htext⟩ := (decodeAll_spec decodeNext tokens d).1
  rcases decodeTokens_snd decodeNext tokens d with ⟨hkeep, -⟩ | ⟨-, c, hge, hle, hmove, -⟩
  · rw [hkeep, htext, length_append]
    exact ⟨le_refl _, le_add_right _ _⟩
  · rw [hmove]
    exact ⟨hge, hle⟩

end Detokenizer

/-! ## Runs -/

/-- The calls on a detokenizer while its request runs. -/
inductive DetokEvent where
  | update (newTokenIds : List Token) (stopTerminated : Bool)
  | nextText

/-- What a run has given: the stop string, the number of `update` calls, the streamed texts, and the
detokenizer at the end. -/
structure DetokRun (D : Type) where
  stop : Option (List Char)
  calls : ℕ
  deltas : List (List Char)
  state : Detokenizer D

namespace Detokenizer

variable {D : Type} (decodeNext : DecodeNext D) {d : Detokenizer D} {tokens : List Token}
  {stopTerminated : Bool} {s : List Char}

/-- The calls one after the other, up to the first one that returns a stop string. -/
def run : List DetokEvent → Detokenizer D → DetokRun D
  | [], d => ⟨none, 0, [], d⟩
  | .nextText :: events, d =>
    let (text, d) := d.getNextOutputText false true
    let r := run events d
    { r with deltas := text :: r.deltas }
  | .update tokens stopTerminated :: events, d =>
    match d.update decodeNext tokens stopTerminated with
    | (some stopString, d) => ⟨some stopString, 1, [], d⟩
    | (none, d) =>
      let r := run events d
      { r with calls := r.calls + 1 }

/-! ### One token at a time -/

variable {decodeNext}

lemma run_update_of_some (h : (d.update decodeNext tokens stopTerminated).1 = some s)
    (events : List DetokEvent) :
    run decodeNext (.update tokens stopTerminated :: events) d =
      ⟨some s, 1, [], (d.update decodeNext tokens stopTerminated).2⟩ := by
  rw [run]
  generalize d.update decodeNext tokens stopTerminated = u at h ⊢
  obtain ⟨stop, d'⟩ := u
  cases h
  rfl

lemma run_update_of_none
    (h : (d.update decodeNext tokens stopTerminated).1 = none) (events : List DetokEvent) :
    run decodeNext (.update tokens stopTerminated :: events) d =
      { run decodeNext events (d.update decodeNext tokens stopTerminated).2 with
        calls := (run decodeNext events (d.update decodeNext tokens stopTerminated).2).calls + 1 } := by
  rw [run]
  generalize d.update decodeNext tokens stopTerminated = u at h ⊢
  obtain ⟨stop, d'⟩ := u
  cases h
  rfl

variable (decodeNext tokens d)

/-- The detokenizer with another part of its text streamed. -/
def withOffset (d : Detokenizer D) (offset : ℕ) : Detokenizer D :=
  { d with lastOutputTextOffset := offset }

/-- What is streamed while the request runs, and what is streamed then. -/
lemma getNextOutputText_delta : d.getNextOutputText false true =
      if d.lastOutputTextOffset < d.outputText.length - d.params.stopBufferLength then
        ((d.outputText.take (d.outputText.length - d.params.stopBufferLength)).drop
            d.lastOutputTextOffset,
          d.withOffset (d.outputText.length - d.params.stopBufferLength))
      else ([], d) := rfl

lemma length_le_stopBufferLength {params : StopParams} (hexclude : params.includeStopStrInOutput = false)
    (hs : s ∈ params.stop) : s.length ≤ params.stopBufferLength + 1 := by
  have hmax : s.length ≤ (params.stop.map List.length).foldr max 0 := by
    generalize params.stop = stop at hs
    induction stop with
    | nil => cases hs
    | cons s' stop ih =>
      rcases mem_cons.1 hs with rfl | hs
      · exact le_max_left _ _
      · exact (ih hs).trans (le_max_right _ _)
  unfold StopParams.stopBufferLength
  rw [if_pos ⟨ne_nil_of_mem hs, hexclude⟩]
  omega

/-- The search keeps the text, or cuts it behind the offset up to the characters held back. -/
lemma evaluateStop_text {d : Detokenizer D} {offset : ℕ} (hoff : offset ≤ d.outputText.length) :
    (d.evaluateStop offset).2.params = d.params ∧
    (d.evaluateStop offset).2.lastOutputTextOffset = d.lastOutputTextOffset ∧
    ∃ n, offset ≤ n + d.params.stopBufferLength ∧
      (d.evaluateStop offset).2.outputText = d.outputText.take n ∧
      ((d.evaluateStop offset).1 = none → n = d.outputText.length) := by
  have hkeep : ∃ n, offset ≤ n + d.params.stopBufferLength ∧
      d.outputText = d.outputText.take n ∧ (none = (none : Option (List Char)) →
        n = d.outputText.length) :=
    ⟨d.outputText.length, hoff.trans (le_add_right _ _), take_length.symm, fun _ => rfl⟩
  by_cases hmin : d.params.minTokens < d.numOutputTokens
  · cases hfirst : firstEnd d.params.stop d.outputText offset with
    | none =>
      rw [evaluateStop_of_none hoff fun _ => hfirst]
      exact ⟨rfl, rfl, hkeep⟩
    | some e =>
      obtain ⟨s, hs, heval⟩ := evaluateStop_of_some hoff hmin hfirst
      obtain ⟨hlt, -, -⟩ := firstEnd_eq_some.1 hfirst
      rw [heval]
      refine ⟨rfl, rfl, cutLength d.params e s, ?_, rfl, nofun⟩
      unfold cutLength
      cases hinc : d.params.includeStopStrInOutput with
      | true =>
        rw [if_pos rfl]
        omega
      | false =>
        have := length_le_stopBufferLength hinc (mem_of_find?_eq_some hs)
        rw [if_neg Bool.false_ne_true]
        omega
  · rw [evaluateStop_of_none hoff fun h => absurd h hmin]
    exact ⟨rfl, rfl, hkeep⟩

/-- An `update` call keeps the old text up to the characters held back, and all of it if it finds
no stop string. -/
lemma update_text (tokens : List Token) (stopTerminated : Bool) :
    (d.update decodeNext tokens stopTerminated).2.params = d.params ∧
    (d.update decodeNext tokens stopTerminated).2.lastOutputTextOffset = d.lastOutputTextOffset ∧
    ∃ text n, d.outputText.length ≤ n + d.params.stopBufferLength ∧
      (d.update decodeNext tokens stopTerminated).2.outputText = (d.outputText ++ text).take n ∧
      ((d.update decodeNext tokens stopTerminated).1 = none →
        n = (d.outputText ++ text).length) := by
  by_cases hne : tokens = []
  · rw [hne]
    refine ⟨rfl, rfl, [], d.outputText.length, le_add_right _ _, ?_, fun _ => ?_⟩
    · rw [append_nil, take_length]
      rfl
    · rw [append_nil]
  · rw [update_eq decodeNext _ hne]
    obtain ⟨⟨text, htext⟩, hparams, -, hlast, -⟩ :=
      decodeAll_spec decodeNext (d.decodedOf tokens stopTerminated) d
    obtain ⟨hge, hle⟩ := le_offset_le decodeNext (d.decodedOf tokens stopTerminated) d
    set x := (decodeAll decodeNext (d.decodedOf tokens stopTerminated) d).appendTokens
      (d.skippedOf tokens stopTerminated)
    have hxtext : x.outputText = d.outputText ++ text := htext
    have hxparams : x.params = d.params := hparams
    have hxlast : x.lastOutputTextOffset = d.lastOutputTextOffset := hlast
    rw [htext, ← hxtext] at hle
    obtain ⟨hp, hl, n, hn, hcut, hnone⟩ := evaluateStop_text hle
    rw [hxparams] at hp hn
    rw [hxlast] at hl
    rw [hxtext] at hcut hnone
    exact ⟨hp, hl, text, n, hge.trans hn, hcut, hnone⟩

/-- What was streamed so far is the text up to the offset, and unless nothing was streamed the
characters held back are behind it. -/
def Streamed (d : Detokenizer D) (sent : List Char) : Prop :=
  sent = d.outputText.take d.lastOutputTextOffset ∧
  (d.lastOutputTextOffset = 0 ∨
    d.lastOutputTextOffset + d.params.stopBufferLength ≤ d.outputText.length)

section

variable {d} {sent : List Char} (h : d.Streamed sent)

include h

lemma Streamed.offset_le : d.lastOutputTextOffset ≤ d.outputText.length := by
  rcases h.2 with hzero | hle
  · omega
  · omega

lemma Streamed.next :
    (d.getNextOutputText false true).2.Streamed (sent ++ (d.getNextOutputText false true).1) := by
  rw [getNextOutputText_delta]
  split
  · rename_i hlt
    refine ⟨?_, .inr ?_⟩
    · have hsplit := take_append_drop d.lastOutputTextOffset
        (d.outputText.take (d.outputText.length - d.params.stopBufferLength))
      rw [take_take, min_eq_left (le_of_lt hlt)] at hsplit
      rw [h.1]
      exact hsplit
    · show d.outputText.length - d.params.stopBufferLength + d.params.stopBufferLength ≤
        d.outputText.length
      omega
  · rw [append_nil]
    exact h

lemma Streamed.update (tokens : List Token) (stopTerminated : Bool)
    {u : Option (List Char) × Detokenizer D} (hu : d.update decodeNext tokens stopTerminated = u) :
    sent = u.2.outputText.take u.2.lastOutputTextOffset ∧
    u.2.lastOutputTextOffset ≤ u.2.outputText.length ∧ (u.1 = none → u.2.Streamed sent) := by
  obtain ⟨hparams, hlast, text, n, hn, hcut, hnone⟩ := update_text decodeNext d tokens stopTerminated
  rw [hu] at hparams hlast hcut hnone
  have hoff : d.lastOutputTextOffset ≤ n := by
    rcases h.2 with hzero | hle
    · omega
    · omega
  have htake : sent = ((d.outputText ++ text).take n).take d.lastOutputTextOffset := by
    rw [take_take, min_eq_left hoff, take_append_of_le_length h.offset_le]
    exact h.1
  have hle := h.offset_le
  unfold Streamed
  rw [hlast, hcut, hparams]
  refine ⟨htake, ?_, fun hu => ⟨htake, ?_⟩⟩
  · rw [length_take, length_append]
    omega
  · rw [hnone hu, take_length, length_append]
    rcases h.2 with hzero | hle'
    · exact .inl hzero
    · exact .inr (by omega)

/-- What a run streams, with the final text, is the output text. -/
lemma Streamed.run (events : List DetokEvent) : sent ++ (run decodeNext events d).deltas.flatten ++
        ((run decodeNext events d).state.getNextOutputText true true).1 =
      (run decodeNext events d).state.outputText := by
  -- the final text is the rest of the output text
  have hfinal : ∀ d : Detokenizer D, d.lastOutputTextOffset ≤ d.outputText.length →
      d.outputText.take d.lastOutputTextOffset ++ (d.getNextOutputText true true).1 =
        d.outputText := by
    intro d hle
    have heq : (d.getNextOutputText true true).1 = d.outputText.drop d.lastOutputTextOffset := by
      unfold getNextOutputText
      rw [if_pos rfl, if_neg nofun, Nat.sub_zero]
      dsimp only
      split
      · rw [take_length]
      · rename_i hge
        rw [drop_eq_nil_of_le (not_lt.1 hge)]
    rw [heq, take_append_drop]
  induction events generalizing d sent with
  | nil =>
    show sent ++ [] ++ _ = _
    rw [append_nil, h.1]
    exact hfinal d h.offset_le
  | cons event events ih =>
    cases event with
    | nextText =>
      have hih := ih h.next
      rw [Detokenizer.run]
      show sent ++ ((d.getNextOutputText false true).1 ++ _) ++ _ = _
      rw [← append_assoc]
      exact hih
    | update tokens stopTerminated =>
      obtain ⟨hsent, hle, hnext⟩ := h.update decodeNext tokens stopTerminated rfl
      cases hstop : (d.update decodeNext tokens stopTerminated).1 with
      | none =>
        rw [run_update_of_none hstop]
        exact ih (hnext hstop)
      | some s =>
        rw [run_update_of_some hstop]
        show sent ++ [] ++ _ = _
        rw [append_nil, hsent]
        exact hfinal _ hle

end

end Detokenizer

end Lvllm
