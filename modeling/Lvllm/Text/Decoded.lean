import Mathlib.Data.List.MinMax
import Mathlib.Tactic.Linarith
import Lvllm.Foundation.Utf8

/-!
# Streaming decoded text

`decodedTextEventStream` turns the outputs of the engine into text deltas.  The decoder appends a piece of
text per token; the stream searches every piece for the end of a stop string, hands out text with enough held
back that a stop string can be cut off, and cuts tokens and log probabilities behind the token that completed
one.  `stopScan` is the search over the tokens alone, without outputs and deltas; `decodedTextEventStream_spec`
says that deltas, token ids and log probabilities are what it prescribes, however the tokens are split.
-/

namespace Lvllm

open List Option Nat

/-! ## The buffer of a decoder -/

/-- The text of a decoder and how much of it was handed out. -/
structure TextBuffer where
  cumulativeOutput : Bytes
  outputIndex : ℕ
  minBytesToBuffer : ℕ

/-- `next_chunk`. -/
def TextBuffer.nextChunk (b : TextBuffer) : Option Bytes × TextBuffer :=
  let cutoff := floorCharBoundary b.cumulativeOutput
    (b.cumulativeOutput.length - b.minBytesToBuffer)
  if b.outputIndex < cutoff then
    (some ((b.cumulativeOutput.take cutoff).drop b.outputIndex), { b with outputIndex := cutoff })
  else (none, b)

/-- The end of `flush`: cut the text, and return what was not handed out and all of it. -/
def TextBuffer.finish (b : TextBuffer) (truncateOutputTo : Option ℕ) : Option Bytes × Bytes :=
  let text := truncateOutputTo.elim b.cumulativeOutput b.cumulativeOutput.take
  (if b.outputIndex < text.length then some (text.drop b.outputIndex) else none, text)

/-! ## The stream -/

/-- `TextDecodeOptions`, for what concerns stop strings. -/
structure TextDecodeOptions where
  includeStopStrInOutput : Bool
  stopStrings : Option (List Bytes)
  minTokens : ℕ

/-- How many bytes are held back. -/
def TextDecodeOptions.minBytesToBuffer (opts : TextDecodeOptions) : ℕ :=
  if opts.includeStopStrInOutput then 0
  else (opts.stopStrings.bind fun stops => (stops.map List.length).max?).getD 1 - 1

/-- `matches_stop_string`: the index of a stop string and where it starts. -/
def matchesStopString (stops : List Bytes) (output : Bytes) (newBytes : ℕ) : Option (ℕ × ℕ) :=
  let nextOff := output.length + 1 - newBytes
  let found := stops.zipIdx.filterMap fun (ss, i) =>
    if ss.isEmpty then none
    else (findFrom ss output (nextOff - ss.length)).map fun start => (i, start, start + ss.length)
  (found.argmin fun x => x.2.2).map fun x => (x.1, x.2.1)

/-- A token with the piece of text the decoder appends for it, and its log probabilities. -/
structure TextToken (L : Type) where
  id : ℕ
  piece : Bytes
  logprob : L

/-- `FinishReason`: a stop token or a stop string, or something else. -/
inductive StreamFinish where
  | stop (text : Option Bytes)
  | other
  deriving DecidableEq

/-- `FinishReason::is_stop`. -/
def StreamFinish.isStop : StreamFinish → Bool
  | .stop _ => true
  | .other => false

/-- `GenerateOutput`. -/
structure GenerateOutput (L : Type) where
  tokens : List (TextToken L)
  logprobs : Option (List L)
  finishReason : Option StreamFinish

/-- `DecodedTextEvent::TextDelta`. -/
structure TextDelta (L : Type) where
  delta : Bytes
  tokenIds : List ℕ
  logprobs : Option (List L)
  finished : Option StreamFinish

/-- A stop string that was matched: the tokens up to it, where the text is cut, the string. -/
structure StopHit where
  numTokens : ℕ
  truncateOutputTo : ℕ
  stopStr : Bytes

variable {L : Type}

/-- The check for a stop string after the token with this index was decoded. -/
def stopCheck (opts : TextDecodeOptions) (index : ℕ) (output : Bytes) (newBytes : ℕ) :
    Option (ℕ × Bytes) :=
  if opts.minTokens < index + 1 then
    opts.stopStrings.bind fun stops => (matchesStopString stops output newBytes).map fun (i, off) =>
      let stopStr := stops.getD i []
      (if opts.includeStopStrInOutput then off + stopStr.length else off, stopStr)
  else none

/-- The loop over the decodable tokens of an output. -/
def pushTokens (opts : TextDecodeOptions) (intermediate : Bool) (outputTokenCount : ℕ) :
    List (TextToken L) → ℕ → TextBuffer → Bytes → TextBuffer × Bytes × Option StopHit
  | [], _, b, delta => (b, delta, none)
  | t :: ts, tokIdx, b, delta =>
    let b := { b with cumulativeOutput := b.cumulativeOutput ++ t.piece }
    match stopCheck opts (outputTokenCount + tokIdx) b.cumulativeOutput t.piece.length with
    | some (cut, stopStr) => (b, delta, some ⟨tokIdx + 1, cut, stopStr⟩)
    | none =>
      let (chunk, b) := if intermediate then b.nextChunk else (none, b)
      pushTokens opts intermediate outputTokenCount ts (tokIdx + 1) b (delta ++ chunk.getD [])

/-- What the stream keeps between outputs. -/
structure StreamState (L : Type) where
  buffer : TextBuffer
  outputTokenCount : ℕ
  tokenIds : List ℕ
  logprobs : Option (List L)

/-- `decoded_text_event_stream`; `none` if the outputs end before a terminal one. -/
def decodedTextEventStream (opts : TextDecodeOptions) (intermediate : Bool) :
    List (GenerateOutput L) → StreamState L → Option (List (TextDelta L))
  | [], _ => none
  | out :: outs, st =>
    -- a stop token stays in the metadata, but is not decoded
    let suppress := out.finishReason.any StreamFinish.isStop && !opts.includeStopStrInOutput
    let decodable := if suppress then out.tokens.dropLast else out.tokens
    let (buffer, delta, hit) :=
      pushTokens opts intermediate st.outputTokenCount decodable 0 st.buffer []
    let newTokens := hit.elim out.tokens fun h => out.tokens.take h.numTokens
    let newIds := newTokens.map TextToken.id
    let newLogprobs := out.logprobs.map fun l => hit.elim l fun h => l.take h.numTokens
    let tokenIds := if intermediate then st.tokenIds else st.tokenIds ++ newIds
    let logprobs := if intermediate then st.logprobs
      else newLogprobs.elim st.logprobs fun l => some (st.logprobs.getD [] ++ l)
    match hit.elim out.finishReason fun h => some (.stop (some h.stopStr)) with
    | some reason =>
      let (lastChunk, text) := buffer.finish (hit.map StopHit.truncateOutputTo)
      some [if intermediate then ⟨delta ++ lastChunk.getD [], newIds, newLogprobs, some reason⟩
        else ⟨text, tokenIds, logprobs, some reason⟩]
    | none =>
      (decodedTextEventStream opts intermediate outs
        ⟨buffer, st.outputTokenCount + newTokens.length, tokenIds, logprobs⟩).map fun events =>
          if intermediate then ⟨delta, newIds, newLogprobs, none⟩ :: events else events

/-- The state before the first output. -/
def StreamState.init (opts : TextDecodeOptions) : StreamState L :=
  ⟨⟨[], 0, opts.minBytesToBuffer⟩, 0, [], none⟩

/-! ## The search for stop strings -/

/-- A stop string is completed by a piece of text: it occurs and ends in the piece. -/
def Completed (stops : List Bytes) (old piece ss : Bytes) (off : ℕ) : Prop :=
  ss ∈ stops ∧ ss ≠ [] ∧ old.length < off + ss.length ∧ occursAt ss (old ++ piece) off = true

/-- Such that no stop string that is completed by the piece ends earlier. -/
def CompletedFirst (stops : List Bytes) (old piece ss : Bytes) (off : ℕ) : Prop :=
  Completed stops old piece ss off ∧
    ∀ ss' off', Completed stops old piece ss' off' → off + ss.length ≤ off' + ss'.length

/-- What `matches_stop_string` looks through: matches of stop strings, one of which ends first. -/
lemma mem_found (stops : List Bytes) (old piece : Bytes) {found : List (ℕ × ℕ × ℕ)}
    (hfound : found = stops.zipIdx.filterMap fun (ss, i) =>
      if ss.isEmpty then none
      else (findFrom ss (old ++ piece) ((old ++ piece).length + 1 - piece.length - ss.length)).map
        fun start => (i, start, start + ss.length)) :
    (∀ x ∈ found, ∃ ss, stops[x.1]? = some ss ∧ x.2.2 = x.2.1 + ss.length ∧
      Completed stops old piece ss x.2.1) ∧
    ∀ ss off, Completed stops old piece ss off → ∃ x ∈ found, x.2.2 ≤ off + ss.length := by
  have hlen : (old ++ piece).length + 1 - piece.length = old.length + 1 := by simp; omega
  rw [hlen] at hfound
  constructor
  · intro x hx
    rw [hfound, mem_filterMap] at hx
    obtain ⟨⟨ss, i⟩, hi, hx⟩ := hx
    have hi := mem_zipIdx_iff_getElem?.1 hi
    cases hss : ss.isEmpty <;> simp only [hss, Bool.false_eq_true, if_false, if_true] at hx
    · obtain ⟨start, hstart, rfl⟩ := map_eq_some_iff.1 hx
      obtain ⟨h1, h2, -⟩ := findFrom_eq_some hstart
      exact ⟨ss, hi, rfl, mem_of_getElem? hi, by simpa using hss, by simp only; omega, h2⟩
    · cases hx
  · rintro ss off ⟨hss, hne, hoff, hocc⟩
    obtain ⟨i, hi⟩ := mem_iff_getElem?.1 hss
    rcases hfind : findFrom ss (old ++ piece) (old.length + 1 - ss.length) with _ | start
    · rw [findFrom_eq_none hfind off (by omega)] at hocc
      cases hocc
    · refine ⟨(i, start, start + ss.length), ?_, ?_⟩
      · rw [hfound, mem_filterMap]
        exact ⟨(ss, i), mem_zipIdx_iff_getElem?.2 hi, by simp [hfind, hne]⟩
      · obtain ⟨-, -, hfirst⟩ := findFrom_eq_some hfind
        by_contra hlt
        rw [hfirst off (by omega) (by simp only at hlt; omega)] at hocc
        cases hocc

lemma stopCheck_spec (opts : TextDecodeOptions) (index : ℕ) (old piece : Bytes) :
    (stopCheck opts index (old ++ piece) piece.length = none ∧ (opts.minTokens ≤ index →
      ∀ ss off, ¬ Completed (opts.stopStrings.getD []) old piece ss off)) ∨
    ∃ ss off, stopCheck opts index (old ++ piece) piece.length =
        some (if opts.includeStopStrInOutput then off + ss.length else off, ss) ∧
      opts.minTokens ≤ index ∧ CompletedFirst (opts.stopStrings.getD []) old piece ss off := by
  unfold stopCheck
  by_cases hmin : opts.minTokens < index + 1
  · rw [if_pos hmin]
    rcases hstops : opts.stopStrings with _ | stops
    · exact .inl ⟨rfl, fun _ ss off h => by simp [Completed] at h⟩
    · obtain ⟨h1, h2⟩ := mem_found stops old piece rfl
      simp only [bind_some, getD_some, matchesStopString]
      rcases hargmin : List.argmin (fun x : ℕ × ℕ × ℕ => x.2.2) _ with _ | x
      · rw [argmin_eq_none] at hargmin
        refine .inl ⟨rfl, fun _ ss off h => ?_⟩
        obtain ⟨x, hx, -⟩ := h2 ss off h
        rw [hargmin] at hx
        cases hx
      · obtain ⟨ss, hss, hend, hcomp⟩ := h1 x (argmin_mem hargmin)
        refine .inr ⟨ss, x.2.1, ?_, by omega, hcomp, fun ss' off' h => ?_⟩
        · simp [hss]
        · obtain ⟨y, hy, hle⟩ := h2 ss' off' h
          have := le_of_mem_argmin hy hargmin
          omega
  · rw [if_neg hmin]
    exact .inl ⟨rfl, fun h => absurd h (by omega)⟩

/-- The text of tokens. -/
def textOf (ts : List (TextToken L)) : Bytes := ts.flatMap TextToken.piece

/-- The search for stop strings over tokens alone, from an index and a text on. -/
def stopScan (opts : TextDecodeOptions) : ℕ → Bytes → List (TextToken L) → Option StopHit
  | _, _, [] => none
  | index, old, t :: ts =>
    match stopCheck opts index (old ++ t.piece) t.piece.length with
    | some (cut, stopStr) => some ⟨1, cut, stopStr⟩
    | none => (stopScan opts (index + 1) (old ++ t.piece) ts).map fun h =>
        { h with numTokens := h.numTokens + 1 }

lemma stopScan_append (opts : TextDecodeOptions) (as bs : List (TextToken L)) (index : ℕ)
    (old : Bytes) : stopScan opts index old (as ++ bs) = match stopScan opts index old as with
      | some h => some h
      | none => (stopScan opts (index + as.length) (old ++ textOf as) bs).map fun h =>
          { h with numTokens := h.numTokens + as.length } := by
  induction as generalizing index old with
  | nil => simp [stopScan, textOf]
  | cons t ts ih =>
    simp only [cons_append, stopScan]
    rcases stopCheck opts index (old ++ t.piece) t.piece.length with _ | ⟨cut, ss⟩
    · simp only [ih]
      rcases stopScan opts (index + 1) (old ++ t.piece) ts with _ | h
      · simp only [Option.map_none, Option.map_map, length_cons, textOf, flatMap_cons,
          append_assoc, add_assoc, add_comm 1 ts.length]
        rfl
      · rfl
    · rfl

variable {opts : TextDecodeOptions} {b : TextBuffer} {last : List (TextToken L)}

/-- The tokens before a stop are not more than there are. -/
lemma stopScan_le {ts : List (TextToken L)} {index : ℕ} {old : Bytes} {h : StopHit}
    (hs : stopScan opts index old ts = some h) : h.numTokens ≤ ts.length := by
  induction ts generalizing index old h with
  | nil => cases hs
  | cons t ts ih =>
    unfold stopScan at hs
    split at hs
    · cases hs
      simp
    · obtain ⟨h', hs', rfl⟩ := map_eq_some_iff.1 hs
      simpa using ih hs'

/-! ## What is handed out -/

/-- Nothing is handed out that a stop string could still reach. -/
def TextBuffer.Held (opts : TextDecodeOptions) (b : TextBuffer) : Prop :=
  b.minBytesToBuffer = opts.minBytesToBuffer ∧
    b.outputIndex ≤ b.cumulativeOutput.length - opts.minBytesToBuffer

/-- A text is cut behind what was handed out. -/
lemma TextBuffer.Held.le_cut (h : b.Held opts) {index cut : ℕ} {piece ss : Bytes}
    (hs : stopCheck opts index (b.cumulativeOutput ++ piece) piece.length = some (cut, ss)) :
    b.outputIndex ≤ cut := by
  have hle := h.2
  obtain ⟨hnone, -⟩ | ⟨ss', off, heq, -, ⟨hmem, hne, hoff, -⟩, -⟩ :=
    stopCheck_spec opts index b.cumulativeOutput piece
  · rw [hnone] at hs
    cases hs
  · obtain ⟨rfl, rfl⟩ : _ = cut ∧ ss' = ss := by simpa using heq.symm.trans hs
    cases hinc : opts.includeStopStrInOutput
    · rcases hstops : opts.stopStrings with _ | stops
      · simp [hstops] at hmem
      · rw [hstops] at hmem
        have hmax : ss'.length ≤ ((stops.map List.length).max?).getD 1 :=
          le_max?_getD_of_mem (mem_map_of_mem hmem)
        simp only [TextDecodeOptions.minBytesToBuffer, hinc, hstops, bind_some] at hle
        simp only [Bool.false_eq_true, if_false] at hle ⊢
        omega
    · simp only [if_true]
      omega

/-- `next_chunk` continues what was handed out. -/
lemma TextBuffer.Held.nextChunk (h : b.Held opts) :
    b.nextChunk.2.Held opts ∧ b.nextChunk.2.cumulativeOutput = b.cumulativeOutput ∧
      b.cumulativeOutput.take b.nextChunk.2.outputIndex =
        b.cumulativeOutput.take b.outputIndex ++ b.nextChunk.1.getD [] := by
  simp only [TextBuffer.nextChunk]
  have hfloor := floorCharBoundary_le b.cumulativeOutput
    (b.cumulativeOutput.length - b.minBytesToBuffer)
  split
  · rename_i hlt
    refine ⟨⟨h.1, h.1 ▸ hfloor⟩, rfl, ?_⟩
    have hsplit := take_append_drop b.outputIndex (b.cumulativeOutput.take
      (floorCharBoundary b.cumulativeOutput (b.cumulativeOutput.length - b.minBytesToBuffer)))
    rw [take_take, min_eq_left hlt.le] at hsplit
    exact hsplit.symm
  · exact ⟨h, rfl, by simp⟩

/-- The loop over the tokens of an output. -/
lemma pushTokens_spec (im : Bool) (count : ℕ) (ts : List (TextToken L)) (tokIdx : ℕ) (delta : Bytes)
    (h : b.Held opts) :
    ∃ b' c hit, pushTokens opts im count ts tokIdx b delta = (b', delta ++ c, hit) ∧
      b'.cumulativeOutput.take b'.outputIndex = b.cumulativeOutput.take b.outputIndex ++ c ∧
      (im = false → b'.outputIndex = b.outputIndex) ∧
      hit = (stopScan opts (count + tokIdx) b.cumulativeOutput ts).map (fun h =>
        { h with numTokens := h.numTokens + tokIdx }) ∧
      (hit = none → b'.cumulativeOutput = b.cumulativeOutput ++ textOf ts ∧ b'.Held opts) ∧
      ∀ x, hit = some x → b'.outputIndex ≤ x.truncateOutputTo ∧
        b'.cumulativeOutput = b.cumulativeOutput ++ textOf (ts.take (x.numTokens - tokIdx)) := by
  induction ts generalizing tokIdx b delta with
  | nil => exact ⟨b, [], none, by simp [pushTokens], by simp, fun _ => rfl, rfl,
      fun _ => ⟨by simp [textOf], h⟩, by simp⟩
  | cons t ts ih =>
    have hin : b.outputIndex ≤ b.cumulativeOutput.length := h.2.trans (sub_le _ _)
    obtain ⟨b1, hb1⟩ : ∃ b1 : TextBuffer,
      b1 = { b with cumulativeOutput := b.cumulativeOutput ++ t.piece } := ⟨_, rfl⟩
    have htake : b1.cumulativeOutput.take b.outputIndex = b.cumulativeOutput.take b.outputIndex := by
      rw [hb1]
      exact take_append_of_le_length hin
    simp only [pushTokens, stopScan]
    rcases hc : stopCheck opts (count + tokIdx) (b.cumulativeOutput ++ t.piece) t.piece.length with
      _ | ⟨cut, ss⟩
    · have hheld : b1.Held opts := by
        refine ⟨by rw [hb1]; exact h.1, ?_⟩
        have := h.2
        simp only [hb1, length_append]
        omega
      obtain ⟨b2, chunk, hb2, hheld2, hcum, hsent, him⟩ : ∃ b2 chunk,
          (if im then b1.nextChunk else (none, b1)) = (chunk, b2) ∧ b2.Held opts ∧
          b2.cumulativeOutput = b1.cumulativeOutput ∧ b2.cumulativeOutput.take b2.outputIndex =
            b1.cumulativeOutput.take b1.outputIndex ++ chunk.getD [] ∧
          (im = false → b2.outputIndex = b1.outputIndex) := by
        cases im
        · exact ⟨b1, none, rfl, hheld, rfl, by simp, fun _ => rfl⟩
        · obtain ⟨h1, h2, h3⟩ := hheld.nextChunk
          exact ⟨b1.nextChunk.2, b1.nextChunk.1, rfl, h1, h2, by rw [h2]; exact h3, by simp⟩
      obtain ⟨b', c, hit, hpush, htext, him', hhit, hnone, hsome⟩ :=
        ih (tokIdx + 1) (delta ++ chunk.getD []) hheld2
      rw [hcum] at hhit hnone hsome
      refine ⟨b', chunk.getD [] ++ c, hit, ?_, ?_, ?_, ?_, ?_, ?_⟩
      · simp only [← hb1, hb2]
        rw [hpush, append_assoc]
      · rw [htext, hsent, show b1.outputIndex = b.outputIndex by rw [hb1], htake, append_assoc]
      · intro hf
        rw [him' hf, him hf, hb1]
      · rw [hhit, hb1]
        simp [add_assoc, add_comm 1 tokIdx, Function.comp_def]
      · intro hf
        rw [(hnone hf).1, hb1]
        exact ⟨by simp [textOf], (hnone hf).2⟩
      · intro x hx
        obtain ⟨h1, h2⟩ := hsome x hx
        refine ⟨h1, ?_⟩
        have hpos : tokIdx + 1 < x.numTokens + 1 := by
          rw [hx] at hhit
          obtain ⟨y, -, rfl⟩ := map_eq_some_iff.1 hhit.symm
          simp only
          omega
        rw [h2, hb1, (by omega : x.numTokens - tokIdx = x.numTokens - (tokIdx + 1) + 1)]
        simp [textOf]
    · refine ⟨b1, [], some ⟨tokIdx + 1, cut, ss⟩, by simp [hb1], ?_, ?_, ?_, by simp, ?_⟩
      · rw [show b1.outputIndex = b.outputIndex by rw [hb1], htake, append_nil]
      · intro _
        rw [hb1]
      · simp [add_comm]
      · rintro x hx
        cases hx
        rw [hb1]
        exact ⟨h.le_cut hc, by simp [textOf]⟩

/-! ## Splits into outputs -/

/-- An output with these tokens. -/
def outputOf (withLogprobs : Bool) (ts : List (TextToken L)) (finish : Option StreamFinish) :
    GenerateOutput L :=
  ⟨ts, if withLogprobs then some (ts.map TextToken.logprob) else none, finish⟩

/-- A split of tokens into outputs, the last of which is terminal. -/
def outputsOf (withLogprobs : Bool) (reason : StreamFinish) (groups : List (List (TextToken L)))
    (last : List (TextToken L)) : List (GenerateOutput L) :=
  groups.map (outputOf withLogprobs · none) ++ [outputOf withLogprobs last (some reason)]

/-- The tokens that are decoded: a terminal stop token is not, unless stop strings are included. -/
def decodedTokens (opts : TextDecodeOptions) (reason : StreamFinish) (ts : List (TextToken L)) :
    List (TextToken L) :=
  if reason.isStop && !opts.includeStopStrInOutput then ts.dropLast else ts

lemma decodedTokens_append (opts : TextDecodeOptions) (reason : StreamFinish)
    (ts : List (TextToken L)) (hlast : last ≠ []) :
    decodedTokens opts reason (ts ++ last) = ts ++ decodedTokens opts reason last := by
  unfold decodedTokens
  split
  · exact dropLast_append_of_ne_nil hlast
  · rfl

/-- The tokens up to a stop. -/
def cutTokens (hit : Option StopHit) (ts : List (TextToken L)) : List (TextToken L) :=
  hit.elim ts fun h => ts.take h.numTokens

/-- The text up to a stop, behind some text. -/
def cutText (hit : Option StopHit) (old : Bytes) (ts : List (TextToken L)) : Bytes :=
  hit.elim (old ++ textOf ts) fun h => (old ++ textOf (ts.take h.numTokens)).take h.truncateOutputTo

/-- What the events of a stream add up to, behind what the state has. -/
structure StreamYields (intermediate : Bool) (st : StreamState L) (withLogprobs : Bool)
    (text : Bytes) (ts : List (TextToken L)) (events : List (TextDelta L)) : Prop where
  text_eq : st.buffer.cumulativeOutput.take st.buffer.outputIndex ++
    events.flatMap TextDelta.delta = text
  ids_eq : events.flatMap TextDelta.tokenIds = st.tokenIds ++ ts.map TextToken.id
  logprobs_eq : events.flatMap (fun e => e.logprobs.getD []) =
    st.logprobs.getD [] ++ if withLogprobs then ts.map TextToken.logprob else []
  single : intermediate = false → events.length = 1

lemma take_append_finish (cut : Option ℕ) (h : ∀ n, cut = some n → b.outputIndex ≤ n) :
    b.cumulativeOutput.take b.outputIndex ++ (b.finish cut).1.getD [] = (b.finish cut).2 := by
  have htake : b.cumulativeOutput.take b.outputIndex = (b.finish cut).2.take b.outputIndex := by
    cases cut with
    | none => rfl
    | some n =>
      simp only [TextBuffer.finish, elim_some]
      rw [take_take, min_eq_left (h n rfl)]
  have hlast : (b.finish cut).1.getD [] = (b.finish cut).2.drop b.outputIndex := by
    simp only [TextBuffer.finish]
    split
    · rfl
    · rename_i hge
      rw [drop_eq_nil_of_le (by omega)]
      rfl
  rw [htake, hlast, take_append_drop]

section Outputs

variable {opts : TextDecodeOptions} {im lp : Bool} {st : StreamState L} {hit : Option StopHit}

/-- What holds between outputs: text that can be cut is held back, and text, token ids and log
probabilities are either handed out or collected. -/
structure StreamState.Between (opts : TextDecodeOptions) (im : Bool) (st : StreamState L) : Prop where
  held : st.buffer.Held opts
  acc : im = true → st.tokenIds = [] ∧ st.logprobs = none
  sent : im = false → st.buffer.outputIndex = 0

/-- The log probabilities of the tokens up to a stop. -/
lemma logprobs_cut (lp : Bool) (hit : Option StopHit) (ts : List (TextToken L)) :
    ((outputOf lp ts none).logprobs.map fun l => hit.elim l fun h => l.take h.numTokens) =
      if lp then some ((cutTokens hit ts).map TextToken.logprob) else none := by
  cases lp <;> cases hit <;> simp [outputOf, cutTokens]

/-- An output that ends the stream: it is terminal, or a stop string is completed in it. -/
lemma stream_of_end (lp : Bool) (h : st.Between opts im) (ts : List (TextToken L)) (finish : Option StreamFinish)
    (outs : List (GenerateOutput L)) {ds : List (TextToken L)}
    (hds : ds = if finish.any StreamFinish.isStop && !opts.includeStopStrInOutput then ts.dropLast
      else ts)
    (hhit : hit = stopScan opts st.outputTokenCount st.buffer.cumulativeOutput ds)
    (hend : hit ≠ none ∨ finish ≠ none) :
    ∃ events, decodedTextEventStream opts im (outputOf lp ts finish :: outs) st = some events ∧
      StreamYields im st lp (cutText hit st.buffer.cumulativeOutput ds) (cutTokens hit ts) events := by
  obtain ⟨b, c, hit', hpush, htake, hfalse, hhit', hnone, hsome⟩ :=
    pushTokens_spec im st.outputTokenCount ds 0 [] h.held
  obtain rfl : hit' = hit := by
    rw [hhit', hhit]
    simp
  have hfinish := take_append_finish (b := b) (hit'.map StopHit.truncateOutputTo) <| by
    intro n hn
    obtain ⟨x, hx, rfl⟩ := map_eq_some_iff.1 hn
    exact (hsome x hx).1
  have htext : (b.finish (hit'.map StopHit.truncateOutputTo)).2 =
      cutText hit' st.buffer.cumulativeOutput ds := by
    cases hit' with
    | none => simp [TextBuffer.finish, cutText, (hnone rfl).1]
    | some x =>
      have := (hsome x rfl).2
      simp [TextBuffer.finish, cutText, this]
  obtain ⟨reason, hreason⟩ : ∃ reason, (hit'.elim finish fun h => some (.stop (some h.stopStr))) =
      some reason := by
    cases hit' with
    | none => exact ne_none_iff_exists'.1 (hend.resolve_left (by simp))
    | some x => exact ⟨_, rfl⟩
  have hlp := logprobs_cut lp hit' ts
  obtain ⟨out, hout⟩ : ∃ out, out = outputOf lp ts finish := ⟨_, rfl⟩
  have htokens : out.tokens = ts := by rw [hout]; rfl
  have hlogprobs : out.logprobs = (outputOf lp ts none).logprobs := by rw [hout]; rfl
  have hreason' : out.finishReason = finish := by rw [hout]; rfl
  rw [← hout]
  simp only [decodedTextEventStream, htokens, hreason', hlogprobs, ← hds, hpush, hreason, hlp]
  refine ⟨_, rfl, ?_⟩
  cases im
  · refine ⟨?_, by simp [cutTokens], ?_, fun _ => rfl⟩
    · simp [h.sent rfl, htext]
    · cases lp <;> simp
  · refine ⟨?_, by simp [cutTokens, (h.acc rfl).1], ?_, by simp⟩
    · simp only [if_true, flatMap_cons, flatMap_nil, append_nil, nil_append]
      rw [← append_assoc, ← htake, hfinish, htext]
    · cases lp <;> simp [(h.acc rfl).2]

/-- An output after which the stream goes on. -/
lemma stream_of_next (lp : Bool) (h : st.Between opts im) (ts : List (TextToken L)) (outs : List (GenerateOutput L))
    (hhit : stopScan opts st.outputTokenCount st.buffer.cumulativeOutput ts = none) :
    ∃ st' f, decodedTextEventStream opts im (outputOf lp ts none :: outs) st =
        (decodedTextEventStream opts im outs st').map f ∧ st'.Between opts im ∧
      st'.outputTokenCount = st.outputTokenCount + ts.length ∧
      st'.buffer.cumulativeOutput = st.buffer.cumulativeOutput ++ textOf ts ∧
      ∀ text ts' events, StreamYields im st' lp text ts' events →
        StreamYields im st lp text (ts ++ ts') (f events) := by
  obtain ⟨b, c, hit, hpush, htake, hfalse, hhit', hnone, -⟩ :=
    pushTokens_spec im st.outputTokenCount ts 0 [] h.held
  obtain rfl : hit = none := by
    rw [hhit', add_zero, hhit]
    rfl
  obtain ⟨hcum, hheld⟩ := hnone rfl
  have hlp := logprobs_cut lp none ts
  simp only [outputOf, cutTokens, elim_none] at hlp
  simp only [decodedTextEventStream, outputOf, any_none, Bool.false_and, Bool.false_eq_true,
    if_false, hpush, elim_none, hlp]
  refine ⟨_, _, rfl, ⟨hheld, fun him => ?_, fun him => ?_⟩, rfl, hcum, fun text ts' events hy => ?_⟩
  · simp only [him, if_true]
    exact h.acc him
  · exact (hfalse him).trans (h.sent him)
  · obtain ⟨h1, h2, h3, h4⟩ := hy
    simp only at h1 h2 h3
    rw [htake] at h1
    cases im
    · refine ⟨?_, ?_, ?_, h4⟩
      · have hc : c = [] := by simpa [h.sent rfl, hfalse rfl] using htake
        simpa [h.sent rfl, hc] using h1
      · simpa using h2
      · cases lp <;> simpa using h3
    · refine ⟨?_, ?_, ?_, by simp⟩
      · simpa using h1
      · simpa [(h.acc rfl).1] using h2
      · cases lp <;> simpa [(h.acc rfl).2] using h3

/-- However tokens are split, the stream yields what the search over the tokens prescribes. -/
lemma decodedTextEventStream_spec (h : st.Between opts im) (reason : StreamFinish)
    (groups : List (List (TextToken L))) (hlast : last ≠ [])
    (hhit : hit = stopScan opts st.outputTokenCount
      st.buffer.cumulativeOutput (decodedTokens opts reason (groups.flatten ++ last))) :
    ∃ events, decodedTextEventStream opts im (outputsOf lp reason groups last) st = some events ∧
      StreamYields im st lp (cutText hit st.buffer.cumulativeOutput
        (decodedTokens opts reason (groups.flatten ++ last)))
        (cutTokens hit (groups.flatten ++ last)) events := by
  induction groups generalizing st hit with
  | nil => exact stream_of_end lp h last (some reason) [] rfl hhit (.inr (by simp))
  | cons g groups ih =>
    simp only [flatten_cons, append_assoc] at hhit ⊢
    have hne : groups.flatten ++ last ≠ [] := by simp [hlast]
    have hdec := decodedTokens_append opts reason g hne
    rw [hdec, stopScan_append] at hhit
    rw [hdec]
    rcases hg : stopScan opts st.outputTokenCount st.buffer.cumulativeOutput g with _ | x
    · obtain ⟨st', f, hstream, hbetween, hcount, hcum, hyields⟩ := stream_of_next lp h g
        (outputsOf lp reason groups last) hg
      obtain ⟨events, hevents, hy⟩ := ih hbetween rfl
      refine ⟨f events, ?_, ?_⟩
      · refine hstream.trans ?_
        rw [hevents]
        rfl
      · rw [hcount, hcum] at hy
        simp only [hg] at hhit
        have hy := hyields _ _ _ hy
        rcases hscan : stopScan opts (st.outputTokenCount + g.length)
          (st.buffer.cumulativeOutput ++ textOf g)
          (decodedTokens opts reason (groups.flatten ++ last)) with _ | x
        · simp only [hscan, map_none] at hhit hy
          subst hhit
          simpa [cutText, cutTokens, textOf] using hy
        · simp only [hscan, map_some] at hhit hy
          subst hhit
          simpa only [cutText, cutTokens, elim_some, add_comm x.numTokens,
            take_length_add_append, textOf, flatMap_append, append_assoc] using hy
    · simp only [hg] at hhit
      subst hhit
      obtain ⟨events, hevents, hy⟩ := stream_of_end lp h g none
        (outputsOf lp reason groups last) rfl hg.symm (.inl (by simp))
      refine ⟨events, hevents, ?_⟩
      have hle := stopScan_le hg
      simpa [cutText, cutTokens, take_append_of_le_length hle] using hy

end Outputs

/-! ## Where a stream stops -/

/-- The token with index `j` completes a stop string at `off`, and is not among the first tokens that
are not checked. -/
def CompletesAt (opts : TextDecodeOptions) (ts : List (TextToken L)) (j : ℕ) (ss : Bytes)
    (off : ℕ) : Prop :=
  ∃ t, ts[j]? = some t ∧ opts.minTokens ≤ j ∧
    Completed (opts.stopStrings.getD []) (textOf (ts.take j)) t.piece ss off

/-- The text and the number of tokens of a stream: it stops at the first token that completes a stop
string, for the one that ends first there, and cuts the text before or behind it. -/
inductive StreamResult (opts : TextDecodeOptions) (ts ds : List (TextToken L)) : Bytes → ℕ → Prop
  | whole : (∀ j ss off, ¬ CompletesAt opts ds j ss off) →
      StreamResult opts ts ds (textOf ds) ts.length
  | stopped (j : ℕ) (ss : Bytes) (off : ℕ) : CompletesAt opts ds j ss off →
      (∀ ss' off', CompletesAt opts ds j ss' off' → off + ss.length ≤ off' + ss'.length) →
      (∀ i < j, ∀ ss' off', ¬ CompletesAt opts ds i ss' off') →
      StreamResult opts ts ds ((textOf (ds.take (j + 1))).take
        (if opts.includeStopStrInOutput then off + ss.length else off)) (j + 1)

/-- The search finds the first token that completes a stop string. -/
lemma stopScan_result (opts : TextDecodeOptions) (done ds : List (TextToken L))
    (hdone : ∀ i < done.length, ∀ ss off, ¬ CompletesAt opts (done ++ ds) i ss off) :
    (stopScan opts done.length (textOf done) ds = none ∧
      ∀ j ss off, ¬ CompletesAt opts (done ++ ds) j ss off) ∨
    ∃ j ss off, stopScan opts done.length (textOf done) ds =
        some ⟨j + 1, if opts.includeStopStrInOutput then off + ss.length else off, ss⟩ ∧
      CompletesAt opts (done ++ ds) (done.length + j) ss off ∧
      (∀ ss' off', CompletesAt opts (done ++ ds) (done.length + j) ss' off' →
        off + ss.length ≤ off' + ss'.length) ∧
      ∀ i < done.length + j, ∀ ss' off', ¬ CompletesAt opts (done ++ ds) i ss' off' := by
  induction ds generalizing done with
  | nil =>
    refine .inl ⟨rfl, fun j ss off h => ?_⟩
    obtain ⟨t, ht, hrest⟩ := h
    have hj := (List.getElem?_eq_some_iff.1 ht).1
    rw [append_nil] at hj
    exact hdone j hj ss off ⟨t, ht, hrest⟩
  | cons t ts ih =>
    have hthis : ∀ ss off, CompletesAt opts (done ++ t :: ts) done.length ss off ↔
        opts.minTokens ≤ done.length ∧
          Completed (opts.stopStrings.getD []) (textOf done) t.piece ss off := by
      simp [CompletesAt]
    rcases stopCheck_spec opts done.length (textOf done) t.piece with
      ⟨hnone, hno⟩ | ⟨ss, off, hsome, hmin, hcomp, hfirst⟩
    · have hdone' : ∀ i < (done ++ [t]).length, ∀ ss off,
          ¬ CompletesAt opts (done ++ [t] ++ ts) i ss off := by
        intro i hi ss off
        rw [append_assoc, singleton_append]
        rcases lt_or_ge i done.length with hlt | hge
        · exact hdone i hlt ss off
        · obtain rfl : i = done.length := by simp at hi; omega
          rw [hthis]
          exact fun h => hno h.1 ss off h.2
      have htext : textOf (done ++ [t]) = textOf done ++ t.piece := by simp [textOf]
      have ih := ih (done ++ [t]) hdone'
      rw [append_assoc, singleton_append, htext, length_append, length_singleton] at ih
      simp only [stopScan, hnone]
      rcases ih with ⟨h1, h2⟩ | ⟨j, ss, off, h1, h2, h3, h4⟩
      · exact .inl ⟨by rw [h1]; rfl, h2⟩
      · rw [add_right_comm, add_assoc] at h2 h3 h4
        exact .inr ⟨j + 1, ss, off, by rw [h1]; rfl, h2, h3, h4⟩
    · refine .inr ⟨0, ss, off, by simp [stopScan, hsome], (hthis ss off).2 ⟨hmin, hcomp⟩, ?_, hdone⟩
      exact fun ss' off' h => hfirst ss' off' ((hthis ss' off').1 h).2

/-- For every token sequence, finish reason and options there is one text and one number of tokens, such
that every split of the tokens into outputs whose terminal one has the last token yields that text, the
ids and the log probabilities of these tokens, in one event or in deltas; and the text and the number of
tokens are those at the first token that completes a stop string. -/
theorem stream_result_of_any_split (opts : TextDecodeOptions) (withLogprobs : Bool)
    (reason : StreamFinish) (ts : List (TextToken L)) :
    ∃ text n, StreamResult opts ts (decodedTokens opts reason ts) text n ∧
      ∀ groups last, last ≠ [] → groups.flatten ++ last = ts → ∀ intermediate,
        ∃ events, decodedTextEventStream opts intermediate
            (outputsOf withLogprobs reason groups last) (StreamState.init opts) = some events ∧
          events.flatMap TextDelta.delta = text ∧
          events.flatMap TextDelta.tokenIds = (ts.take n).map TextToken.id ∧
          events.flatMap (fun e => e.logprobs.getD []) =
            (if withLogprobs then (ts.take n).map TextToken.logprob else []) ∧
          (intermediate = false → events.length = 1) := by
  obtain ⟨ds, hds⟩ : ∃ ds, ds = decodedTokens opts reason ts := ⟨_, rfl⟩
  have hstream : ∀ text n, cutText (stopScan opts 0 [] ds) [] ds = text →
      cutTokens (stopScan opts 0 [] ds) ts = ts.take n → ∀ groups last, last ≠ [] →
      groups.flatten ++ last = ts → ∀ im, ∃ events, decodedTextEventStream opts im
          (outputsOf withLogprobs reason groups last) (StreamState.init opts) = some events ∧
        events.flatMap TextDelta.delta = text ∧
        events.flatMap TextDelta.tokenIds = (ts.take n).map TextToken.id ∧
        events.flatMap (fun e => e.logprobs.getD []) =
          (if withLogprobs then (ts.take n).map TextToken.logprob else []) ∧
        (im = false → events.length = 1) := by
    rintro text n rfl htokens groups last hlast hts im
    subst hts hds
    have hinit : (StreamState.init opts : StreamState L).Between opts im :=
      ⟨⟨rfl, zero_le _⟩, fun _ => ⟨rfl, rfl⟩, fun _ => rfl⟩
    obtain ⟨events, hevents, htext, hids, hlogprobs, hsingle⟩ : ∃ events, decodedTextEventStream opts
        im (outputsOf withLogprobs reason groups last) (StreamState.init opts) = some events ∧ _ :=
      decodedTextEventStream_spec hinit reason groups hlast rfl
    simp only [StreamState.init, htokens] at hids hlogprobs
    exact ⟨events, hevents, htext, hids, hlogprobs, hsingle⟩
  rw [← hds]
  rcases stopScan_result opts [] ds (by simp) with ⟨hscan, hno⟩ | ⟨j, ss, off, hscan, hc, hf, hb⟩
  · have hscan : stopScan opts 0 [] ds = none := hscan
    refine ⟨textOf ds, ts.length, .whole hno, hstream _ _ ?_ ?_⟩
    · rw [hscan]
      rfl
    · rw [hscan, take_length]
      rfl
  · have hscan : stopScan opts 0 [] ds =
      some ⟨j + 1, if opts.includeStopStrInOutput then off + ss.length else off, ss⟩ := hscan
    simp only [length_nil, zero_add, nil_append] at hc hf hb
    refine ⟨_, j + 1, .stopped j ss off hc hf hb, hstream _ _ ?_ ?_⟩
    · rw [hscan]
      rfl
    · rw [hscan]
      rfl

/-- Two tokens `a` and `b`. -/
def tokensAB : List (TextToken Unit) := [⟨0, [97], ()⟩, ⟨1, [98], ()⟩]

/-- They stop at the stop string `ab`, in one output or in two. -/
theorem stream_result_of_two_splits : ∃ text n, StreamResult ⟨false, some [[97, 98]], 0⟩ tokensAB
      (decodedTokens ⟨false, some [[97, 98]], 0⟩ .other tokensAB) text n ∧
    ∃ events events', decodedTextEventStream ⟨false, some [[97, 98]], 0⟩ true
        (outputsOf true .other [] tokensAB) (.init ⟨false, some [[97, 98]], 0⟩) = some events ∧
      decodedTextEventStream ⟨false, some [[97, 98]], 0⟩ false
        (outputsOf true .other [[⟨0, [97], ()⟩]] [⟨1, [98], ()⟩])
        (.init ⟨false, some [[97, 98]], 0⟩) = some events' ∧
      events.flatMap TextDelta.delta = text ∧ events'.flatMap TextDelta.delta = text := by
  obtain ⟨text, n, hres, h⟩ :=
    stream_result_of_any_split ⟨false, some [[97, 98]], 0⟩ true .other tokensAB
  obtain ⟨events, he, htext, -⟩ := h [] tokensAB (by simp [tokensAB]) rfl true
  obtain ⟨events', he', htext', -⟩ := h [[⟨0, [97], ()⟩]] [⟨1, [98], ()⟩] (by simp) rfl false
  exact ⟨text, n, hres, events, events', he, he', htext, htext'⟩

/-- A terminal stop token is not decoded: though its piece completes the stop string `ab`, the text
`a` is sent. -/
theorem terminal_stop_token_not_searched :
    CompletesAt ⟨false, some [[97, 98]], 0⟩ tokensAB 1 [97, 98] 0 ∧
    ∃ events, decodedTextEventStream ⟨false, some [[97, 98]], 0⟩ true
        (outputsOf true (.stop none) [] tokensAB) (.init ⟨false, some [[97, 98]], 0⟩) = some events ∧
      events.flatMap TextDelta.delta = [97] := by
  refine ⟨⟨⟨1, [98], ()⟩, rfl, by decide, by simp, by simp, by decide, by decide⟩, _, rfl, ?_⟩
  decide +kernel

end Lvllm
