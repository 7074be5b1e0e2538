import Mathlib.Data.List.ReduceOption
import Lvllm.Text.Decoded

/-!
# Incremental detokenization

`DecodeStream` decodes tokens one by one: it keeps a window of tokens and the text of a first part of it, and
when the text of the window grew and does not end with U+FFFD, it emits what is behind that part and moves the
window.  The window is seeded from the end of the prompt.  `DecodeStream.Follows` says that the window starts
at a character and which part of the generated text has been emitted.
-/

namespace Lvllm

open List

variable {T : Type}

/-- `DecodeStream`; the tokenizer is in the parameters of its methods. -/
structure DecodeStream (T : Type) where
  ids : List T
  prefixText : Bytes
  prefixIndex : ℕ
  prefixSeeded : Bool
  buffer : TextBuffer

namespace DecodeStream

/-- `Tokenizer::decode`: the lossy decoding of the tokens' bytes. -/
def decode (bytesOf : T → Bytes) (ids : List T) : Bytes := lossy (ids.flatMap bytesOf)

/-- `DecodeStream::new`. -/
def new (prompt : List T) (minBytesToBuffer : ℕ) : DecodeStream T :=
  ⟨prompt, [], 0, prompt.isEmpty, ⟨[], 0, minBytesToBuffer⟩⟩

/-- The suffixes of a prompt that seeding tries, shortest first. -/
def safeSuffixes (ids : List T) : List (List T) :=
  if 4 < ids.length then
    (List.range' 4 (min 6 (ids.length - 1) + 1 - 4)).map fun n => ids.drop (ids.length - n)
  else []

/-- `seed_prefix`.  Decoding does not fail, so that no ids of the prompt are filtered. -/
def seedPrefix (bytesOf : T → Bytes) (d : DecodeStream T) : DecodeStream T :=
  match (safeSuffixes d.ids).find? fun ids =>
      (findFrom replacement (decode bytesOf ids) 0).isNone && decide (4 ≤ ids.length) with
  | some ids => { d with prefixText := decode bytesOf ids, ids := ids, prefixIndex := ids.length }
  | none =>
    if replacement.isSuffixOf (decode bytesOf d.ids) then d
    else { d with prefixText := decode bytesOf d.ids, prefixIndex := d.ids.length }

/-- The seeding at the start of `push_token`. -/
def seeded (bytesOf : T → Bytes) (d : DecodeStream T) : DecodeStream T :=
  if !d.prefixSeeded && !d.ids.isEmpty then { d.seedPrefix bytesOf with prefixSeeded := true } else d

/-- `push_token`, after the token was appended: emit what is behind the first part of the window. -/
def emitReady (bytesOf : T → Bytes) (d : DecodeStream T) : DecodeStream T :=
  let string := decode bytesOf d.ids
  if string.length ≤ d.prefixText.length || replacement.isSuffixOf string then d
  else
    let newChunk := string.drop (floorCharBoundary string d.prefixText.length)
    let ids := d.ids.drop d.prefixIndex
    { d with
      buffer := { d.buffer with cumulativeOutput := d.buffer.cumulativeOutput ++ newChunk }
      ids := ids, prefixText := decode bytesOf ids, prefixIndex := ids.length }

/-- `push_token`; the number of new bytes that it returns is left out. -/
def pushToken (bytesOf : T → Bytes) (d : DecodeStream T) (token : T) : DecodeStream T :=
  let d := d.seeded bytesOf
  emitReady bytesOf { d with ids := d.ids ++ [token] }

/-- `next_chunk`; `none` is a panic: a slice that does not start at a character. -/
def nextChunk (d : DecodeStream T) : Option (Option Bytes × DecodeStream T) :=
  let x := d.buffer.nextChunk
  if x.1.isSome && !isCharBoundary d.buffer.cumulativeOutput d.buffer.outputIndex then none
  else some (x.1, { d with buffer := x.2 })

/-- `flush(None)`: the last chunk and all of the text; `none` is a panic. -/
def flush (bytesOf : T → Bytes) (d : DecodeStream T) : Option (Option Bytes × Bytes) :=
  let string := decode bytesOf d.ids
  let rest := if d.prefixSeeded && !d.ids.isEmpty then
    string.drop (floorCharBoundary string d.prefixText.length) else []
  let buffer := { d.buffer with cumulativeOutput := d.buffer.cumulativeOutput ++ rest }
  let x := buffer.finish none
  if x.1.isSome && !isCharBoundary buffer.cumulativeOutput buffer.outputIndex then none else some x

/-- The calls on a stream: a token is pushed, or (`none`) a chunk is asked for.  The chunks are
concatenated. -/
def run (bytesOf : T → Bytes) : List (Option T) → DecodeStream T → Option (Bytes × DecodeStream T)
  | [], d => some ([], d)
  | some token :: calls, d => run bytesOf calls (d.pushToken bytesOf token)
  | none :: calls, d => do
    let (chunk, d) ← d.nextChunk
    let (chunks, d) ← run bytesOf calls d
    return (chunk.getD [] ++ chunks, d)

/-! ## The window follows the text -/

variable {bytesOf : T → Bytes} {prompt pushed : List T} {d : DecodeStream T}

/-- After the tokens `pushed`: the window is a first part, whose text is kept, and what is pending; both start
at characters.  What was emitted and what is pending is what was generated, and chunks end at
characters. -/
structure Follows (bytesOf : T → Bytes) (pushed : List T) (sent pending : Bytes)
    (d : DecodeStream T) : Prop where
  seeded : d.prefixSeeded = true
  index_le : d.prefixIndex ≤ d.ids.length
  text : Utf8Text d.prefixText
  first : (d.ids.take d.prefixIndex).flatMap bytesOf = d.prefixText
  second : (d.ids.drop d.prefixIndex).flatMap bytesOf = pending
  emitted : d.buffer.cumulativeOutput ++ pending = pushed.flatMap bytesOf
  emitted_text : Utf8Text d.buffer.cumulativeOutput
  sent_eq : d.buffer.cumulativeOutput.take d.buffer.outputIndex = sent
  sent_le : d.buffer.outputIndex ≤ d.buffer.cumulativeOutput.length
  boundary : isCharBoundary d.buffer.cumulativeOutput d.buffer.outputIndex = true

variable {sent pending : Bytes}

lemma Follows.decode_eq (h : d.Follows bytesOf pushed sent pending) :
    decode bytesOf d.ids = d.prefixText ++ lossy pending := by
  unfold decode
  rw [← take_append_drop d.prefixIndex d.ids, flatMap_append, h.first, h.second,
    h.text.lossy_append]

/-- Whole characters at the end keep a boundary. -/
lemma isCharBoundary_append {a b : Bytes} {i : ℕ} (h : isCharBoundary a i = true) (hi : i ≤ a.length)
    (hb : Utf8Text b) : isCharBoundary (a ++ b) i = true := by
  rcases Nat.lt_or_ge i a.length with hlt | hge
  · unfold isCharBoundary at h ⊢
    rw [getElem?_append_left hlt]
    have hne : (i == a.length) = false := by simp; omega
    rw [hne, Bool.or_false] at h
    rw [Bool.or_right_comm, h, Bool.true_or]
  · obtain rfl : i = a.length := by omega
    exact hb.isCharBoundary_append

lemma seeded_eq_self (h : d.prefixSeeded = true) : d.seeded bytesOf = d := by
  simp [DecodeStream.seeded, h]

/-- A token is pushed: its bytes are pending, or all that is pending is emitted. -/
lemma Follows.push {rest : Bytes} (h : d.Follows bytesOf pushed sent pending) (t : T)
    (hgen : Utf8Text ((pushed ++ [t]).flatMap bytesOf ++ rest)) :
    ∃ pending', (d.pushToken bytesOf t).Follows bytesOf (pushed ++ [t]) sent pending' := by
  obtain ⟨d1, hd1⟩ : ∃ d1 : DecodeStream T, d1 = { d with ids := d.ids ++ [t] } := ⟨_, rfl⟩
  have h1 : d1.Follows bytesOf (pushed ++ [t]) sent (pending ++ bytesOf t) := by
    rw [hd1]
    refine ⟨h.seeded, ?_, h.text, ?_, ?_, ?_, h.emitted_text, h.sent_eq, h.sent_le, h.boundary⟩
    · simpa using Nat.le_succ_of_le h.index_le
    · simp only [take_append_of_le_length h.index_le, h.first]
    · simp [drop_append_of_le_length h.index_le, h.second]
    · rw [flatMap_append, ← h.emitted]
      simp
  have hpush : d.pushToken bytesOf t = d1.emitReady bytesOf := by
    rw [pushToken, seeded_eq_self h.seeded, hd1]
  rw [hpush]
  simp only [emitReady, h1.decode_eq]
  split
  · exact ⟨_, h1⟩
  · rename_i hcond
    have hend : ¬ replacement <:+ d1.prefixText ++ lossy (pending ++ bytesOf t) := fun hsuf =>
      hcond (by rw [isSuffixOf_iff_suffix.2 hsuf, Bool.or_true])
    -- the window ends at a character, since its decoding does not end with U+FFFD
    have htext : Utf8Text (pending ++ bytesOf t) := by
      have hsplit : Utf8Text (d1.buffer.cumulativeOutput ++ ((pending ++ bytesOf t) ++ rest)) := by
        rw [← append_assoc, h1.emitted]
        exact hgen
      rcases utf8Text_or_replacement (h1.emitted_text.of_append hsplit) with ht | hr
      · exact ht
      · exact absurd (hr.trans (suffix_append _ _)) hend
    have hfloor := floorCharBoundary_of_boundary (htext.isCharBoundary_append (a := d1.prefixText))
    refine ⟨[], ?_⟩
    rw [htext.lossy_eq, hfloor, drop_left]
    have hbytes : decode bytesOf (d1.ids.drop d1.prefixIndex) = pending ++ bytesOf t := by
      rw [decode, h1.second, htext.lossy_eq]
    refine ⟨h1.seeded, le_rfl, hbytes ▸ htext, ?_, ?_, ?_, h1.emitted_text.append htext, ?_, ?_, ?_⟩
    · simp only [take_length, hbytes, h1.second]
    · simp only [drop_length, flatMap_nil]
    · simpa using h1.emitted
    · simp only [take_append_of_le_length h1.sent_le, h1.sent_eq]
    · simpa using Nat.le_add_right_of_le h1.sent_le
    · exact isCharBoundary_append h1.boundary h1.sent_le htext

lemma Follows.nextChunk (h : d.Follows bytesOf pushed sent pending) :
    ∃ chunk d', d.nextChunk = some (chunk, d') ∧
      d'.Follows bytesOf pushed (sent ++ chunk.getD []) pending := by
  have hfloor := floorCharBoundary_le d.buffer.cumulativeOutput
    (d.buffer.cumulativeOutput.length - d.buffer.minBytesToBuffer)
  refine ⟨d.buffer.nextChunk.1, { d with buffer := d.buffer.nextChunk.2 }, ?_, ?_⟩
  · simp [DecodeStream.nextChunk, h.boundary]
  · simp only [TextBuffer.nextChunk]
    split
    · rename_i hlt
      refine { h with
        sent_eq := ?_
        sent_le := hfloor.trans (Nat.sub_le _ _)
        boundary := isCharBoundary_floor _ _ }
      have hsplit := take_append_drop d.buffer.outputIndex (d.buffer.cumulativeOutput.take
        (floorCharBoundary d.buffer.cumulativeOutput
          (d.buffer.cumulativeOutput.length - d.buffer.minBytesToBuffer)))
      rw [take_take, Nat.min_eq_left hlt.le, h.sent_eq] at hsplit
      exact hsplit.symm
    · exact { h with sent_eq := by simpa using h.sent_eq }

/-- At the end all that is pending is whole characters, and is emitted. -/
lemma Follows.flush (h : d.Follows bytesOf pushed sent pending)
    (hgen : Utf8Text (pushed.flatMap bytesOf)) :
    ∃ last, d.flush bytesOf = some (last, pushed.flatMap bytesOf) ∧
      sent ++ last.getD [] = pushed.flatMap bytesOf := by
  have hpending : Utf8Text pending := h.emitted_text.of_append (h.emitted ▸ hgen)
  have hrest : (if d.prefixSeeded && !d.ids.isEmpty then
      (decode bytesOf d.ids).drop (floorCharBoundary (decode bytesOf d.ids) d.prefixText.length)
      else []) = pending := by
    rw [h.decode_eq, hpending.lossy_eq,
      floorCharBoundary_of_boundary (hpending.isCharBoundary_append (a := d.prefixText)),
      drop_left, h.seeded]
    have := h.second
    cases hids : d.ids with
    | nil => simpa [hids] using this
    | cons t ids => simp
  let b : TextBuffer := { d.buffer with
    cumulativeOutput := d.buffer.cumulativeOutput ++ pending }
  have htake : b.cumulativeOutput.take b.outputIndex = sent :=
    (take_append_of_le_length h.sent_le).trans h.sent_eq
  have htext : (b.finish none).2 = pushed.flatMap bytesOf := h.emitted
  have hbound : isCharBoundary b.cumulativeOutput b.outputIndex = true :=
    isCharBoundary_append h.boundary h.sent_le hpending
  refine ⟨(b.finish none).1, ?_, ?_⟩
  · rw [DecodeStream.flush, hrest, ← htext]
    exact if_neg (by rw [hbound, Bool.not_true, Bool.and_false]; simp)
  · rw [← htake, ← htext]
    exact take_append_finish none (by simp)

/-- The window can be seeded from a prompt: one of the suffixes that are tried has no U+FFFD, or the
prompt does not end with it. -/
def Seeds (bytesOf : T → Bytes) (prompt : List T) : Prop :=
  (∃ ids ∈ safeSuffixes prompt, findFrom replacement (decode bytesOf ids) 0 = none ∧ 4 ≤ ids.length) ∨
    ¬ replacement <:+ prompt.flatMap bytesOf

/-- The search for a suffix of the prompt. -/
lemma find?_safeSuffixes_eq_none (bytesOf : T → Bytes) (prompt : List T) :
    ((safeSuffixes prompt).find? fun ids =>
      (findFrom replacement (decode bytesOf ids) 0).isNone && decide (4 ≤ ids.length)) = none ↔
    ¬ ∃ ids ∈ safeSuffixes prompt, findFrom replacement (decode bytesOf ids) 0 = none ∧
      4 ≤ ids.length := by
  simp

/-- Seeding from a prompt from which it can be seeded: the window is a suffix that starts at a
character. -/
lemma seedPrefix_eq (hprompt : Utf8Text (d.ids.flatMap bytesOf)) (hend : Seeds bytesOf d.ids) :
    ∃ ids, Utf8Text (ids.flatMap bytesOf) ∧ d.seedPrefix bytesOf =
      { d with ids := ids, prefixText := ids.flatMap bytesOf, prefixIndex := ids.length } := by
  unfold seedPrefix
  split
  · rename_i ids hfind
    obtain ⟨hclean, -⟩ : findFrom replacement (decode bytesOf ids) 0 = none ∧ 4 ≤ ids.length := by
      simpa using find?_some hfind
    have htext : Utf8Text (ids.flatMap bytesOf) := by
      refine utf8Text_of_clean ?_
      rintro ⟨x, y, hxy⟩
      have hno := findFrom_eq_none hclean x.length (Nat.zero_le _)
      have hocc : occursAt replacement (decode bytesOf ids) x.length = true := by
        rw [decode, ← hxy, append_assoc]
        exact decide_eq_true ⟨by simp, by rw [drop_left]; exact prefix_append _ _⟩
      rw [hocc] at hno
      cases hno
    exact ⟨ids, htext, by rw [decode, htext.lossy_eq]⟩
  · rename_i hfind
    have hend := hend.resolve_left ((find?_safeSuffixes_eq_none bytesOf d.ids).1 hfind)
    rw [decode, hprompt.lossy_eq, if_neg (by rwa [isSuffixOf_iff_suffix])]
    exact ⟨d.ids, hprompt, rfl⟩

lemma follows_seeded (m : ℕ) (hprompt : Utf8Text (prompt.flatMap bytesOf))
    (hend : prompt = [] ∨ Seeds bytesOf prompt) :
    ((new prompt m).seeded bytesOf).Follows bytesOf [] [] [] := by
  have hmake : ∀ ids : List T, Utf8Text (ids.flatMap bytesOf) →
      (⟨ids, ids.flatMap bytesOf, ids.length, true, ⟨[], 0, m⟩⟩ : DecodeStream T).Follows bytesOf
        [] [] [] := fun ids htext =>
    ⟨rfl, le_rfl, htext, by simp, by simp, rfl, .nil, rfl, le_rfl, rfl⟩
  cases prompt with
  | nil => exact hmake [] .nil
  | cons t ts =>
    obtain ⟨ids, htext, hseed⟩ := seedPrefix_eq (d := new (t :: ts) m) hprompt
      (hend.resolve_left (by simp))
    have hseeded : (new (t :: ts) m).seeded bytesOf =
        ⟨ids, ids.flatMap bytesOf, ids.length, true, ⟨[], 0, m⟩⟩ := by
      rw [DecodeStream.seeded, hseed]
      rfl
    rw [hseeded]
    exact hmake ids htext

/-! ## Runs -/

/-- The calls from a state in which the window follows the text. -/
lemma Follows.run (h : d.Follows bytesOf pushed sent pending) (calls : List (Option T))
    (hgen : Utf8Text ((pushed ++ calls.reduceOption).flatMap bytesOf)) :
    ∃ chunks d' pending', run bytesOf calls d = some (chunks, d') ∧
      d'.Follows bytesOf (pushed ++ calls.reduceOption) (sent ++ chunks) pending' := by
  induction calls generalizing pushed sent pending d with
  | nil => exact ⟨[], d, pending, rfl, by simpa using h⟩
  | cons call calls ih =>
    cases call with
    | none =>
      obtain ⟨chunk, d1, hnext, h1⟩ := h.nextChunk
      obtain ⟨chunks, d', pending', hrun, h'⟩ := ih h1 hgen
      refine ⟨chunk.getD [] ++ chunks, d', pending', ?_, ?_⟩
      · simp [DecodeStream.run, hnext, hrun]
      · rw [← append_assoc]
        exact h'
    | some t =>
      have hcalls : pushed ++ (some t :: calls).reduceOption =
          (pushed ++ [t]) ++ calls.reduceOption := by simp
      rw [hcalls] at hgen ⊢
      obtain ⟨pending1, h1⟩ := h.push t (flatMap_append ▸ hgen)
      exact ih h1 hgen

/-- Before the first token nothing is emitted. -/
lemma run_new (m : ℕ) (hprompt : Utf8Text (prompt.flatMap bytesOf))
    (hend : prompt = [] ∨ Seeds bytesOf prompt) (calls : List (Option T))
    (hgen : Utf8Text (calls.reduceOption.flatMap bytesOf)) :
    ∃ chunks d', run bytesOf calls (new prompt m) = some (chunks, d') ∧
      ((chunks = [] ∧ calls.reduceOption = [] ∧ d' = new prompt m) ∨
        ∃ pending, d'.Follows bytesOf calls.reduceOption chunks pending) := by
  induction calls with
  | nil => exact ⟨[], _, rfl, .inl ⟨rfl, rfl, rfl⟩⟩
  | cons call calls ih =>
    cases call with
    | none =>
      obtain ⟨chunks, d', hrun, h⟩ := ih hgen
      have hnext : (new prompt m).nextChunk = some (none, new prompt m) := by
        simp [DecodeStream.nextChunk, TextBuffer.nextChunk, new, floorCharBoundary]
      exact ⟨chunks, d', by simp [run, hnext, hrun], h⟩
    | some t =>
      -- the first token seeds the window
      have hfollows := follows_seeded m hprompt hend
      have hpush : (new prompt m).pushToken bytesOf t =
          ((new prompt m).seeded bytesOf).pushToken bytesOf t := by
        rw [pushToken, pushToken, seeded_eq_self hfollows.seeded]
      obtain ⟨chunks, d', pending, hrun, h⟩ := hfollows.run (some t :: calls) (by simpa using hgen)
      refine ⟨chunks, d', ?_, .inr ⟨pending, by simpa using h⟩⟩
      rw [run, hpush]
      exact hrun

/-- Without a seed, the text of the prompt is emitted with the first token. -/
lemma flush_unseeded (m : ℕ) (hne : prompt ≠ []) (hend : ¬ Seeds bytesOf prompt)
    (hprompt : Utf8Text (prompt.flatMap bytesOf)) (t : T) (ht : Utf8Text (bytesOf t)) :
    ∃ last, ((new prompt m).pushToken bytesOf t).flush bytesOf =
      some (last, prompt.flatMap bytesOf ++ bytesOf t) := by
  obtain ⟨hfind, hsuffix⟩ := not_or.1 hend
  have hseed : (new prompt m).seeded bytesOf = { new prompt m with prefixSeeded := true } := by
    have hempty : prompt.isEmpty = false := by simpa using hne
    rw [DecodeStream.seeded, seedPrefix, show (new prompt m).ids = prompt from rfl,
      (find?_safeSuffixes_eq_none bytesOf prompt).2 hfind]
    dsimp only
    rw [decode, hprompt.lossy_eq, if_pos (isSuffixOf_iff_suffix.2 (not_not.1 hsuffix))]
    simp [new, hempty]
  have hdecode : decode bytesOf (prompt ++ [t]) = prompt.flatMap bytesOf ++ bytesOf t := by
    rw [decode, flatMap_append, flatMap_singleton, (hprompt.append ht).lossy_eq]
  generalize prompt.flatMap bytesOf ++ bytesOf t = text at hdecode ⊢
  have hstart : floorCharBoundary text 0 = 0 := by simp [floorCharBoundary]
  have hfull : floorCharBoundary text text.length = text.length :=
    floorCharBoundary_of_boundary (by simp [isCharBoundary])
  rw [pushToken, hseed]
  simp only [emitReady, new, hdecode]
  split
  · simp [DecodeStream.flush, hdecode, hstart, isCharBoundary, TextBuffer.finish]
  · simp [DecodeStream.flush, hdecode, hstart, hfull, isCharBoundary, TextBuffer.finish]

/-- If the window can be seeded from the prompt, the chunks between pushed tokens and the last chunk of
`flush` are the text that `flush` returns, and this is the text of the generated tokens alone; no slice
panics.  If not, the text of the prompt comes in front of the first token. -/
theorem chunks_are_generated_text (bytesOf : T → Bytes) (prompt : List T) (m : ℕ)
    (hprompt : Utf8Text (prompt.flatMap bytesOf)) :
    (prompt = [] ∨ Seeds bytesOf prompt → ∀ calls : List (Option T),
      Utf8Text (calls.reduceOption.flatMap bytesOf) →
      ∃ chunks d last text, run bytesOf calls (new prompt m) = some (chunks, d) ∧
        d.flush bytesOf = some (last, text) ∧ chunks ++ last.getD [] = text ∧
        text = lossy (calls.reduceOption.flatMap bytesOf)) ∧
    (¬ (prompt = [] ∨ Seeds bytesOf prompt) → ∀ t, Utf8Text (bytesOf t) →
      ∃ d last text, run bytesOf [some t] (new prompt m) = some ([], d) ∧
        d.flush bytesOf = some (last, text) ∧ text ≠ lossy (bytesOf t)) := by
  refine ⟨fun hend calls hgen => ?_, fun hend t ht => ?_⟩
  · obtain ⟨chunks, d, hrun, ⟨rfl, hnone, rfl⟩ | ⟨pending, h⟩⟩ := run_new m hprompt hend calls hgen
    · refine ⟨[], _, none, [], hrun, ?_, rfl, by rw [hnone]; rfl⟩
      cases prompt <;> rfl
    · obtain ⟨last, hflush, hlast⟩ := h.flush hgen
      exact ⟨chunks, d, last, _, hrun, hflush, hlast, hgen.lossy_eq.symm⟩
  · obtain ⟨hne, hseeds⟩ := not_or.1 hend
    obtain ⟨last, hflush⟩ := flush_unseeded m hne hseeds hprompt t ht
    refine ⟨_, last, _, rfl, hflush, ?_⟩
    rw [ht.lossy_eq, Ne, append_left_eq_self]
    intro hnil
    refine hseeds (.inr fun hsuffix => ?_)
    rw [hnil, suffix_nil] at hsuffix
    cases hsuffix

/-- Tokens that are single bytes: the prompt `a`, and the two bytes of `é` with chunks asked for in
between. -/
theorem chunks_are_text_of_two_bytes : ∃ chunks d last text,
    run (fun b : UInt8 => [b]) [some 0xC3, none, some 0xA9, none] (new [97] 0) = some (chunks, d) ∧
      d.flush (fun b => [b]) = some (last, text) ∧ chunks ++ last.getD [] = text ∧
      text = lossy [0xC3, 0xA9] :=
  (chunks_are_generated_text (fun b : UInt8 => [b]) [97] 0 (.cons (c := [97]) rfl .nil)).1
    (.inr (.inr (by decide))) [some 0xC3, none, some 0xA9, none]
    (.cons (c := [0xC3, 0xA9]) rfl .nil)

/-- The prompt U+FFFD and the generated text `a`: the chunk has the prompt too. -/
theorem prompt_emitted_after_replacement : Utf8Text replacement ∧ Utf8Text [97] ∧
    ∃ d, run (fun b : Bytes => b) [some [97], none] (new [replacement] 0) =
      some (replacement ++ [97], d) :=
  ⟨.cons (c := replacement) rfl .nil, .cons (c := [97]) rfl .nil, _, rfl⟩

end DecodeStream

end Lvllm
