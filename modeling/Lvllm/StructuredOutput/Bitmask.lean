import Mathlib.Algebra.Order.BigOperators.Group.List
import Mathlib.Data.List.Nodup
import Lvllm.StructuredOutput.Reasoning

/-!
# The token masks of a step

`grammarBitmask` fills one row for every draft of a request and one for the token after them.  The grammar
is advanced through the drafts while the rows are filled, and rolled back afterwards.  A draft can end
reasoning: the rows behind it are masked, and the drafts behind it, which nobody filtered, advance the
grammar as far as it accepts them.  `DraftRequest.rows` says what the rows are, and `DraftInv` what the loop
over the drafts of a request knows before each of them.
-/

namespace Lvllm

open List Option Nat

variable {σ M : Type}

/-- What the manager uses of a grammar.  Rolling back undoes accepted tokens, and what
`validate_tokens` returns can be accepted one by one. -/
structure Grammar (σ M : Type) where
  acceptToken : σ → ℤ → Option σ
  validateTokens : σ → List ℤ → List ℤ
  rollback : σ → ℕ → σ
  isTerminated : σ → Bool
  mask : σ → M
  rollback_zero : ∀ s, rollback s 0 = s
  rollback_accept : ∀ s t s' n, acceptToken s t = some s' → rollback s' (n + 1) = rollback s n
  validate_accepts : ∀ s ts, ((validateTokens s ts).foldlM (fun g t =>
    if isTerminated g then some g else acceptToken g t) s).isSome = true

variable (G : Grammar σ M) (full : M) (isDiffusion : Bool)

/-- Continue with a token unless the grammar is terminated. -/
def Grammar.next (g : σ) (t : ℤ) : Option σ :=
  if G.isTerminated g then some g else G.acceptToken g t

/-- The row `_fill_bitmasks` writes. -/
def Grammar.row (g : σ) (applyBitmask : Bool) : M :=
  if applyBitmask && !G.isTerminated g then G.mask g else full

/-- Write a row of the bitmask; `none` if there is no such row. -/
def writeRow (bitmask : List M) (index : ℕ) (row : M) : Option (List M) :=
  if index < bitmask.length then some (bitmask.set index row) else none

/-- A request with the manager, whose reasoner is the parser `_get_reasoner` built for this request, the state
of its grammar and its scheduled drafts. -/
structure DraftRequest (σ : Type) where
  request : SoRequest ℤ
  manager : StructuredOutputManager ℤ
  grammar : σ
  drafts : List ℤ

/-- `should_fill_bitmask` for a request. -/
def DraftRequest.shouldFill (r : DraftRequest σ) : Bool × SoRequest ℤ :=
  shouldFillBitmask r.manager r.request

/-- The variables of the loop over the drafts of a request. -/
structure DraftState (σ M : Type) where
  grammar : σ
  applyBitmask : Bool
  postReasoningEnd : Bool
  stateAdvancements : ℕ
  index : ℕ
  bitmask : List M

/-- One draft; `seen` are the tokens before it. -/
def draftStep (reasoner : Option (ReasoningParser ℤ)) (seen : List ℤ)
    (token : ℤ) (s : DraftState σ M) : Option (DraftState σ M) := do
  let bitmask ← writeRow s.bitmask s.index (G.row full s.grammar s.applyBitmask)
  let s := { s with bitmask := bitmask, index := s.index + 1 }
  if token = -1 then return { s with applyBitmask := false }
  else if !s.applyBitmask then
    -- the marker itself is reasoning content
    if reasoner.any fun R => R.isReasoningEndStreaming (seen ++ [token]) [token] then
      return { s with applyBitmask := true, postReasoningEnd := true }
    else return s
  else if G.isTerminated s.grammar then return s
  else
    let accepted := if s.postReasoningEnd && (G.validateTokens s.grammar [token]).isEmpty then none
      else G.acceptToken s.grammar token
    match accepted with
    | some g => return { s with grammar := g, stateAdvancements := s.stateAdvancements + 1 }
    | none => if s.postReasoningEnd then return s else none

namespace DraftRequest

variable (r : DraftRequest σ)

/-- Whether reasoning is over when the rows of a request are filled. -/
def ended : Bool := r.shouldFill.1

/-- The parser that the loop over the drafts asks. -/
def asks : Option (ReasoningParser ℤ) := if r.ended then none else r.manager.reasoner

/-- The part of some drafts that is grammar content, once reasoning is over. -/
def grammarContent (ds : List ℤ) : Option (List ℤ) :=
  if r.ended then some ds
  else r.manager.reasoner.bind fun R => (findReasoningEnd R r.request.allTokenIds ds).map fun e =>
    ds.drop (e + 1 - r.request.allTokenIds.length)

/-- The grammar after a draft of the content.  Drafts that a marker precedes may be rejected, and are
passed over. -/
def advance (g : σ) (t : ℤ) : σ :=
  if !r.ended && (G.validateTokens g [t]).isEmpty then g else (G.next g t).getD g

/-- The grammar after the content of some drafts, padding apart. -/
def grammarAfter (ds : List ℤ) : σ :=
  ((r.grammarContent (ds.filter (· ≠ -1))).getD []).foldl
    (r.advance G) r.grammar

/-- Whether the row behind some drafts is masked: reasoning is over, and no draft is padding. -/
def masked (ds : List ℤ) : Bool :=
  (r.grammarContent (ds.filter (· ≠ -1))).isSome && !ds.contains (-1)

/-- The rows of a request: one before each draft, and the bonus row, which a diffusion model with drafts
does not get.  Padding does not lift the mask of the bonus row if reasoning was over before. -/
def rows : List M :=
  ((range r.drafts.length).map fun i => G.row full (r.grammarAfter G (r.drafts.take i))
    (r.masked (r.drafts.take i))) ++
  if isDiffusion && !r.drafts.isEmpty then []
  else [G.row full (r.grammarAfter G r.drafts)
    (r.ended || r.masked r.drafts)]

end DraftRequest

open DraftRequest

/-! ## Writing rows -/

/-- Rows were written one after another. -/
structure Wrote (index : ℕ) (bitmask rows : List M) (index' : ℕ) (bitmask' : List M) : Prop where
  index_eq : index' = index + rows.length
  length_eq : bitmask'.length = bitmask.length
  take_eq : bitmask'.take index' = bitmask.take index ++ rows

variable {b : List M} {index : ℕ}

lemma Wrote.trans {i j k : ℕ} {c d rows rows' : List M} (h : Wrote i b rows j c)
    (h' : Wrote j c rows' k d) : Wrote i b (rows ++ rows') k d where
  index_eq := by rw [h'.index_eq, h.index_eq, length_append, Nat.add_assoc]
  length_eq := h'.length_eq.trans h.length_eq
  take_eq := by rw [h'.take_eq, h.take_eq, append_assoc]

lemma writeRow_wrote (row : M) (h : index < b.length) :
    ∃ b', writeRow b index row = some b' ∧ Wrote index b [row] (index + 1) b' := by
  refine ⟨b.set index row, if_pos h, rfl, by simp, ?_⟩
  rw [take_add_one, take_set_of_le le_rfl, getElem?_set_self h]
  rfl

/-! ## The loop over the drafts -/

section Loop

variable {G full isDiffusion} {r : DraftRequest σ} {ds ts : List ℤ}
  {s : DraftState σ M} {t : ℤ}

/-- What is known before the draft behind `ds`. -/
structure DraftInv (G : Grammar σ M) (r : DraftRequest σ) (ds : List ℤ)
    (s : DraftState σ M) : Prop where
  undo : G.rollback s.grammar s.stateAdvancements = r.grammar
  grammar : s.grammar = r.grammarAfter G ds
  apply : s.applyBitmask = r.masked ds
  post : s.applyBitmask = true → s.postReasoningEnd = !r.ended

/-- The grammar content grows with each draft; it starts behind the marker. -/
lemma grammarContent_snoc (r : DraftRequest σ) (ds : List ℤ) (t : ℤ) :
    r.grammarContent (ds ++ [t]) =
      match r.grammarContent ds with
      | some c => some (c ++ [t])
      | none => if r.asks.any fun R =>
          R.isReasoningEndStreaming (r.request.allTokenIds ++ ds ++ [t]) [t]
        then some [] else none := by
  unfold grammarContent asks
  cases r.ended with
  | true => simp
  | false =>
    cases r.manager.reasoner with
    | none => simp
    | some R =>
      simp only [Bool.false_eq_true, if_false, bind_some, any_some]
      rcases hfind : findReasoningEnd R r.request.allTokenIds ds with _ | e
      · rw [(find_append_of_none [t] hfind).1]
        simp only [findReasoningEnd, map_none]
        split
        · simp
          omega
        · rfl
      · obtain ⟨h1, h2, h3, -⟩ := find_append_of_some [t] hfind
        rw [h1]
        simp only [map_some, some.injEq]
        exact drop_append_of_le_length (by omega)

/-- Drafts that can be accepted one by one advance the grammar. -/
lemma foldl_advance (hended : r.ended = true) {g g' : σ}
    (h : ts.foldlM G.next g = some g') : ts.foldl (r.advance G) g = g' := by
  induction ts generalizing g with
  | nil => exact some.inj h
  | cons t ts ih =>
    obtain ⟨g1, h1, h2⟩ := bind_eq_some_iff.1 h
    rw [foldl_cons, advance, hended, h1]
    exact ih h2

lemma next_isSome (hended : r.ended = true)
    (h : ((ds ++ [t]).foldlM G.next r.grammar).isSome = true) :
    (G.next (ds.foldl (r.advance G) r.grammar) t).isSome = true := by
  obtain ⟨g', hg'⟩ := isSome_iff_exists.1 h
  rw [foldlM_append] at hg'
  obtain ⟨g, hg, hnext⟩ := bind_eq_some_iff.1 hg'
  rw [foldl_advance hended hg]
  cases hn : G.next g t with
  | none => simp [hn] at hnext
  | some _ => rfl

lemma filter_unpadded (h : -1 ∉ ds) : ds.filter (· ≠ -1) = ds :=
  filter_eq_self.2 fun _ ha => decide_eq_true fun heq => h (heq ▸ ha)

/-- One draft: what comes behind padding is padding, and what comes when reasoning is over can be
accepted. -/
lemma DraftInv.step (full : M) (h : DraftInv G r ds s)
    (hroom : s.index < s.bitmask.length) (hpad : -1 ∈ ds → t = -1)
    (hvalid : r.ended = true →
      (((ds ++ [t]).filter (· ≠ -1)).foldlM G.next r.grammar).isSome = true) :
    ∃ s', draftStep G full r.asks
        (r.request.allTokenIds ++ ds) t s = some s' ∧
      DraftInv G r (ds ++ [t]) s' ∧
      Wrote s.index s.bitmask [G.row full (r.grammarAfter G ds)
        (r.masked ds)] s'.index s'.bitmask := by
  obtain ⟨b, hb, hw⟩ := writeRow_wrote (G.row full s.grammar s.applyBitmask) hroom
  rw [← h.grammar, ← h.apply]
  simp only [draftStep, hb, bind_eq_bind, bind_some]
  by_cases ht : t = -1
  · subst ht
    refine ⟨_, if_pos rfl, ⟨h.undo, ?_, ?_, fun h => absurd h Bool.false_ne_true⟩, hw⟩
    · simpa [grammarAfter] using h.grammar
    · simp [masked]
  have hno : -1 ∉ ds := fun hmem => ht (hpad hmem)
  have hfilter := filter_unpadded hno
  have hfilter' : (ds ++ [t]).filter (· ≠ -1) = ds ++ [t] := by
    rw [filter_append, hfilter, filter_singleton, decide_eq_true ht, cond_true]
  have hmasked' : r.masked (ds ++ [t]) =
      (r.grammarContent (ds ++ [t])).isSome := by
    rw [masked, hfilter']
    simp [hno, Ne.symm ht]
  have hgram := h.grammar
  have happly := h.apply
  rw [grammarAfter, hfilter] at hgram
  simp only [masked, hfilter, contains_eq_mem, hno, decide_false, Bool.not_false,
    Bool.and_true] at happly
  have hsnoc := grammarContent_snoc r ds t
  rw [if_neg ht]
  rcases hc : r.grammarContent ds with _ | c
  · -- reasoning goes on; the draft may be the marker
    rw [hc] at hgram happly hsnoc
    dsimp only at hsnoc
    rw [if_pos (by rw [happly]; rfl)]
    split
    · rename_i hfire
      rw [if_pos hfire] at hsnoc
      refine ⟨_, rfl, ⟨h.undo, ?_, ?_, fun _ => ?_⟩, hw⟩
      · rw [grammarAfter, hfilter', hsnoc]
        exact hgram
      · rw [hmasked', hsnoc]
        rfl
      · cases hended : r.ended with
        | true => simp [asks, hended] at hfire
        | false => rfl
    · rename_i hfire
      rw [if_neg hfire] at hsnoc
      refine ⟨_, rfl, ⟨h.undo, ?_, ?_, fun htrue => ?_⟩, hw⟩
      · rw [grammarAfter, hfilter', hsnoc]
        exact hgram
      · rw [hmasked', hsnoc]
        exact happly
      · rw [happly] at htrue
        cases htrue
  · rw [hc] at hgram happly hsnoc
    dsimp only at hsnoc
    have hpost := h.post happly
    -- the state behind the draft
    have hnew : ∀ s' : DraftState σ M, G.rollback s'.grammar s'.stateAdvancements = r.grammar →
        s'.grammar = r.advance G s.grammar t → s'.applyBitmask = s.applyBitmask →
        s'.postReasoningEnd = s.postReasoningEnd → DraftInv G r (ds ++ [t]) s' := by
      refine fun s' hundo hg ha hp => ⟨hundo, ?_, ?_, fun _ => hp.trans hpost⟩
      · rw [hg, grammarAfter, hfilter', hsnoc, hgram]
        exact (foldl_concat ..).symm
      · rw [ha, hmasked', hsnoc]
        exact happly
    rw [if_neg (by simp [happly])]
    cases hterm : G.isTerminated s.grammar with
    | true =>
      exact ⟨_, rfl, hnew _ h.undo (by simp [advance, Grammar.next, hterm]) rfl rfl, hw⟩
    | false =>
      simp only [Bool.false_eq_true, if_false, hpost]
      have hadvance : r.advance G s.grammar t =
          (if !r.ended && (G.validateTokens s.grammar [t]).isEmpty then none
            else G.acceptToken s.grammar t).getD s.grammar := by
        rw [advance, Grammar.next, hterm]
        split <;> rfl
      split
      · rename_i g hacc
        have hg : G.acceptToken s.grammar t = some g := by
          split at hacc
          · cases hacc
          · exact hacc
        refine ⟨_, rfl, hnew _ ((G.rollback_accept _ _ _ _ hg).trans h.undo) ?_ rfl hpost.symm, hw⟩
        rw [hadvance, hacc]
        rfl
      · rename_i hacc
        have hended : r.ended = false := by
          by_contra hne
          have hended := Bool.eq_true_of_not_eq_false hne
          have hds : ds = c := by
            rw [grammarContent, hended] at hc
            exact some.inj hc
          -- the drafts can be accepted one by one
          have hnext := next_isSome hended (hfilter' ▸ hvalid hended)
          rw [hds, ← (show s.grammar = c.foldl (r.advance G) r.grammar from hgram)] at hnext
          simp only [hended, Bool.not_true, Bool.false_and, Bool.false_eq_true, if_false] at hacc
          simp [Grammar.next, hterm, hacc] at hnext
        rw [hended]
        refine ⟨_, rfl, hnew _ h.undo ?_ rfl ?_, hw⟩
        · rw [hadvance, hacc]
          rfl
        · rw [hpost, hended]

end Loop

/-! ## All requests -/

end Lvllm
