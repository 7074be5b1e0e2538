import Mathlib.Data.List.Basic

/-!
# Leftmost longest matches of literals

A text is cut by a list of literals, each with a name: at every position the longest literal that
starts there is taken, the first of them in the list if there are several, and what starts with no
literal goes character by character.  `tokenize` is structurally recursive in the text; the counter
says how many characters of a literal are still to be passed.
-/

namespace Lvllm

open List

variable {α β : Type*} [DecidableEq α]

/-- The better of a match so far and a literal: the literal if it starts the text and is longer. -/
def longerMatch (text : List α) (best : Option (List α × β)) (lit : List α × β) :
    Option (List α × β) :=
  if lit.1 <+: text ∧ best.all (fun m => decide (m.1.length < lit.1.length)) then some lit else best

/-- The first of the longest literals that start a text. -/
def longestMatch (lits : List (List α × β)) (text : List α) : Option (List α × β) :=
  lits.foldl (longerMatch text) none

/-- The text cut at the literals, from behind `skip` characters. -/
def tokenizeFrom (lits : List (List α × β)) : ℕ → List α → List (Option β × List α)
  | _, [] => []
  | skip + 1, _ :: text => tokenizeFrom lits skip text
  | 0, a :: text =>
    match longestMatch lits (a :: text) with
    | some m => (some m.2, m.1) :: tokenizeFrom lits (m.1.length - 1) text
    | none => (none, [a]) :: tokenizeFrom lits 0 text

/-- The leftmost longest tokenization of a text. -/
def tokenize (lits : List (List α × β)) (text : List α) : List (Option β × List α) :=
  tokenizeFrom lits 0 text

/-! ## Matches -/

/-- What a fold over literals finds: the best so far, or a literal that starts the text; nothing
that starts the text is longer. -/
lemma foldl_longerMatch (lits : List (List α × β)) (text : List α) (best : Option (List α × β)) :
    (lits.foldl (longerMatch text) best = best ∨
      ∃ m ∈ lits, m.1 <+: text ∧ lits.foldl (longerMatch text) best = some m) ∧
    (∀ m, best = some m → ∃ m', lits.foldl (longerMatch text) best = some m' ∧
      m.1.length ≤ m'.1.length) ∧
    ∀ lit ∈ lits, lit.1 <+: text → ∃ m', lits.foldl (longerMatch text) best = some m' ∧
      lit.1.length ≤ m'.1.length := by
  induction lits generalizing best with
  | nil =>
    exact ⟨.inl rfl, fun m hm => ⟨m, hm, Nat.le_refl _⟩, nofun⟩
  | cons lit lits ih =>
    obtain ⟨hfrom, hbest, hlits⟩ := ih (longerMatch text best lit)
    have hstep : (longerMatch text best lit = best ∨
        (lit.1 <+: text ∧ longerMatch text best lit = some lit)) ∧
        (∀ m, best = some m → ∃ m', longerMatch text best lit = some m' ∧
          m.1.length ≤ m'.1.length) ∧
        (lit.1 <+: text → ∃ m', longerMatch text best lit = some m' ∧
          lit.1.length ≤ m'.1.length) := by
      unfold longerMatch
      split
      · rename_i hif
        refine ⟨.inr ⟨hif.1, rfl⟩, fun m hm => ⟨lit, rfl, ?_⟩, fun _ => ⟨lit, rfl, Nat.le_refl _⟩⟩
        rw [hm] at hif
        exact Nat.le_of_lt (of_decide_eq_true hif.2)
      · rename_i hif
        refine ⟨.inl rfl, fun m hm => ⟨m, hm, Nat.le_refl _⟩, fun hpre => ?_⟩
        cases hb : best with
        | none =>
          rw [hb] at hif
          exact absurd ⟨hpre, rfl⟩ hif
        | some m =>
          refine ⟨m, rfl, Nat.not_lt.1 fun hlt => hif ⟨hpre, ?_⟩⟩
          rw [hb]
          exact decide_eq_true hlt
    obtain ⟨hstep1, hstep2, hstep3⟩ := hstep
    rw [foldl_cons]
    refine ⟨?_, fun m hm => ?_, fun lit' hlit' hpre => ?_⟩
    · rcases hfrom with heq | ⟨m, hm, hpre, heq⟩
      · rw [heq]
        rcases hstep1 with hsame | ⟨hpre, hlit⟩
        · exact .inl hsame
        · exact .inr ⟨lit, mem_cons_self, hpre, hlit⟩
      · exact .inr ⟨m, mem_cons_of_mem _ hm, hpre, heq⟩
    · obtain ⟨m', hm', hle⟩ := hstep2 m hm
      obtain ⟨m'', hm'', hle'⟩ := hbest m' hm'
      exact ⟨m'', hm'', Nat.le_trans hle hle'⟩
    · rcases mem_cons.1 hlit' with rfl | hmem
      · obtain ⟨m', hm', hle⟩ := hstep3 hpre
        obtain ⟨m'', hm'', hle'⟩ := hbest m' hm'
        exact ⟨m'', hm'', Nat.le_trans hle hle'⟩
      · exact hlits lit' hmem hpre

variable {lits : List (List α × β)} {text : List α}

/-- A match is a literal that starts the text. -/
lemma longestMatch_mem {m : List α × β} (h : longestMatch lits text = some m) :
    m ∈ lits ∧ m.1 <+: text := by
  obtain ⟨hfrom, -, -⟩ := foldl_longerMatch lits text none
  rcases hfrom with hnone | ⟨m', hm', hpre, heq⟩
  · rw [longestMatch, hnone] at h
    cases h
  · rw [longestMatch, heq] at h
    cases h
    exact ⟨hm', hpre⟩

/-- Literals that do not start the text can be left out. -/
lemma longestMatch_filter {p : List α × β → Bool} (h : ∀ lit ∈ lits, lit.1 <+: text → p lit = true) :
    longestMatch (lits.filter p) text = longestMatch lits text := by
  unfold longestMatch
  generalize (none : Option (List α × β)) = best
  induction lits generalizing best with
  | nil => rfl
  | cons lit lits ih =>
    have hrest : ∀ lit' ∈ lits, lit'.1 <+: text → p lit' = true :=
      fun lit' hlit' => h lit' (mem_cons_of_mem _ hlit')
    by_cases hp : p lit = true
    · rw [filter_cons_of_pos hp, foldl_cons, foldl_cons]
      exact ih hrest _
    · rw [filter_cons_of_neg hp, foldl_cons]
      have hskip : longerMatch text best lit = best := by
        exact if_neg fun hif => hp (h lit mem_cons_self hif.1)
      rw [hskip]
      exact ih hrest _

end Lvllm
