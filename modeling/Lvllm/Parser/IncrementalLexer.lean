import Lvllm.Foundation.Literals
import Lvllm.Foundation.Search
import Mathlib.Algebra.BigOperators.Group.List.Basic
import Mathlib.Algebra.GroupWithZero.Nat
import Mathlib.Data.List.Sort

/-!
# The incremental lexer

`IncrementalLexer` of `vllm/parser/engine/incremental_lexer.py`: a text that arrives in chunks is
cut into terminal tokens.  What may still become a longer literal is held back in a buffer.  Each
character of the buffer has a count of model tokens that start at it, and a lexer token sums the
counts of its characters.

Texts are lists of characters and terminal names are arbitrary.  What the source precomputes from
the terminals is a definition over them here.  Terminals that are not literals are carried along,
but the lexer never matches their pattern; only its length is read, when the terminals are sorted.
-/

namespace Lvllm

open List

/-- `TerminalDef`; a literal is not empty. -/
structure TerminalDef (N : Type) where
  name : N
  /-- The text of the pattern. -/
  pattern : List Char
  isLiteral : Bool
  literal : List Char
  literal_ne : isLiteral = true → literal ≠ []

/-- `LexToken`. -/
structure LexToken (N : Type) where
  terminal : N
  value : List Char
  tokenCount : ℕ := 0

/-- `LexerShape`: the terminals in the order in which they are tried. -/
structure LexerShape (N : Type) where
  terminals : List (TerminalDef N)

namespace LexerShape

variable {N : Type}

/-- The order of the terminals: literals first, then longer patterns. -/
def precedes (s t : TerminalDef N) : Bool :=
  (s.isLiteral && !t.isLiteral) ||
    (s.isLiteral == t.isLiteral && decide (t.pattern.length ≤ s.pattern.length))

/-- `LexerShape.__init__`. -/
def new (terminals : List (TerminalDef N)) : LexerShape N :=
  ⟨terminals.insertionSort fun s t => precedes s t = true⟩

/-- `literal_strings`. -/
def literalStrings (s : LexerShape N) : List (List Char × N) :=
  (s.terminals.filter TerminalDef.isLiteral).map fun t => (t.literal, t.name)

/-- `literal_first_chars`. -/
def literalFirstChars (s : LexerShape N) : List Char :=
  s.literalStrings.filterMap fun lit => lit.1.head?

/-- `has_only_literals`. -/
def hasOnlyLiterals (s : LexerShape N) : Bool := s.terminals.all TerminalDef.isLiteral

/-- `prefix_set`: the literals cut short. -/
def shortened (s : LexerShape N) : List (List Char) :=
  s.literalStrings.flatMap fun lit => (List.range' 1 (lit.1.length - 1)).map fun i => lit.1.take i

/-- `literals_by_first`. -/
def literalsByFirst (s : LexerShape N) (first : Char) : List (List Char × N) :=
  s.literalStrings.filter fun lit => lit.1.head? = some first

lemma literalStrings_ne (s : LexerShape N) {lit : List Char × N} (h : lit ∈ s.literalStrings) :
    lit.1 ≠ [] := by
  obtain ⟨t, ht, rfl⟩ := mem_map.1 h
  exact t.literal_ne (mem_filter.1 ht).2

end LexerShape

/-- `IncrementalLexer`. -/
structure IncrementalLexer (N : Type) where
  shape : LexerShape N
  contentTerminal : N
  buffer : List Char
  tokenCounts : List ℕ

namespace IncrementalLexer

variable {N : Type}

/-- A new lexer. -/
def init (shape : LexerShape N) (contentTerminal : N) : IncrementalLexer N :=
  ⟨shape, contentTerminal, [], []⟩

/-- The first characters of the buffer as a token, with `_pop_token_count`. -/
def take (l : IncrementalLexer N) (terminal : N) (value : List Char) (length : ℕ) :
    LexToken N × IncrementalLexer N :=
  (⟨terminal, value, (l.tokenCounts.take length).sum⟩,
    { l with buffer := l.buffer.drop length, tokenCounts := l.tokenCounts.drop length })

/-- The longest literal at the start of the buffer. -/
def bestMatch (l : IncrementalLexer N) : Option (List Char × N) :=
  match l.buffer with
  | [] => none
  | first :: _ => longestMatch (l.shape.literalsByFirst first) l.buffer

/-- Whether the buffer starts a literal that is longer than a match. -/
def hasLongerMatch (l : IncrementalLexer N) (length : ℕ) : Bool :=
  match l.buffer with
  | [] => false
  | first :: _ => (l.shape.literalsByFirst first).any fun lit =>
      decide (length < lit.1.length) && decide (l.buffer <+: lit.1)

/-- Whether a literal may start at a position of the buffer. -/
def mayStartAt (l : IncrementalLexer N) (i : ℕ) : Bool :=
  (l.buffer[i]?).any (fun ch => decide (ch ∈ l.shape.literalFirstChars)) &&
    l.shape.literalStrings.any fun lit =>
      let checkLen := min (l.buffer.length - i) lit.1.length
      decide ((l.buffer.drop i).take checkLen = lit.1.take checkLen)

/-- `_find_content_boundary`. -/
def findContentBoundary (l : IncrementalLexer N) : ℕ :=
  ((List.range' 1 (l.buffer.length - 1)).find? l.mayStartAt).getD l.buffer.length

/-- Whether no character of a text starts a literal; asked only if all terminals are literals. -/
def isPlain (s : LexerShape N) (text : List Char) : Bool :=
  s.hasOnlyLiterals && !s.literalFirstChars.isEmpty &&
    text.all fun ch => decide (ch ∉ s.literalFirstChars)

/-- One round of the loop of `_drain`: the token it appends, or nothing if it stops to hold the
buffer back. -/
def drainStep (final : Bool) (l : IncrementalLexer N) :
    Option (LexToken N × IncrementalLexer N) :=
  if isPlain l.shape l.buffer then
    some (⟨l.contentTerminal, l.buffer, l.tokenCounts.sum⟩,
      { l with buffer := [], tokenCounts := [] })
  else if l.buffer ∈ l.shape.shortened ∧ final = false then
    match l.bestMatch with
    | some m => if l.hasLongerMatch m.1.length then none else some (l.take m.2 m.1 m.1.length)
    | none => none
  else
    match l.bestMatch with
    | some m => some (l.take m.2 m.1 m.1.length)
    | none =>
      let contentEnd := l.findContentBoundary
      if 0 < contentEnd then
        some (l.take l.contentTerminal (l.buffer.take contentEnd) contentEnd)
      else some (l.take l.contentTerminal (l.buffer.take 1) 1)

variable {l : IncrementalLexer N} {final : Bool}

/-- The match of the buffer is that of all literals. -/
lemma bestMatch_eq (h : l.buffer ≠ []) :
    l.bestMatch = longestMatch l.shape.literalStrings l.buffer := by
  unfold bestMatch
  cases hbuffer : l.buffer with
  | nil => exact absurd hbuffer h
  | cons first rest =>
    dsimp only
    refine longestMatch_filter fun lit hlit hpre => ?_
    have hne := l.shape.literalStrings_ne hlit
    cases hchars : lit.1 with
    | nil => exact absurd hchars hne
    | cons c chars =>
      rw [hchars] at hpre
      rw [(cons_prefix_cons.1 hpre).1]
      exact decide_eq_true rfl

lemma bestMatch_ne {m : List Char × N} (h : l.bestMatch = some m) :
    m ∈ l.shape.literalStrings ∧ m.1 ≠ [] ∧ m.1 <+: l.buffer := by
  have hne : l.buffer ≠ [] := by
    intro hnil
    rw [bestMatch, hnil] at h
    cases h
  rw [bestMatch_eq hne] at h
  obtain ⟨hmem, hpre⟩ := longestMatch_mem h
  exact ⟨hmem, l.shape.literalStrings_ne hmem, hpre⟩

/-- What a round can do: the buffer is plain, a literal starts it, or a stretch of it is content. -/
inductive Round (final : Bool) (l : IncrementalLexer N) :
    LexToken N → IncrementalLexer N → Prop
  | plain (h : isPlain l.shape l.buffer = true) :
      Round final l ⟨l.contentTerminal, l.buffer, l.tokenCounts.sum⟩
        { l with buffer := [], tokenCounts := [] }
  | literal {m : List Char × N} (hm : l.bestMatch = some m)
      (h : l.buffer ∉ l.shape.shortened ∨ final = true ∨ l.hasLongerMatch m.1.length = false) :
      Round final l (l.take m.2 m.1 m.1.length).1 (l.take m.2 m.1 m.1.length).2
  | content {n : ℕ} (hm : l.bestMatch = none) (h : l.buffer ∉ l.shape.shortened ∨ final = true)
      (hpos : 0 < n) (hn : n = l.findContentBoundary ∨ n = 1) :
      Round final l (l.take l.contentTerminal (l.buffer.take n) n).1
        (l.take l.contentTerminal (l.buffer.take n) n).2

lemma drainStep_cases {l' : IncrementalLexer N} {t : LexToken N}
    (h : drainStep final l = some (t, l')) : Round final l t l' := by
  unfold drainStep at h
  split at h
  · rename_i hplain
    cases h
    exact .plain hplain
  · split at h
    · rename_i hheld
      cases hm : l.bestMatch with
      | none =>
        rw [hm] at h
        cases h
      | some m =>
        rw [hm] at h
        dsimp only at h
        split at h
        · cases h
        · rename_i hlonger
          cases h
          exact .literal hm (.inr (.inr (Bool.eq_false_iff.2 hlonger)))
    · rename_i hheld
      have hfree : l.buffer ∉ l.shape.shortened ∨ final = true := by
        by_cases hmem : l.buffer ∈ l.shape.shortened
        · refine .inr ?_
          cases final with
          | true => rfl
          | false => exact absurd ⟨hmem, rfl⟩ hheld
        · exact .inl hmem
      cases hm : l.bestMatch with
      | none =>
        rw [hm] at h
        dsimp only at h
        split at h
        · rename_i hpos
          cases h
          exact .content hm hfree hpos (.inl rfl)
        · cases h
          exact .content hm hfree Nat.one_pos (.inr rfl)
      | some m =>
        rw [hm] at h
        cases h
        exact .literal hm (hfree.imp_right .inl)

lemma drainStep_lt (hne : l.buffer ≠ []) {p : LexToken N × IncrementalLexer N}
    (h : drainStep final l = some p) :
    p.2.buffer.length < l.buffer.length := by
  have hpos := length_pos_of_ne_nil hne
  obtain ⟨t, l'⟩ := p
  cases drainStep_cases h with
  | plain => exact hpos
  | literal hm =>
    have hlit := length_pos_of_ne_nil (bestMatch_ne hm).2.1
    show (l.buffer.drop _).length < _
    rw [length_drop]
    omega
  | content hm hfree hn =>
    show (l.buffer.drop _).length < _
    rw [length_drop]
    omega

/-- `_drain`. -/
def drain (final : Bool) (l : IncrementalLexer N) : List (LexToken N) × IncrementalLexer N :=
  if hne : l.buffer = [] then ([], l)
  else
    match hstep : drainStep final l with
    | none => ([], l)
    | some (t, l') =>
      let (tokens, l'') := drain final l'
      (t :: tokens, l'')
termination_by l.buffer.length
decreasing_by exact drainStep_lt hne hstep

/-- `flush`. -/
def flush (l : IncrementalLexer N) : List (LexToken N) × IncrementalLexer N :=
  let (tokens, l) := if l.buffer = [] then ([], l) else drain true l
  if l.buffer = [] then (tokens, l)
  else (tokens ++ [⟨l.contentTerminal, l.buffer, l.tokenCounts.sum⟩],
    { l with buffer := [], tokenCounts := [] })

end IncrementalLexer

end Lvllm
