import Mathlib.Data.List.Basic

/-!
# Streams of chunks and marks

A stream of pieces: chunks, which carry a part of a text under a key, and marks.  `merge` joins
adjacent chunks under the same key and drops empty ones, so that two streams with the same merge
differ only in how their text is cut.
-/

namespace Lvllm

open List

/-- A chunk of a text under a key, or a mark. -/
inductive Piece (κ β α : Type*) where
  | chunk (key : κ) (value : List α)
  | mark (b : β)
  deriving DecidableEq, Repr

namespace Piece

variable {κ β α : Type*} [DecidableEq κ]

/-- A piece in front of others: an empty chunk is dropped, and a chunk joins one with the same
key. -/
def push : Piece κ β α → List (Piece κ β α) → List (Piece κ β α)
  | .mark b, ps => .mark b :: ps
  | .chunk _ [], ps => ps
  | .chunk key (a :: v), .chunk key' w :: ps =>
    if key = key' then .chunk key (a :: v ++ w) :: ps else .chunk key (a :: v) :: .chunk key' w :: ps
  | .chunk key (a :: v), ps => .chunk key (a :: v) :: ps

/-- Adjacent chunks under the same key joined, and empty ones dropped. -/
def merge (ps : List (Piece κ β α)) : List (Piece κ β α) := ps.foldr push []

/-- The text of a piece, with that of the marks given. -/
def text (f : β → List α) : Piece κ β α → List α
  | .chunk _ v => v
  | .mark b => f b

end Piece

end Lvllm
