import GraphWarden.Graphql.Token

/-!
# Bracketed words

Brackets come in pairs and nest, so the words of a text form a forest: a word
stands alone, or it is a pair of brackets with what stands between them.  Reading
the forest first means that everything later recurs on its structure.
-/

namespace GraphWarden.Graphql

/-- How deep brackets may nest. -/
def nestingLimit : Nat := 50

/-- A word that is no bracket, or what stands between two brackets. -/
inductive Tree where
  | leaf (t : Token)
  | group (b : Bracket) (items : List Tree)

/-- The forest of some words.  `outer` lists the brackets that were opened, the
innermost first, each with the trees before it; `done` lists the trees since then.
Both run from right to left. -/
def forestFrom (outer : List (Bracket × List Tree)) (done : List Tree) :
    List Token → Option (List Tree)
  | [] => if outer.isEmpty then some done.reverse else none
  | .opening b :: rest =>
    if outer.length < nestingLimit then forestFrom ((b, done) :: outer) [] rest else none
  | .closing b :: rest =>
    match outer with
    | [] => none
    | (a, before) :: outer =>
      if a = b then forestFrom outer (.group b done.reverse :: before) rest else none
  | t :: rest => forestFrom outer (.leaf t :: done) rest

/-- The forest of some words; `none` when brackets do not match or nest too deep. -/
def forest? (tokens : List Token) : Option (List Tree) :=
  forestFrom [] [] tokens

/-- The forest of a text. -/
def read? (s : String) : Option (List Tree) :=
  (tokens? s.toList).bind forest?

/-- A reader of something at the front of a list of trees. -/
abbrev Reads (α : Type) := List Tree → Option (α × List Tree)

/-- Read as often as it takes to use up all trees, of which there are at most
`fuel`. -/
def everyWithin {α : Type} (item : Reads α) : (fuel : Nat) → List Tree → Option (List α)
  | _, [] => some []
  | 0, _ :: _ => none
  | fuel + 1, t :: ts => do
    let (x, rest) ← item (t :: ts)
    let xs ← everyWithin item fuel rest
    some (x :: xs)

/-- Read as often as it takes to use up all trees. -/
def every {α : Type} (item : Reads α) (ts : List Tree) : Option (List α) :=
  everyWithin item ts.length ts

/-- Read as often as it takes to use up all trees, and at least once. -/
def everyOne {α : Type} (item : Reads α) : List Tree → Option (List α)
  | [] => none
  | t :: ts => every item (t :: ts)

end GraphWarden.Graphql
