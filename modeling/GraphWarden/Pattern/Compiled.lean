import GraphWarden.Pattern.Match
import GraphWarden.Pattern.Reader
import GraphWarden.Pattern.Room

/-!
# Compiled patterns

A pattern is kept as it was written, together with its reading.  The type carries
the fact that the one is the reading of the other.
-/

namespace GraphWarden

/-- The regular expression that a pattern's text writes, if it takes no more room
than it may. -/
def Pattern.read (source : String) : Except Pattern.Cause Pattern.Expr := do
  let expr ← Pattern.Expr.ofTree? (← Pattern.Tree.ofSource? source)
  if expr.fits then return expr else .error .tooLarge

/-- A pattern that can be looked for. -/
structure Pattern where
  source : String
  expr : Pattern.Expr
  read_source : Pattern.read source = .ok expr

namespace Pattern

/-- The pattern that a text writes. -/
def ofSource? (source : String) : Except Cause Pattern :=
  match h : read source with
  | .ok expr => .ok ⟨source, expr, h⟩
  | .error cause => .error cause

/-- Whether the pattern is found somewhere in a text. -/
def foundIn (p : Pattern) (s : String) : Bool :=
  p.expr.foundIn s

end Pattern

end GraphWarden
