import GraphWarden.CharSet.Property
import GraphWarden.Pattern.Meaning

/-!
# Finding a pattern

Only one question is asked of a pattern: whether a text contains a match.  So
captures and whether a repetition takes as much or as little as it can play no
part.

`reach` answers the question for places: it takes the places in a text where a
match may start to the places where it may end.  Places are rising lists.  A match
never goes back, so repeating a part more often than the text is long only adds
matches of nothing.
-/

namespace GraphWarden.Pattern

/-- Whether a character, where there is one, belongs to a word. -/
def inWord (unicode : Bool) (c : Option Char) : Bool :=
  c.any fun c => (if unicode then CharSet.word else asciiWord).has c.toNat

/-- Whether a condition on words holds between two neighbouring characters. -/
def WordLook.holds (look : WordLook) (before after : Bool) : Bool :=
  match look with
  | .edge => before != after
  | .notEdge => before == after
  | .start => !before && after
  | .finish => before && !after
  | .startHalf => !before
  | .finishHalf => !after

/-- Whether a condition holds between two neighbouring characters, where the
text's ends have none.  A line end of two characters has no line end inside. -/
def Look.holds (look : Look) (before after : Option Char) : Bool :=
  match look with
  | .textStart => before.isNone
  | .textEnd => after.isNone
  | .lineStart false => before.isNone || before == some '\n'
  | .lineEnd false => after.isNone || after == some '\n'
  | .lineStart true =>
    before.isNone || before == some '\n' || (before == some '\r' && after != some '\n')
  | .lineEnd true =>
    after.isNone || after == some '\r' || (after == some '\n' && before != some '\r')
  | .word look unicode => look.holds (inWord unicode before) (inWord unicode after)

/-- Sets of places in a text, as rising lists. -/
abbrev Places := List Nat

/-- The places of either list. -/
def Places.merge (ps qs : Places) : Places :=
  match ps, qs with
  | [], qs => qs
  | ps, [] => ps
  | p :: ps, q :: qs =>
    if p < q then p :: Places.merge ps (q :: qs)
    else if q < p then q :: Places.merge (p :: ps) qs
    else p :: Places.merge ps qs
termination_by ps.length + qs.length

/-- The places of the first list that are not in the second. -/
def Places.without (ps qs : Places) : Places :=
  match ps, qs with
  | [], _ => []
  | ps, [] => ps
  | p :: ps, q :: qs =>
    if p < q then p :: Places.without ps (q :: qs)
    else if q < p then Places.without (p :: ps) qs
    else Places.without ps qs
termination_by ps.length + qs.length

/-- Take a step exactly so many times. -/
def times (step : Places → Places) : Nat → Places → Places
  | 0, ps => ps
  | n + 1, ps => if ps.isEmpty then ps else times step n (step ps)

/-- Take a step up to so many times more from the places that were new, among all
that have been reached. -/
def spread (step : Places → Places) : Nat → (new reached : Places) → Places
  | 0, _, reached => reached
  | n + 1, new, reached =>
    let next := (step new).without reached
    if next.isEmpty then reached else spread step n next (reached.merge next)

/-- Step over a character that fulfils a condition. -/
def stepOver (text : Array Char) (ok : Char → Bool) (ps : Places) : Places :=
  (ps.filter fun p => text[p]?.any ok).map (· + 1)

mutual

/-- Where matches of an expression that start at the given places may end. -/
def reach (text : Array Char) : Expr → Places → Places
  | .empty, ps => ps
  | .text cs, ps => cs.foldl (fun ps c => stepOver text (· == c) ps) ps
  | .set s, ps => stepOver text (fun c => s.has c.toNat) ps
  | .look l, ps =>
    ps.filter fun p => l.holds (if p = 0 then none else text[p - 1]?) text[p]?
  | .repetition least most _ body, ps =>
    let enough := text.size + 1
    let start := times (reach text body) (min least enough) ps
    let more :=
      match most with
      | some most => min (most - least) enough
      | none => enough
    spread (reach text body) more start start
  | .capture _ body, ps => reach text body ps
  | .sequence items, ps => reachAfter text items ps
  | .choice arms, ps => reachAny text arms ps

def reachAfter (text : Array Char) : List Expr → Places → Places
  | [], ps => ps
  | e :: es, ps => reachAfter text es (reach text e ps)

def reachAny (text : Array Char) : List Expr → Places → Places
  | [], _ => []
  | e :: es, ps => (reach text e ps).merge (reachAny text es ps)

end

/-- Whether a text contains a match. -/
def Expr.foundIn (e : Expr) (s : String) : Bool :=
  let text := s.toList.toArray
  !(reach text e (List.range (text.size + 1))).isEmpty

end GraphWarden.Pattern
