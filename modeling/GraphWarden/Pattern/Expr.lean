import GraphWarden.CharSet.Utf8

/-!
# Regular expressions

A regular expression is what a pattern means once its flags have been applied:
texts, sets, conditions on a place, repetitions, captures, sequences and choices.

Expressions are built simplified.  A sequence holds no sequence and nothing
empty, and neighbouring texts are one; a choice holds no choice, a choice between
single characters or sets is a set, and what all arms begin with is put in front.
How an expression is simplified decides how much room it takes, so the
constructors below are exact about it.  The set without characters is the
expression that matches nothing.
-/

namespace GraphWarden.Pattern

/-- Conditions on a place that depend on the words around it. -/
inductive WordLook where
  | edge
  | notEdge
  | start
  | finish
  | startHalf
  | finishHalf
deriving DecidableEq, Repr

/-- Conditions on a place in a text.  Lines may end at line feeds alone, or at
carriage returns too; words may be told by ASCII characters alone. -/
inductive Look where
  | textStart
  | textEnd
  | lineStart (carriageReturns : Bool)
  | lineEnd (carriageReturns : Bool)
  | word (look : WordLook) (unicode : Bool)
deriving DecidableEq, Repr

/-- A regular expression. -/
inductive Expr where
  | empty
  | text (cs : List Char)
  | set (s : CharSet)
  | look (l : Look)
  /-- At least `least` times, at most `most` times if there is a bound. -/
  | repetition (least : Nat) (most : Option Nat) (lazy : Bool) (body : Expr)
  | capture (index : Nat) (body : Expr)
  | sequence (items : List Expr)
  | choice (arms : List Expr)
deriving BEq

/-- What is known of the matches of an expression. -/
structure Shape where
  /-- The fewest bytes, unless there may be no match. -/
  least : Option Nat
  /-- The most bytes, unless there is no bound. -/
  most : Option Nat
  /-- Whether all begin at the start of the text. -/
  fromStart : Bool
  /-- Whether all end at the end of the text. -/
  toEnd : Bool
deriving DecidableEq, Repr

namespace Shape

/-- Matches of so many bytes. -/
def width (n : Nat) : Shape := ⟨some n, some n, false, false⟩

/-- Whether one of the parts begins at the start with nothing but empty ones before. -/
def leadFromStart : List Shape → Bool
  | [] => false
  | s :: rest => s.fromStart || (s.most == some 0 && leadFromStart rest)

/-- Whether one of the parts ends at the end, the last part first. -/
def leadToEnd : List Shape → Bool
  | [] => false
  | s :: rest => s.toEnd || (s.most == some 0 && leadToEnd rest)

/-- One part after the other. -/
def inSequence (shapes : List Shape) : Shape where
  least := (shapes.mapM least).map fun ns => ns.foldl (· + ·) 0
  most := (shapes.mapM most).map fun ns => ns.foldl (· + ·) 0
  fromStart := leadFromStart shapes
  toEnd := leadToEnd shapes.reverse

/-- One part or the other. -/
def inChoice (shapes : List Shape) : Shape where
  least := (shapes.mapM least).bind List.min?
  most := (shapes.mapM most).bind List.max?
  fromStart := shapes.all fromStart
  toEnd := shapes.all toEnd

/-- A part so many times. -/
def repeated (s : Shape) (least : Nat) (most : Option Nat) : Shape where
  least := s.least.map (least * ·)
  most := do return (← most) * (← s.most)
  fromStart := 0 < least && s.fromStart
  toEnd := 0 < least && s.toEnd

end Shape

namespace Expr

mutual

/-- What is known of the matches of an expression. -/
def shape : Expr → Shape
  | .empty => .width 0
  | .text cs => .width (cs.foldl (fun n c => n + codeWidth c.toNat) 0)
  | .set s =>
    ⟨s.ranges.head?.map fun r => codeWidth r.first,
      s.ranges.getLast?.map fun r => codeWidth r.last, false, false⟩
  | .look l => ⟨some 0, some 0, l = .textStart, l = .textEnd⟩
  | .repetition least most _ body => body.shape.repeated least most
  | .capture _ body => body.shape
  | .sequence items => .inSequence (shapes items)
  | .choice arms => .inChoice (shapes arms)

def shapes : List Expr → List Shape
  | [] => []
  | e :: es => e.shape :: shapes es

end

/-- The expression of a set. -/
def ofSet (s : CharSet) : Expr :=
  match s.ranges with
  | [r] => if r.first = r.last then .text [Char.ofNat r.first] else .set s
  | _ => .set s

/-- An expression so many times.  What is empty wherever it matches is not needed
more than once. -/
def repeated (least : Nat) (most : Option Nat) (lazy : Bool) (body : Expr) : Expr :=
  let (least, most) :=
    if body.shape.most = some 0 then (min least 1, some (min (most.getD 1) 1)) else (least, most)
  if most = some 0 then .empty
  else if least = 1 ∧ most = some 1 then body
  else .repetition least most lazy body

/-- Put an expression in front of others, joined to a text that they begin with. -/
def prepend : Expr → List Expr → List Expr
  | .text a, .text b :: rest => .text (a ++ b) :: rest
  | e, rest => e :: rest

/-- One expression after the other. -/
def inSequence (items : List Expr) : Expr :=
  let parts : Expr → List Expr
    | .empty => []
    | .sequence items => items
    | e => [e]
  match (items.flatMap parts).foldr prepend [] with
  | [] => .empty
  | [e] => e
  | items => .sequence items

/-- The arms of a choice, with those of choices among them. -/
def flatArms (arms : List Expr) : List Expr :=
  arms.flatMap fun
    | .choice arms => arms
    | e => [e]

/-- The code point of an expression that is one character. -/
def code? : Expr → Option Nat
  | .text [c] => some c.toNat
  | _ => none

/-- The set of an expression that is one. -/
def set? : Expr → Option CharSet
  | .set s => some s
  | _ => none

/-- The parts of an expression that is a sequence. -/
def sequence? : Expr → Option (List Expr)
  | .sequence items => some items
  | _ => none

/-- One of the arms, whatever they begin with. -/
def oneOf (arms : List Expr) : Expr :=
  match arms with
  | [] => .set .empty
  | [e] => e
  | arms =>
    match arms.mapM code?, arms.mapM set? with
    | some codes, _ => ofSet (.ofCodes codes)
    | _, some sets => ofSet (.unionAll sets)
    | _, _ => .choice arms

/-- What two lists begin with alike. -/
def commonLead : List Expr → List Expr → List Expr
  | x :: xs, y :: ys => if x == y then x :: commonLead xs ys else []
  | _, _ => []

/-- One expression or the other.  What sequences begin with alike goes in front. -/
def inChoice (arms : List Expr) : Expr :=
  let arms := flatArms arms
  match arms.mapM sequence? with
  | some (first :: second :: rest) =>
    let lead := (second :: rest).foldl commonLead first
    if lead.isEmpty then oneOf arms
    else
      let rests := (first :: second :: rest).map fun items => inSequence (items.drop lead.length)
      inSequence (lead ++ [oneOf (flatArms rests)])
  | _ => oneOf arms

end Expr

end GraphWarden.Pattern
