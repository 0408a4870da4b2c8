/-!
# Patterns as they are written

A tree holds what a pattern writes, before its flags are applied: a group around
single items is kept, and so is every flag where it stands.  Sets in brackets are
trees of their own.

A pattern nests when a repetition, a group, alternatives, a sequence or a set in
brackets stands inside another.  How deep a pattern may nest is limited.
-/

namespace GraphWarden.Pattern

/-- A character as a pattern writes it: plainly, escaped or by its number.  A
number of two digits is a byte where Unicode is switched off. -/
structure Literal where
  char : Char
  isByte : Bool
deriving DecidableEq, Repr

/-- A literal that is written as itself. -/
def Literal.plain (c : Char) : Literal := ⟨c, false⟩

/-- Sets with an escape of one letter. -/
inductive Shorthand where
  | digit
  | space
  | word
deriving DecidableEq, Repr

/-- Sets of ASCII characters with a name inside brackets. -/
inductive AsciiClass where
  | alnum
  | alpha
  | ascii
  | blank
  | cntrl
  | digit
  | graph
  | lower
  | print
  | punct
  | space
  | upper
  | word
  | xdigit
deriving DecidableEq, Repr

/-- A set asked for by name. -/
inductive Query where
  | named (name : List Char)
  | valued (property value : List Char)
deriving DecidableEq, Repr

/-- Operators between the parts of a set in brackets. -/
inductive SetOperator where
  | inter
  | diff
  | symmetricDiff
deriving DecidableEq, Repr

/-- A set in brackets. -/
inductive SetTree where
  | nothing
  | literal (c : Literal)
  | range (first last : Literal)
  | ascii (kind : AsciiClass) (negated : Bool)
  | shorthand (kind : Shorthand) (negated : Bool)
  | query (q : Query) (negated : Bool)
  | bracket (negated : Bool) (body : SetTree)
  | union (parts : List SetTree)
  | operation (op : SetOperator) (left right : SetTree)

/-- Conditions on a place in a text. -/
inductive Assertion where
  | caret
  | dollar
  | textStart
  | textEnd
  | wordEdge
  | notWordEdge
  | wordStart
  | wordEnd
  | wordStartHalf
  | wordEndHalf
deriving DecidableEq, Repr

/-- The flags of a pattern. -/
inductive Flag where
  | caseless
  | multiline
  | dotAll
  | swapGreed
  | unicode
  | carriageReturns
  | verbose
deriving DecidableEq, Repr

/-- Flags switched on or off. -/
abbrev FlagChanges := List (Flag × Bool)

/-- A pattern. -/
inductive Tree where
  | empty
  /-- Flags for the rest of the group around them. -/
  | flags (changes : FlagChanges)
  | literal (c : Literal)
  | dot
  | assertion (a : Assertion)
  | shorthand (kind : Shorthand) (negated : Bool)
  | query (q : Query) (negated : Bool)
  | bracket (negated : Bool) (body : SetTree)
  /-- At least `least` times, at most `most` times if there is a bound. -/
  | repetition (least : Nat) (most : Option Nat) (lazy : Bool) (body : Tree)
  /-- A group that captures, by its number from the left. -/
  | capture (index : Nat) (body : Tree)
  /-- A group that only changes flags. -/
  | scope (changes : FlagChanges) (body : Tree)
  | alternatives (arms : List Tree)
  | sequence (items : List Tree)

/-- How deep a pattern may nest. -/
def depthLimit : Nat := 250

mutual

/-- Whether a set nests at most so deep. -/
def SetTree.within (depth : Nat) : SetTree → Bool
  | .bracket _ body => 0 < depth && body.within (depth - 1)
  | .union parts => 0 < depth && SetTree.allWithin (depth - 1) parts
  | .operation _ left right =>
    0 < depth && left.within (depth - 1) && right.within (depth - 1)
  | _ => true

def SetTree.allWithin (depth : Nat) : List SetTree → Bool
  | [] => true
  | part :: parts => part.within depth && SetTree.allWithin depth parts

end

mutual

/-- Whether a pattern nests at most so deep. -/
def Tree.within (depth : Nat) : Tree → Bool
  | .bracket _ body => 0 < depth && body.within (depth - 1)
  | .repetition _ _ _ body => 0 < depth && body.within (depth - 1)
  | .capture _ body => 0 < depth && body.within (depth - 1)
  | .scope _ body => 0 < depth && body.within (depth - 1)
  | .alternatives arms => 0 < depth && Tree.allWithin (depth - 1) arms
  | .sequence items => 0 < depth && Tree.allWithin (depth - 1) items
  | _ => true

def Tree.allWithin (depth : Nat) : List Tree → Bool
  | [] => true
  | item :: items => item.within depth && Tree.allWithin depth items

end

end GraphWarden.Pattern
