/-!
# Sets of characters

A set is kept as its ranges of code points, from low to high, with a gap between
any two.  The ranges are part of what a set is: two sets with the same members
written by one rule have the same ranges, and the weight of a pattern is counted
by them.

Surrogate code points are no characters.  A set may cover them, and the
neighbours of the gap that they leave are next to each other when ranges are cut.
-/

namespace GraphWarden

/-- The code points from one to another, both included. -/
structure CodeRange where
  first : Nat
  last : Nat
deriving DecidableEq, Repr

namespace CodeRange

/-- Membership of a code point. -/
def has (r : CodeRange) (n : Nat) : Bool :=
  r.first ≤ n && n ≤ r.last

/-- The range between two code points, in either order. -/
def between (m n : Nat) : CodeRange :=
  ⟨min m n, max m n⟩

/-- What two ranges share, if anything. -/
def common? (r q : CodeRange) : Option CodeRange :=
  let first := max r.first q.first
  let last := min r.last q.last
  if first ≤ last then some ⟨first, last⟩ else none

end CodeRange

/-- The greatest code point. -/
def lastCode : Nat := 0x10FFFF

/-- The code point after one, past the surrogates. -/
def codeAfter (n : Nat) : Nat :=
  if n = 0xD7FF then 0xE000 else n + 1

/-- The code point before one, past the surrogates. -/
def codeBefore (n : Nat) : Nat :=
  if n = 0xE000 then 0xD7FF else n - 1

/-- A set of characters. -/
structure CharSet where
  ranges : List CodeRange
deriving DecidableEq, Repr

namespace CharSet

/-- The set of no character. -/
def empty : CharSet := ⟨[]⟩

/-- The set of every character. -/
def all : CharSet := ⟨[⟨0, lastCode⟩]⟩

/-- The set of one code point. -/
def single (n : Nat) : CharSet := ⟨[⟨n, n⟩]⟩

/-- Membership of a code point. -/
def has (s : CharSet) (n : Nat) : Bool :=
  s.ranges.any (·.has n)

/-- Whether every member is an ASCII character. -/
def isAscii (s : CharSet) : Bool :=
  s.ranges.all fun r => r.last < 0x80

/-- Put a range in front of ranges that begin no earlier, joined to those it meets. -/
def joinOnto (r : CodeRange) : List CodeRange → List CodeRange
  | [] => [r]
  | q :: qs =>
    if q.first ≤ r.last + 1 then joinOnto ⟨r.first, max r.last q.last⟩ qs
    else r :: joinOnto q qs

/-- The set that ranges in any order cover. -/
def ofRanges (rs : List CodeRange) : CharSet :=
  match rs.mergeSort fun r q => r.first ≤ q.first with
  | [] => empty
  | r :: rest => ⟨joinOnto r rest⟩

/-- The set of the listed code points. -/
def ofCodes (ns : List Nat) : CharSet :=
  ofRanges (ns.map fun n => ⟨n, n⟩)

/-- The members of either set. -/
def union (a b : CharSet) : CharSet :=
  ofRanges (a.ranges ++ b.ranges)

/-- The members of any of the sets. -/
def unionAll (sets : List CharSet) : CharSet :=
  ofRanges (sets.flatMap ranges)

/-- The members of both sets. -/
def inter (a b : CharSet) : CharSet :=
  ⟨a.ranges.flatMap fun r => b.ranges.filterMap r.common?⟩

/-- What is left of a range when the ranges of a set are cut out of it. -/
def cut (r : CodeRange) : List CodeRange → List CodeRange
  | [] => [r]
  | q :: qs =>
    if q.last < r.first ∨ r.last < q.first then cut r qs
    else
      (if r.first < q.first then [⟨r.first, codeBefore q.first⟩] else [])
        ++ if q.last < r.last then cut ⟨codeAfter q.last, r.last⟩ qs else []

/-- The members of the first set that are not in the second. -/
def diff (a b : CharSet) : CharSet :=
  ⟨a.ranges.flatMap fun r => cut r b.ranges⟩

/-- The members of exactly one of the sets. -/
def symmetricDiff (a b : CharSet) : CharSet :=
  (a.union b).diff (a.inter b)

/-- The ranges after each of the given ones, up to the next. -/
def gapsAfter (r : CodeRange) : List CodeRange → List CodeRange
  | [] => if r.last < lastCode then [⟨codeAfter r.last, lastCode⟩] else []
  | q :: qs => .between (codeAfter r.last) (codeBefore q.first) :: gapsAfter q qs

/-- The characters outside a set.  Two ranges with nothing but the surrogates
between them are taken to leave out the two characters there. -/
def complement (s : CharSet) : CharSet :=
  match s.ranges with
  | [] => all
  | r :: rest =>
    ⟨(if 0 < r.first then [⟨0, codeBefore r.first⟩] else []) ++ gapsAfter r rest⟩

/-- A set, or the characters outside it. -/
def complementIf (negated : Bool) (s : CharSet) : CharSet :=
  if negated then s.complement else s

end CharSet

end GraphWarden
