import GraphWarden.CharSet.Basic

/-!
# Sets of characters as sequences of bytes

In UTF-8 a character takes one to four bytes.  A range of characters is split
into ranges whose bytes vary independently of each other: first where the number
of bytes changes, then where the last bytes do not run through all they can.  Such
a range is a sequence of ranges of bytes.
-/

namespace GraphWarden

/-- The number of bytes of a code point. -/
def codeWidth (n : Nat) : Nat :=
  if n < 0x80 then 1 else if n < 0x800 then 2 else if n < 0x10000 then 3 else 4

/-- The bytes of a code point. -/
def codeBytes (n : Nat) : List Nat :=
  let trail (shift : Nat) : Nat := 0x80 + (n >>> shift) % 0x40
  match codeWidth n with
  | 1 => [n]
  | 2 => [0xC0 + (n >>> 6), trail 0]
  | 3 => [0xE0 + (n >>> 12), trail 6, trail 0]
  | _ => [0xF0 + (n >>> 18), trail 12, trail 6, trail 0]

namespace CodeRange

/-- The characters of a range by their number of bytes. -/
def byWidth (r : CodeRange) : List CodeRange :=
  [⟨0, 0x7F⟩, ⟨0x80, 0x7FF⟩, ⟨0x800, 0xD7FF⟩, ⟨0xE000, 0xFFFF⟩, ⟨0x10000, lastCode⟩].filterMap
    r.common?

/-- Split a range of one width at multiples of the units, which grow: what stands
before the first multiple and after the last is split off, unless nothing remains. -/
def aligned (r : CodeRange) : List Nat → List CodeRange
  | [] => [r]
  | unit :: units =>
    if r.first / unit = r.last / unit then [r]
    else
      let head := if r.first % unit = 0 then [] else [⟨r.first, r.first / unit * unit + (unit - 1)⟩]
      let first := if r.first % unit = 0 then r.first else (r.first / unit + 1) * unit
      if first / unit = r.last / unit ∨ r.last % unit = unit - 1 then
        head ++ aligned ⟨first, r.last⟩ units
      else
        head ++ aligned ⟨first, r.last / unit * unit - 1⟩ units
          ++ [⟨r.last / unit * unit, r.last⟩]

/-- The sequences of ranges of bytes of a range of characters.  Every byte but the
first holds six bits of the code point. -/
def byteSequences (r : CodeRange) : List (List CodeRange) :=
  let parts := r.byWidth.flatMap fun part =>
    part.aligned ([0x40, 0x1000, 0x40000].take (codeWidth part.first - 1))
  parts.map fun part => List.zipWith CodeRange.mk (codeBytes part.first) (codeBytes part.last)

end CodeRange

/-- The sequences of ranges of bytes of a set, from low to high. -/
def CharSet.byteSequences (s : CharSet) : List (List CodeRange) :=
  s.ranges.flatMap CodeRange.byteSequences

end GraphWarden
