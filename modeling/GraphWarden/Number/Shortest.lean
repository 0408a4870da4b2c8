import GraphWarden.Number.Binary64

/-!
# The shortest decimal that reads back

A number is written with the fewest decimal digits that still name it among all
binary64 numbers.  For one digit, two digits, and so on, the number's two
neighbours on that decimal grid are tried; the first grid on which one of them
reads back wins, and of two that do the nearer, a tie going to the even one.
-/

namespace GraphWarden

/-- The decimal `digits · 10 ^ exponent`. -/
structure Decimal where
  digits : Nat
  exponent : Int
deriving DecidableEq, Repr

namespace Decimal

/-- The same decimal without zeros at the end of its digits. -/
def normalized : Nat → Decimal → Decimal
  | 0, d => d
  | fuel + 1, d =>
    if d.digits ≠ 0 ∧ d.digits % 10 = 0 then normalized fuel ⟨d.digits / 10, d.exponent + 1⟩ else d

end Decimal

namespace Binary64

/-- The exponent of the leading decimal digit of a positive ratio. -/
def leadingExponent (num den : Nat) : Int :=
  if den ≤ num then ((toString (num / den)).length : Int) - 1
  else
    match (List.range 400).find? fun j => den ≤ num * Nat.pow 10 j with
    | some j => -(j : Int)
    | none => 0

/-- Whether a decimal names the magnitude. -/
def readsBack (x : Binary64) (d : Decimal) : Bool :=
  (ofDecimal false d.digits d.exponent).rank == x.rank

/-- The neighbours of the magnitude among decimals with `count` digits that read
back, the nearer first. -/
def candidates (x : Binary64) (count : Nat) : List Decimal :=
  let (num, den) := x.ratio
  let unit : Int := leadingExponent num den - count + 1
  let (n, d) :=
    if 0 ≤ unit then (num, den * Nat.pow 10 unit.toNat)
    else (num * Nat.pow 10 (-unit).toNat, den)
  let low := n / d
  let nearer := roundHalfEven n d
  let farther := if nearer = low then low + 1 else low
  [⟨nearer, unit⟩, ⟨farther, unit⟩].filter x.readsBack

/-- The shortest decimal that names the magnitude of a finite number that is not
zero. -/
def shortest (x : Binary64) : Decimal :=
  let found := (List.range 17).findSome? fun i => (x.candidates (i + 1)).head?
  (found.getD ⟨0, 0⟩).normalized 20

end Binary64

end GraphWarden
