/-!
# Binary64 numbers

A floating-point number is kept as its sign and the rank of its magnitude: the
nonnegative numbers of the format, listed from zero to infinity, are counted
`0, 1, 2, …`, so rank `0` is zero, rank `1` the least positive number and
`infinityRank` infinity.  There is no "not a number" here, because no text that
is read and no arithmetic done on durations produces one.

Comparison is then comparison of signed ranks (`order`), where both zeros have
rank `0`; that it is a total preorder needs no proof.  Reading and arithmetic go
through exact ratios of natural numbers and one rounding function,
`nearestRank`, which rounds to the nearest number and a tie to the even one.
-/

namespace GraphWarden

/-- A binary64 number: its sign and the rank of its magnitude. -/
structure Binary64 where
  negative : Bool
  /-- How many nonnegative numbers of the format are smaller in magnitude. -/
  rank : Nat
  rank_le : rank ≤ 2047 <<< 52
deriving DecidableEq

namespace Binary64

/-- The rank of infinity. -/
def infinityRank : Nat := 2047 <<< 52

/-- The number of a sign and a rank; ranks past infinity are infinity. -/
def ofRank (negative : Bool) (rank : Nat) : Binary64 :=
  ⟨negative, min rank infinityRank, Nat.min_le_right _ _⟩

/-- Zero with a plus sign. -/
def zero : Binary64 := ofRank false 0

instance : Inhabited Binary64 := ⟨zero⟩

/-- Zero of either sign. -/
def isZero (x : Binary64) : Bool := x.rank == 0

/-- Neither plus nor minus infinity. -/
def isFinite (x : Binary64) : Bool := x.rank < infinityRank

/-- The signed rank, by which numbers are compared. -/
def order (x : Binary64) : Int :=
  if x.negative then -(x.rank : Int) else x.rank

/-- Equality of numbers: the two zeros are equal. -/
def same (x y : Binary64) : Bool := x.order == y.order

/-- The order of numbers. -/
def compare (x y : Binary64) : Ordering := Ord.compare x.order y.order

/-- The quotient of two naturals, rounded to the nearest natural, a tie to the
even one. -/
def roundHalfEven (num den : Nat) : Nat :=
  let q := num / den
  let r := num % den
  if 2 * r < den then q
  else if den < 2 * r then q + 1
  else q + q % 2

/-- Whether `num / den` is at least `2 ^ k`. -/
def reachesPower (num den : Nat) (k : Int) : Bool :=
  if 0 ≤ k then den <<< k.toNat ≤ num else den ≤ num <<< (-k).toNat

/-- The rank of the number nearest to `num / den`, a tie going to the even rank.
The scale is the power of two at which the quotient has 53 binary digits, but
never below that of the least positive number. -/
def nearestRank (num den : Nat) : Nat :=
  if num = 0 ∨ den = 0 then 0
  else
    let k : Int := (Nat.log2 num : Int) - Nat.log2 den
    let top : Int := if reachesPower num den k then k else k - 1
    let scale : Int := max (top - 52) (-1074)
    let q : Nat :=
      if 0 ≤ scale then roundHalfEven num (den <<< scale.toNat)
      else roundHalfEven (num <<< (-scale).toNat) den
    min (((scale + 1074).toNat <<< 52) + q) infinityRank

/-- The magnitude as `m · 2 ^ e`: the pair `(m, e)`. -/
def scaled (x : Binary64) : Nat × Int :=
  let e : Nat := x.rank / (1 <<< 52)
  let f : Nat := x.rank % (1 <<< 52)
  if e = 0 then (f, -1074) else (f + (1 <<< 52), (e : Int) - 1075)

/-- The magnitude as an exact ratio. -/
def ratio (x : Binary64) : Nat × Nat :=
  let (m, e) := x.scaled
  if 0 ≤ e then (m <<< e.toNat, 1) else (m, 1 <<< (-e).toNat)

/-- The number nearest to a ratio. -/
def ofRatio (negative : Bool) (num den : Nat) : Binary64 :=
  ofRank negative (nearestRank num den)

/-- The number nearest to an integer. -/
def ofInt (i : Int) : Binary64 :=
  ofRatio (i < 0) i.natAbs 1

/-- The number nearest to a natural. -/
def ofNat (n : Nat) : Binary64 :=
  ofRatio false n 1

/-- The number nearest to `digits · 10 ^ exponent`.  Far outside the range of
the format the power of ten is not computed. -/
def ofDecimal (negative : Bool) (digits : Nat) (exponent : Int) : Binary64 :=
  if digits = 0 then ofRank negative 0
  else if 400 < exponent then ofRank negative infinityRank
  else if exponent < -(Nat.log2 digits : Int) - 400 then ofRank negative 0
  else if 0 ≤ exponent then ofRatio negative (digits * Nat.pow 10 exponent.toNat) 1
  else ofRatio negative digits (Nat.pow 10 (-exponent).toNat)

/-! Arithmetic on magnitudes: the exact result, rounded once.  Durations and the
digits of a number are never negative. -/

/-- The sum of two magnitudes. -/
def plus (x y : Binary64) : Binary64 :=
  let (a, b) := x.ratio
  let (c, d) := y.ratio
  ofRatio false (a * d + c * b) (b * d)

/-- The product of two magnitudes. -/
def times (x y : Binary64) : Binary64 :=
  let (a, b) := x.ratio
  let (c, d) := y.ratio
  ofRatio false (a * c) (b * d)

/-- The quotient of two magnitudes; a quotient by zero is zero. -/
def dividedBy (x y : Binary64) : Binary64 :=
  let (a, b) := x.ratio
  let (c, d) := y.ratio
  ofRatio false (a * d) (b * c)

/-- The number with a minus sign in place of its own sign. -/
def negated (x : Binary64) : Binary64 := { x with negative := true }

theorem same_refl (x : Binary64) : x.same x = true := by
  simp [same]

/-- Numbers are the same when they have one place in the order. -/
theorem same_iff {x y : Binary64} : x.same y = true ↔ x.order = y.order := by
  simp [same]

theorem same_comm (x y : Binary64) : x.same y = y.same x := by
  rw [Bool.eq_iff_iff, same_iff, same_iff, eq_comm]

end Binary64

end GraphWarden
