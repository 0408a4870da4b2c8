/-!
# Words

The bounds of the integers that fit a machine word.
-/

namespace GraphWarden.Word

/-- The largest unsigned 32-bit integer. -/
def halfMax : Nat := 0xffffffff

/-- The largest unsigned 64-bit integer. -/
def natMax : Nat := 0xffffffffffffffff

/-- The least signed 64-bit integer. -/
def intMin : Int := -0x8000000000000000

/-- The largest signed 64-bit integer. -/
def intMax : Int := 0x7fffffffffffffff

/-- Whether an integer is a signed 64-bit one. -/
def fits (i : Int) : Bool := intMin ≤ i && i ≤ intMax

end GraphWarden.Word
