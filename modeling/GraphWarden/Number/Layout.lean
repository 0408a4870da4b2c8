import GraphWarden.Number.Shortest

/-!
# How a number is laid out

Two layouts of the shortest decimal are in use.  A data text puts the point
inside the digits for magnitudes from `10⁻⁵` up to `10¹⁶` and always shows a
fraction there; outside it uses an exponent, whose sign is always shown.  A
metrics text never uses an exponent and shows a fraction only when there is one.
-/

namespace GraphWarden

namespace Decimal

/-- A run of zeros. -/
def zeros (n : Nat) : String := String.ofList (List.replicate n '0')

/-- The integer part and the fraction digits, without an exponent. -/
def positional (d : Decimal) : String × String :=
  let text := (toString d.digits).toList
  if 0 ≤ d.exponent then (String.ofList text ++ zeros d.exponent.toNat, "")
  else
    let places := (-d.exponent).toNat
    if places < text.length then
      (String.ofList (text.take (text.length - places)), String.ofList (text.drop (text.length - places)))
    else ("0", zeros (places - text.length) ++ String.ofList text)

/-- The exponent of the leading digit. -/
def leading (d : Decimal) : Int :=
  d.exponent + (toString d.digits).length - 1

/-- One digit, a fraction if there are more, and the exponent with its sign. -/
def scientific (d : Decimal) : String :=
  let text := (toString d.digits).toList
  let fraction := text.drop 1
  let head := String.ofList (text.take 1) ++ (if fraction.isEmpty then "" else "." ++ String.ofList fraction)
  let e := d.leading
  head ++ "e" ++ (if e < 0 then "-" else "+") ++ toString e.natAbs

end Decimal

namespace Binary64

/-- The layout of a data text; an infinite number has none and is written `null`. -/
def dataText (x : Binary64) : String :=
  if !x.isFinite then "null"
  else
    let sign := if x.negative then "-" else ""
    if x.isZero then sign ++ "0.0"
    else
      let d := x.shortest
      if -5 ≤ d.leading && d.leading < 16 then
        let (whole, fraction) := d.positional
        sign ++ whole ++ "." ++ (if fraction.isEmpty then "0" else fraction)
      else sign ++ d.scientific

/-- The layout of a metrics text. -/
def plainText (x : Binary64) : String :=
  if x.isZero then "0"
  else
    let (whole, fraction) := x.shortest.positional
    if fraction.isEmpty then whole else whole ++ "." ++ fraction

end Binary64

end GraphWarden
