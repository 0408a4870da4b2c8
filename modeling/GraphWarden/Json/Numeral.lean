import GraphWarden.Json.Basic
import GraphWarden.Number.Word

/-!
# Numerals of a data text

A numeral without fraction and exponent is an integer when it fits 64 bits, with
a sign when it is negative; `-0` is the floating zero with a minus sign.  Every
other numeral is a binary64 number, read in two steps: the leading digits that
fit an unsigned 64-bit word are rounded to a number, which is then scaled once
by a power of ten.  Integer digits past the word scale by ten each; fraction
digits past it are dropped.  So a long numeral may read as a neighbour of the
nearest number; a number written by this library with at most 15 digits does not.
-/

namespace GraphWarden.Json

/-- The value of a decimal digit. -/
def digit? (c : Char) : Option Nat :=
  if '0' ≤ c ∧ c ≤ '9' then some (c.toNat - 48) else none

/-- The digits in front of a text, and what follows them. -/
def takeDigits (cs : List Char) : List Nat × List Char :=
  match cs with
  | [] => ([], [])
  | c :: rest =>
    match digit? c with
    | some d => let (ds, r) := takeDigits rest; (d :: ds, r)
    | none => ([], c :: rest)

/-- The natural that digits spell. -/
def ofDigits (ds : List Nat) : Nat :=
  ds.foldl (fun n d => 10 * n + d) 0

/-- Append digits to a word as long as it stays a word; also how many were taken. -/
def absorb (word : Nat) : List Nat → Nat × Nat
  | [] => (word, 0)
  | d :: ds =>
    if 10 * word + d ≤ Word.natMax then
      let (w, n) := absorb (10 * word + d) ds
      (w, n + 1)
    else (word, 0)

/-- Divide by `10 ^ 308` a number of times; zero stays zero. -/
def shrink : Nat → Binary64 → Binary64
  | 0, x => x
  | n + 1, x => if x.isZero then x else shrink n (x.dividedBy (Binary64.ofDecimal false 1 308))

/-- A word scaled by a power of ten; `none` when the result is out of range. -/
def scaledWord (word : Nat) (exponent : Int) : Option Binary64 :=
  let x := Binary64.ofNat word
  if 0 ≤ exponent then
    if x.isZero then some x
    else if 308 < exponent then none
    else
      let y := x.times (Binary64.ofDecimal false 1 exponent)
      if y.isFinite then some y else none
  else
    let e := (-exponent).toNat
    let steps := (e - 1) / 308
    some ((shrink steps x).dividedBy (Binary64.ofDecimal false 1 (e - 308 * steps : Nat)))

/-- A numeral that was scanned: sign, integer digits, fraction digits, exponent. -/
structure Numeral where
  negative : Bool
  whole : List Nat
  fraction : Option (List Nat)
  exponent : Option (Bool × List Nat)

/-- Give a magnitude its sign. -/
def signed (negative : Bool) (x : Binary64) : Json :=
  .float (if negative then x.negated else x)

/-- What a numeral names; `none` when its magnitude is out of range. -/
def Numeral.value? (n : Numeral) : Option Json :=
  let word := ofDigits n.whole
  if n.fraction.isNone && n.exponent.isNone && word ≤ Word.natMax then
    if !n.negative then some (.int word)
    else if word = 0 || 0x8000000000000000 < word then some (signed true (Binary64.ofNat word))
    else some (.int (-word))
  else
    let (w, taken) := absorb 0 n.whole
    let (w, places) := absorb w (n.fraction.getD [])
    let base : Int := (n.whole.length - taken : Nat) - (places : Int)
    match n.exponent with
    | none => (scaledWord w base).map (signed n.negative)
    | some (down, ds) =>
      let e := ofDigits ds
      if 0x80000000 ≤ e then
        if w ≠ 0 && !down then none else some (signed n.negative Binary64.zero)
      else (scaledWord w (if down then base - e else base + e)).map (signed n.negative)

end GraphWarden.Json
