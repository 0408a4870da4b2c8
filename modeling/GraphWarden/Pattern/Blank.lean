import GraphWarden.Text.Blank

/-!
# Blanks and comments in a pattern

Under the verbose flag blanks and comments may stand between the parts of a
pattern, and inside most of them too.  A comment runs from a number sign to the
end of its line.  What is skipped is always in front of a text, so a text never
gets longer.
-/

namespace GraphWarden.Pattern

/-- Drop blanks and comments, where a comment may have begun. -/
def dropBlanks (inComment : Bool) : List Char → List Char
  | [] => []
  | c :: rest =>
    if inComment then dropBlanks (c != '\n') rest
    else if Text.isBlank c then dropBlanks false rest
    else if c = '#' then dropBlanks true rest
    else c :: rest

/-- Drop blanks and comments under the verbose flag. -/
def skip (verbose : Bool) (cs : List Char) : List Char :=
  if verbose then dropBlanks false cs else cs

/-- What a text begins with, if under the verbose flag blanks and one number sign
are passed over; if nothing is left then, its first character. -/
def peek? (verbose : Bool) (cs : List Char) : Option Char :=
  if verbose then
    match Text.trimStart cs with
    | '#' :: rest => (Text.trimStart rest).head? <|> cs.head?
    | rest => rest.head? <|> cs.head?
  else cs.head?

/-- Dropping blanks and comments never makes a text longer. -/
theorem length_dropBlanks_le (inComment : Bool) (cs : List Char) :
    (dropBlanks inComment cs).length ≤ cs.length := by
  induction cs generalizing inComment with
  | nil => simp [dropBlanks]
  | cons c rest ih =>
    have h := ih false
    have k := ih true
    have m := ih (c != '\n')
    unfold dropBlanks
    split
    · simp only [List.length_cons]; omega
    · split
      · simp only [List.length_cons]; omega
      · split
        · simp only [List.length_cons]; omega
        · exact Nat.le_refl _

/-- Skipping, which drops blanks and comments under the verbose flag only, never makes a text
longer. -/
theorem length_skip_le (verbose : Bool) (cs : List Char) :
    (skip verbose cs).length ≤ cs.length := by
  unfold skip
  split
  · exact length_dropBlanks_le false cs
  · exact Nat.le_refl _

/-- The characters in front that fulfil a condition, with blanks and comments
after each dropped, and what follows. -/
def takeSpaced (verbose : Bool) (ok : Char → Bool) (cs : List Char) : List Char × List Char :=
  match cs with
  | [] => ([], [])
  | c :: rest =>
    if ok c then
      let (taken, after) := takeSpaced verbose ok (skip verbose rest)
      (c :: taken, after)
    else ([], c :: rest)
termination_by cs.length
decreasing_by
  have := length_skip_le verbose rest
  simp only [List.length_cons]
  omega

end GraphWarden.Pattern
