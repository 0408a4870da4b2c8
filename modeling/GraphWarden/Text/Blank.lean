/-!
# Blank characters and trimming

Rule text, descriptor lines and settings are all trimmed before they are read.
What counts as blank is the Unicode property `White_Space`; the byte-order mark
`U+FEFF` is not blank.  All functions here work on lists of characters, so a
statement about what is left of a text is a statement about lists.

The lemmas at the end say what is left of a text when another is taken off its front or its
end.
-/

namespace GraphWarden.Text

/-- The characters with the Unicode property `White_Space`. -/
def isBlank (c : Char) : Bool :=
  let n := c.toNat
  (9 ≤ n && n ≤ 13) || n == 0x20 || n == 0x85 || n == 0xA0 || n == 0x1680
    || (0x2000 ≤ n && n ≤ 0x200A) || n == 0x2028 || n == 0x2029 || n == 0x202F
    || n == 0x205F || n == 0x3000

/-- Drop the blank characters in front. -/
def trimStart (cs : List Char) : List Char :=
  cs.dropWhile isBlank

/-- Drop the blank characters at the end. -/
def trimEnd (cs : List Char) : List Char :=
  (cs.reverse.dropWhile isBlank).reverse

/-- Drop the blank characters on both sides. -/
def trim (cs : List Char) : List Char :=
  trimEnd (trimStart cs)

/-- What follows `lead` when the text begins with it. -/
def after? : (lead text : List Char) → Option (List Char)
  | [], text => some text
  | _ :: _, [] => none
  | a :: lead, b :: text => if a = b then after? lead text else none

/-- What stands before `tail` when the text ends with it. -/
def before? (tail text : List Char) : Option (List Char) :=
  (after? tail.reverse text.reverse).map List.reverse

/-- The lines of a text: a line ends at a line feed, together with a carriage
return right before it.  A last line that is empty is no line. -/
def lines (cs : List Char) : List (List Char) :=
  close (cs.foldr step ([], []))
where
  /-- Put one more character in front of the lines read so far, from the end. -/
  step (c : Char) (acc : List Char × List (List Char)) : List Char × List (List Char) :=
    if c = '\n' then ([c], if acc.1.isEmpty then acc.2 else acc.1 :: acc.2)
    else (c :: acc.1, acc.2)
  /-- Finish the first line and take the line ends off. -/
  close (acc : List Char × List (List Char)) : List (List Char) :=
    (if acc.1.isEmpty then acc.2 else acc.1 :: acc.2).map strip
  /-- Take a line end off. -/
  strip (line : List Char) : List Char :=
    match before? ['\r', '\n'] line with
    | some rest => rest
    | none => (before? ['\n'] line).getD line

/-- What is left of a text behind another is found when the text begins with it. -/
theorem after?_eq_some_iff {lead text rest : List Char} :
    after? lead text = some rest ↔ text = lead ++ rest := by
  induction lead generalizing text with
  | nil => simp [after?, eq_comm]
  | cons a lead ih =>
    cases text with
    | nil => simp [after?]
    | cons b text =>
      by_cases h : a = b
      · simp [after?, h, ih]
      · simp [after?, h, Ne.symm h]

/-- What is left of a text in front of another is found when the text ends with it. -/
theorem before?_eq_some_iff {tail text rest : List Char} :
    before? tail text = some rest ↔ text = rest ++ tail := by
  constructor
  · intro h
    obtain ⟨r, hr, rfl⟩ := Option.map_eq_some_iff.1 h
    have := congrArg List.reverse (after?_eq_some_iff.1 hr)
    simpa using this
  · rintro rfl
    refine Option.map_eq_some_iff.2 ⟨rest.reverse, ?_, by simp⟩
    rw [after?_eq_some_iff]
    simp

end GraphWarden.Text
