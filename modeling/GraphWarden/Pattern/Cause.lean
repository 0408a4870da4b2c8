/-!
# Why a pattern is refused

A pattern may be written wrongly, mean something that cannot be looked for in a
text, or be too large.  All but the last are faults of the writing, and their
wording begins alike.
-/

namespace GraphWarden.Pattern

/-- The room that a pattern's automaton may take, in bytes. -/
def roomLimit : Nat := 0xA00000

/-- Why a pattern was not accepted. -/
inductive Cause where
  | nothingToRepeat
  | openCount
  | badCount
  | openGroup
  | closeWithoutOpen
  | badGroupName
  | repeatedGroupName
  | badFlag
  | lookAround
  | reference
  | badEscape
  | openClass
  | badRange
  | badClassItem
  | tooDeep
  | unknownProperty
  | unicodeOff
  | notText
  | tooLarge
deriving DecidableEq, Repr

/-- The wording of a fault of the writing, if the cause is one. -/
def Cause.fault? : Cause → Option String
  | .nothingToRepeat => some "repetition operator missing expression"
  | .openCount => some "unclosed counted repetition"
  | .badCount => some "invalid repetition count"
  | .openGroup => some "unclosed group"
  | .closeWithoutOpen => some "unopened group"
  | .badGroupName => some "invalid capture group name"
  | .repeatedGroupName => some "duplicate capture group name"
  | .badFlag => some "unrecognized flag"
  | .lookAround => some "look-around is not supported"
  | .reference => some "backreferences are not supported"
  | .badEscape => some "unrecognized escape sequence"
  | .openClass => some "unclosed character class"
  | .badRange => some "invalid character class range"
  | .badClassItem => some "invalid item in a character class"
  | .tooDeep => some "exceeded the maximum number of nested groups and sets"
  | .unknownProperty => some "Unicode property not found"
  | .unicodeOff => some "Unicode not allowed here"
  | .notText => some "pattern can match invalid UTF-8"
  | .tooLarge => none

/-- The wording of a cause. -/
def Cause.message (cause : Cause) : String :=
  match cause.fault? with
  | some fault => "regex parse error: " ++ fault
  | none => "Compiled regex exceeds size limit of " ++ toString roomLimit ++ " bytes."

end GraphWarden.Pattern
