import GraphWarden.Json.Numeral

/-!
# Reading a data text

The reader follows the grammar of the interchange form: blanks are the space,
the tab and the two line ends; quoted texts hold no control characters and spell
characters outside the basic plane as a pair of escapes; lists and objects nest
at most `depthLimit` deep.  A fault says where the reader stood.

Reading a list is reading items until the closing bracket, so the reader of one
item is a parameter of the reader of many, and the reader of data is defined by
recursion on the nesting that is left.
-/

namespace GraphWarden.Json

/-- How deep lists and objects may nest. -/
def depthLimit : Nat := 127

/-- Why a data text was not accepted. -/
inductive Cause where
  | endOfText
  | unexpectedCharacter
  | controlCharacter
  | badEscape
  | badNumber
  | numberOutOfRange
  | trailingText
  | tooDeep
  | missingField (name : String)
  | duplicateField (name : String)
  | wrongKind (name : String)
deriving DecidableEq, Repr

namespace Cause

/-- The wording of a cause. -/
def message : Cause → String
  | endOfText => "text ends too early"
  | unexpectedCharacter => "unexpected character"
  | controlCharacter => "control character inside a quoted text"
  | badEscape => "invalid escape"
  | badNumber => "invalid number"
  | numberOutOfRange => "number out of range"
  | trailingText => "trailing characters"
  | tooDeep => "nesting is too deep"
  | missingField name => "missing field " ++ quoted name
  | duplicateField name => "duplicate field " ++ quoted name
  | wrongKind name => "field " ++ quoted name ++ " holds a value of the wrong kind"

end Cause

/-- A cause and the place in the text where it was met. -/
structure Fault where
  cause : Cause
  line : Nat
  column : Nat
deriving DecidableEq, Repr

/-- The wording of a fault, with its place. -/
def Fault.message (f : Fault) : String :=
  f.cause.message ++ " at line " ++ toString f.line ++ " column " ++ toString f.column

/-- A fault before its place is known: the text that was left. -/
abbrev Stop := Cause × List Char

/-- Drop the blanks of a data text. -/
def skip (cs : List Char) : List Char :=
  cs.dropWhile fun c => c = ' ' || c = '\n' || c = '\t' || c = '\r'

/-- The value of a hexadecimal digit. -/
def hexValue? (c : Char) : Option Nat :=
  if '0' ≤ c ∧ c ≤ '9' then some (c.toNat - 48)
  else if 'a' ≤ c ∧ c ≤ 'f' then some (c.toNat - 87)
  else if 'A' ≤ c ∧ c ≤ 'F' then some (c.toNat - 55)
  else none

/-- The value of four hexadecimal digits. -/
def hex4? (a b c d : Char) : Option Nat := do
  return ((← hexValue? a) * 4096 + (← hexValue? b) * 256 + (← hexValue? c) * 16 + (← hexValue? d))

/-- Whether a number is the first half of a pair of escapes. -/
def isLeading (n : Nat) : Bool := 0xD800 ≤ n && n ≤ 0xDBFF

/-- Whether a number is the second half of a pair of escapes. -/
def isTrailing (n : Nat) : Bool := 0xDC00 ≤ n && n ≤ 0xDFFF

/-- The rest of a quoted text after its opening quote. -/
def quotedRest : List Char → Except Stop (List Char × List Char)
  | [] => .error (.endOfText, [])
  | '"' :: rest => .ok ([], rest)
  | '\\' :: 'u' :: a :: b :: c :: d :: rest =>
    match hex4? a b c d with
    | none => .error (.badEscape, rest)
    | some n =>
      if isTrailing n then .error (.badEscape, rest)
      else if isLeading n then
        match rest with
        | '\\' :: 'u' :: e :: f :: g :: h :: rest' =>
          match hex4? e f g h with
          | none => .error (.badEscape, rest')
          | some m =>
            if isTrailing m then do
              let (cs, r) ← quotedRest rest'
              .ok (Char.ofNat (0x10000 + (n - 0xD800) * 0x400 + (m - 0xDC00)) :: cs, r)
            else .error (.badEscape, rest')
        | _ => .error (.badEscape, rest)
      else do
        let (cs, r) ← quotedRest rest
        .ok (Char.ofNat n :: cs, r)
  | '\\' :: c :: rest =>
    let plain : Option Char :=
      if c = '"' || c = '\\' || c = '/' then some c
      else if c = 'b' then some (Char.ofNat 8)
      else if c = 'f' then some (Char.ofNat 12)
      else if c = 'n' then some '\n'
      else if c = 'r' then some '\r'
      else if c = 't' then some '\t'
      else none
    match plain with
    | none => .error (.badEscape, rest)
    | some p => do
      let (cs, r) ← quotedRest rest
      .ok (p :: cs, r)
  | c :: rest =>
    if c.toNat < 32 then .error (.controlCharacter, c :: rest)
    else do
      let (cs, r) ← quotedRest rest
      .ok (c :: cs, r)

/-- The exponent of a numeral, if one follows. -/
def exponentRest (cs : List Char) : Except Stop (Option (Bool × List Nat) × List Char) :=
  match cs with
  | c :: rest =>
    if c = 'e' ∨ c = 'E' then
      let (down, rest) :=
        match rest with
        | '-' :: r => (true, r)
        | '+' :: r => (false, r)
        | r => (false, r)
      let (ds, r) := takeDigits rest
      if ds.isEmpty then .error (.badNumber, r) else .ok (some (down, ds), r)
    else .ok (none, cs)
  | [] => .ok (none, [])

/-- The fraction of a numeral, if one follows. -/
def fractionRest (cs : List Char) : Except Stop (Option (List Nat) × List Char) :=
  match cs with
  | '.' :: rest =>
    let (ds, r) := takeDigits rest
    if ds.isEmpty then .error (.badNumber, r) else .ok (some ds, r)
  | _ => .ok (none, cs)

/-- The parts of a numeral after its sign; a leading zero stands alone. -/
def numeralParts (negative : Bool) (cs : List Char) : Except Stop (Numeral × List Char) := do
  let (whole, rest) := takeDigits cs
  match whole with
  | [] => .error (.badNumber, cs)
  | 0 :: _ :: _ => .error (.badNumber, cs)
  | _ =>
    let (fraction, rest) ← fractionRest rest
    let (exponent, rest) ← exponentRest rest
    .ok (⟨negative, whole, fraction, exponent⟩, rest)

/-- A numeral after its sign, which must be in range. -/
def numeralRest (negative : Bool) (cs : List Char) : Except Stop (Json × List Char) := do
  let (parts, rest) ← numeralParts negative cs
  match parts.value? with
  | some j => .ok (j, rest)
  | none => .error (.numberOutOfRange, rest)

/-- A word, a quoted text or a numeral. -/
def scalar (cs : List Char) : Except Stop (Json × List Char) :=
  match cs with
  | [] => .error (.endOfText, [])
  | 'n' :: 'u' :: 'l' :: 'l' :: rest => .ok (.null, rest)
  | 't' :: 'r' :: 'u' :: 'e' :: rest => .ok (.flag true, rest)
  | 'f' :: 'a' :: 'l' :: 's' :: 'e' :: rest => .ok (.flag false, rest)
  | '"' :: rest => do
    let (body, r) ← quotedRest rest
    .ok (.text (String.ofList body), r)
  | '-' :: rest => numeralRest true rest
  | c :: rest =>
    if (digit? c).isSome then numeralRest false (c :: rest)
    else .error (.unexpectedCharacter, c :: rest)

/-- A reader of one datum. -/
abbrev Reads (α : Type) := List Char → Except Stop (α × List Char)

/-- Items separated by commas up to `stop`; at least one. -/
def separated {α : Type} (stop : Char) (item : Reads α) : Nat → Reads (List α)
  | 0, cs => .error (.endOfText, cs)
  | fuel + 1, cs => do
    let (x, rest) ← item cs
    match skip rest with
    | [] => .error (.endOfText, [])
    | c :: r =>
      if c = stop then .ok ([x], r)
      else if c = ',' then do
        let (xs, r) ← separated stop item fuel r
        .ok (x :: xs, r)
      else .error (.unexpectedCharacter, c :: r)

/-- Items separated by commas up to `stop`, after the opening bracket. -/
def bracketed {α : Type} (stop : Char) (item : Reads α) : Reads (List α) := fun cs =>
  match skip cs with
  | [] => .error (.endOfText, [])
  | c :: rest => if c = stop then .ok ([], rest) else separated stop item cs.length (c :: rest)

/-- A key, a colon and a datum. -/
def entry (datum : Reads Json) : Reads (String × Json) := fun cs =>
  match skip cs with
  | '"' :: rest => do
    let (key, r) ← quotedRest rest
    match skip r with
    | ':' :: r => do
      let (j, r) ← datum r
      .ok ((String.ofList key, j), r)
    | r => .error (.unexpectedCharacter, r)
  | r => .error (.unexpectedCharacter, r)

/-- A datum with at most so many levels of nesting. -/
def datum : Nat → Reads Json
  | 0, cs =>
    match skip cs with
    | '[' :: r => .error (.tooDeep, r)
    | '{' :: r => .error (.tooDeep, r)
    | r => scalar r
  | depth + 1, cs =>
    match skip cs with
    | '[' :: r => do
      let (items, r) ← bracketed ']' (datum depth) r
      .ok (.list items, r)
    | '{' :: r => do
      let (entries, r) ← bracketed '}' (entry (datum depth)) r
      .ok (.object entries, r)
    | r => scalar r

/-- Pass over the rest of a quoted text after its opening quote.  Only the form of its
escapes is checked, not that they name characters. -/
def passQuoted : List Char → Except Stop (List Char)
  | [] => .error (.endOfText, [])
  | '"' :: rest => .ok rest
  | '\\' :: 'u' :: a :: b :: c :: d :: rest =>
    if (hex4? a b c d).isSome then passQuoted rest else .error (.badEscape, rest)
  | '\\' :: c :: rest =>
    if c = '"' || c = '\\' || c = '/' || c = 'b' || c = 'f' || c = 'n' || c = 'r' || c = 't' then
      passQuoted rest
    else .error (.badEscape, rest)
  | c :: rest => if c.toNat < 32 then .error (.controlCharacter, c :: rest) else passQuoted rest

/-- Pass over a word, a quoted text or a numeral of any size. -/
def passScalar (cs : List Char) : Except Stop (List Char) :=
  match cs with
  | '"' :: rest => passQuoted rest
  | '-' :: rest => (numeralParts true rest).map Prod.snd
  | c :: rest =>
    if (digit? c).isSome then (numeralParts false (c :: rest)).map Prod.snd
    else (scalar (c :: rest)).map Prod.snd
  | [] => .error (.endOfText, [])

/-- Pass over a key, a colon and what `pass` passes over. -/
def passEntry (pass : Reads Unit) : Reads Unit := fun cs =>
  match skip cs with
  | '"' :: rest => do
    match skip (← passQuoted rest) with
    | ':' :: r => pass r
    | r => .error (.unexpectedCharacter, r)
  | r => .error (.unexpectedCharacter, r)

/-- Pass over a datum with at most so many levels of nesting. -/
def pass : Nat → Reads Unit
  | 0, cs => (passScalar (skip cs)).map fun r => ((), r)
  | depth + 1, cs =>
    match skip cs with
    | '[' :: r => (bracketed ']' (pass depth) r).map fun x => ((), x.2)
    | '{' :: r => (bracketed '}' (passEntry (pass depth)) r).map fun x => ((), x.2)
    | r => (passScalar r).map fun r => ((), r)

/-- An entry whose datum is read only if its key is among some; otherwise it is passed
over, however deep it nests. -/
def entryAmong (keys : List String) : Reads (Option (String × Json)) := fun cs =>
  match skip cs with
  | '"' :: rest => do
    let (key, r) ← quotedRest rest
    let key := String.ofList key
    match skip r with
    | ':' :: r =>
      if keys.contains key then do
        let (j, r) ← datum (depthLimit - 1) r
        .ok (some (key, j), r)
      else do
        let ((), r) ← pass r.length r
        .ok (none, r)
    | r => .error (.unexpectedCharacter, r)
  | r => .error (.unexpectedCharacter, r)

/-- The place in a text at which so many characters are left. -/
def place (whole rest : List Char) : Nat × Nat :=
  let done := whole.take (whole.length - rest.length)
  let line := done.count '\n' + 1
  let column := (done.reverse.takeWhile (· != '\n')).length
  (line, column)

/-- A fault with its place. -/
def faultAt (whole : List Char) (stop : Stop) : Fault :=
  let (line, column) := place whole stop.2
  ⟨stop.1, line, column⟩

/-- Read a whole text as one datum. -/
def ofText? (s : String) : Except Fault Json :=
  let cs := s.toList
  match datum depthLimit cs with
  | .error stop => .error (faultAt cs stop)
  | .ok (j, rest) =>
    match skip rest with
    | [] => .ok j
    | r => .error (faultAt cs (.trailingText, r))

/-- Read a whole text as one object, of which only the entries under some keys are
wanted. -/
def entriesOfText? (keys : List String) (s : String) : Except Fault (List (String × Json)) :=
  let cs := s.toList
  match skip cs with
  | '{' :: rest =>
    match bracketed '}' (entryAmong keys) rest with
    | .error stop => .error (faultAt cs stop)
    | .ok (entries, rest) =>
      match skip rest with
      | [] => .ok (entries.filterMap id)
      | r => .error (faultAt cs (.trailingText, r))
  | r => .error (faultAt cs (.unexpectedCharacter, r))

end GraphWarden.Json
