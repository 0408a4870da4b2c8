import GraphWarden.Json.Reader
import GraphWarden.Pattern.Blank
import GraphWarden.Pattern.Cause
import GraphWarden.Pattern.Tree

/-!
# Escapes

After a backslash stands a letter for a character, a set or a place in the text,
a number in hexadecimal digits, the name of a set, or a character that would mean
something else without it.  Other letters and all digits are refused.
-/

namespace GraphWarden.Pattern

/-- What is read in front of a text, and the text after it. -/
abbrev Reading (α : Type) := Except Cause (α × List Char)

/-- What an escape stands for. -/
inductive Escape where
  | literal (c : Literal)
  | assertion (a : Assertion)
  | shorthand (kind : Shorthand) (negated : Bool)
  | query (q : Query) (negated : Bool)

/-- The character whose number hexadecimal digits spell. -/
def charOfHex? (digits : List Char) : Option Char :=
  if digits.isEmpty then none
  else do
    let ds ← digits.mapM Json.hexValue?
    let n := ds.foldl (fun n d => min (16 * n + d) (lastCode + 1)) 0
    if h : n.isValidChar then some (Char.ofNatAux n h) else none
where
  /-- The greatest number of a character. -/
  lastCode : Nat := 0x10FFFF

/-- Whether a character is a hexadecimal digit. -/
def isHex (c : Char) : Bool := (Json.hexValue? c).isSome

/-- So many hexadecimal digits, with blanks after each dropped. -/
def takeHex? (verbose : Bool) : Nat → List Char → Option (List Char × List Char)
  | 0, cs => some ([], cs)
  | _ + 1, [] => none
  | n + 1, c :: rest =>
    if isHex c then
      (takeHex? verbose n (skip verbose rest)).map fun (ds, r) => (c :: ds, r)
    else none

/-- A character by its number: so many digits, or any number of them in braces. -/
def readNumber (verbose : Bool) (count : Nat) (cs : List Char) : Reading Literal :=
  match skip verbose cs with
  | '{' :: rest =>
    match takeSpaced verbose isHex (skip verbose rest) with
    | (digits, '}' :: rest) =>
      match charOfHex? digits with
      | some c => .ok (.plain c, skip verbose rest)
      | none => .error .badEscape
    | _ => .error .badEscape
  | cs =>
    match takeHex? verbose count cs with
    | some (digits, rest) =>
      match charOfHex? digits with
      | some c => .ok (⟨c, count = 2⟩, rest)
      | none => .error .badEscape
    | none => .error .badEscape

/-- The parts of a text before and after the first place where another stands. -/
def splitAt? (mark : List Char) : List Char → Option (List Char × List Char)
  | [] => none
  | c :: rest =>
    match Text.after? mark (c :: rest) with
    | some after => some ([], after)
    | none => (splitAt? mark rest).map fun (before, after) => (c :: before, after)

/-- The set that a name in braces asks for. -/
def Query.ofName (name : List Char) : Query :=
  match splitAt? ['!', '='] name <|> splitAt? [':'] name <|> splitAt? ['='] name with
  | some (property, value) => .valued property value
  | none => .named name

/-- A set by its name, of one letter or in braces. -/
def readQuery (verbose : Bool) (cs : List Char) : Reading Query :=
  match skip verbose cs with
  | [] => .error .badEscape
  | '{' :: rest =>
    match takeSpaced verbose (· != '}') (skip verbose rest) with
    | (name, '}' :: rest) => .ok (.ofName name, rest)
    | _ => .error .badEscape
  | '\\' :: _ => .error .badEscape
  | c :: rest => .ok (.named [c], skip verbose rest)

/-- The edge of a word, or one of its sides when a name in braces follows.  Braces
around anything but letters and hyphens are a count. -/
def readEdge (verbose : Bool) (cs : List Char) : Reading Assertion :=
  let isNameChar (c : Char) : Bool := c.isAlpha || c == '-'
  match cs with
  | '{' :: rest =>
    match takeSpaced verbose isNameChar (skip verbose rest) with
    | ([], []) => .error .badEscape
    | ([], _) => .ok (.wordEdge, cs)
    | (name, '}' :: rest) =>
      if name = "start".toList then .ok (.wordStart, rest)
      else if name = "end".toList then .ok (.wordEnd, rest)
      else if name = "start-half".toList then .ok (.wordStartHalf, rest)
      else if name = "end-half".toList then .ok (.wordEndHalf, rest)
      else .error .badEscape
    | _ => .error .badEscape
  | _ => .ok (.wordEdge, cs)

/-- Whether a character may be escaped only to mean itself. -/
def isEscapable (c : Char) : Bool :=
  c.toNat < 0x80 && !c.isAlphanum && c != '<' && c != '>'

/-- What follows a backslash. -/
def readEscape (verbose : Bool) (cs : List Char) : Reading Escape :=
  match cs with
  | [] => .error .badEscape
  | c :: rest =>
    let char (c : Char) : Reading Escape := .ok (.literal (.plain c), rest)
    let place (a : Assertion) : Reading Escape := .ok (.assertion a, rest)
    let set (kind : Shorthand) (negated : Bool) : Reading Escape :=
      .ok (.shorthand kind negated, rest)
    match c with
    | 'x' => (readNumber verbose 2 rest).map fun (l, r) => (.literal l, r)
    | 'u' => (readNumber verbose 4 rest).map fun (l, r) => (.literal l, r)
    | 'U' => (readNumber verbose 8 rest).map fun (l, r) => (.literal l, r)
    | 'p' => (readQuery verbose rest).map fun (q, r) => (.query q false, r)
    | 'P' => (readQuery verbose rest).map fun (q, r) => (.query q true, r)
    | 'd' => set .digit false
    | 'D' => set .digit true
    | 's' => set .space false
    | 'S' => set .space true
    | 'w' => set .word false
    | 'W' => set .word true
    | 'a' => char (Char.ofNat 7)
    | 'f' => char (Char.ofNat 12)
    | 't' => char '\t'
    | 'n' => char '\n'
    | 'r' => char '\r'
    | 'v' => char (Char.ofNat 11)
    | 'A' => place .textStart
    | 'z' => place .textEnd
    | 'b' => (readEdge verbose rest).map fun (a, r) => (.assertion a, r)
    | 'B' => place .notWordEdge
    | '<' => place .wordStart
    | '>' => place .wordEnd
    | c =>
      if isEscapable c then char c
      else .error (if c.isDigit then .reference else .badEscape)

end GraphWarden.Pattern
