import GraphWarden.Json.Reader
import GraphWarden.Text.Blank

/-!
# The words of the query language

Rules and schemas are written in the words of the graph query language: names,
numbers, quoted texts, brackets and a few marks.  Between words stand blanks,
commas, byte-order marks and comments, none of which count.

A numeral runs up to the next blank, mark, bracket or comment, and is then either
an integer of 64 bits or a number; a quoted text ends at the first quote that no
backslash escapes, and a block of text at the first three quotes in a row that no
backslash precedes.
-/

namespace GraphWarden.Graphql

/-- The kinds of brackets. -/
inductive Bracket where
  | round
  | square
  | curly
deriving DecidableEq, Repr

/-- A word. -/
inductive Token where
  /-- One of the marks `!`, `$`, `:`, `=`, `@`, `|` and `&`. -/
  | mark (c : Char)
  /-- Three dots. -/
  | spread
  | opening (b : Bracket)
  | closing (b : Bracket)
  | name (s : String)
  | int (i : Int)
  | float (x : Binary64)
  /-- A quoted text or a block of text, as it reads. -/
  | text (s : String)

/-- The bracket that a character opens. -/
def opening? (c : Char) : Option Bracket :=
  if c = '(' then some .round else if c = '[' then some .square
  else if c = '{' then some .curly else none

/-- The bracket that a character closes. -/
def closing? (c : Char) : Option Bracket :=
  if c = ')' then some .round else if c = ']' then some .square
  else if c = '}' then some .curly else none

/-- The characters that are words by themselves. -/
def isMark (c : Char) : Bool :=
  c = '!' || c = '$' || c = ':' || c = '=' || c = '@' || c = '|' || c = '&'

/-- The characters a name begins with. -/
def isNameStart (c : Char) : Bool :=
  c = '_' || ('a' ≤ c && c ≤ 'z') || ('A' ≤ c && c ≤ 'Z')

/-- The characters a name goes on with. -/
def isNamePart (c : Char) : Bool :=
  isNameStart c || (Json.digit? c).isSome

/-- The blanks between words. -/
def isIgnored (c : Char) : Bool :=
  c = ' ' || c = '\t' || c = '\n' || c = '\r' || c = ',' || c.toNat = 0xFEFF

/-- The characters at which a numeral ends. -/
def endsNumeral (c : Char) : Bool :=
  c = ' ' || c = '\n' || c = '\r' || c = '\t' || c = ',' || c = '#' || isMark c
    || (opening? c).isSome || (closing? c).isSome

/-- What stands before and after the last character with a property. -/
def splitAtLast (p : Char → Bool) : List Char → Option (List Char × List Char)
  | [] => none
  | c :: cs =>
    match splitAtLast p cs with
    | some (before, after) => some (c :: before, after)
    | none => if p c then some ([], cs) else none

/-- The digits of a text that holds digits only, and at least one. -/
def digits? (cs : List Char) : Option (List Nat) :=
  if cs.isEmpty then none else cs.mapM Json.digit?

/-- The digits of a whole part, which has no needless zero in front. -/
def wholeDigits? (cs : List Char) : Option (List Nat) :=
  match digits? cs with
  | some (0 :: _ :: _) => none
  | ds => ds

/-- The value of an exponent.  One that is written without sign does not begin
with the digits zero and nine. -/
def exponent? (cs : List Char) : Option Int :=
  match cs with
  | '-' :: ds => (digits? ds).map fun ds => -(Json.ofDigits ds : Int)
  | '+' :: ds => (digits? ds).map fun ds => (Json.ofDigits ds : Int)
  | c :: _ =>
    if '1' ≤ c ∧ c ≤ '8' then (digits? cs).map fun ds => (Json.ofDigits ds : Int) else none
  | [] => none

/-- The word that a numeral is. -/
def numeral? (cs : List Char) : Option Token := do
  let (mantissa, exponent) := match splitAtLast (fun c => c = 'e' || c = 'E') cs with
    | some (before, after) => (before, some after)
    | none => (cs, none)
  let (whole, fraction) := match splitAtLast (· = '.') mantissa with
    | some (before, after) => (before, some after)
    | none => (mantissa, none)
  let (negative, whole) := match whole with
    | '-' :: rest => (true, rest)
    | rest => (false, rest)
  let whole ← wholeDigits? whole
  if exponent.isNone && fraction.isNone then
    let n : Int := Json.ofDigits whole
    let i := if negative then -n else n
    if Word.fits i then some (.int i) else none
  else
    let places ← match fraction with
      | some cs => digits? cs
      | none => some []
    let power ← match exponent with
      | some cs => exponent? cs
      | none => some 0
    some (.float (Binary64.ofDecimal negative (Json.ofDigits (whole ++ places))
      (power - (places.length : Int))))

/-- The character of a four-place escape; a plus sign may stand for the first
place. -/
def codePoint? (a b c d : Char) : Option Char := do
  let n ← if a = '+' then Json.hex4? '0' b c d else Json.hex4? a b c d
  if Json.isLeading n || Json.isTrailing n then none else some (Char.ofNat n)

/-- The character that stands for an escape of one letter. -/
def escape? (c : Char) : Option Char :=
  if c = '"' || c = '\\' || c = '/' then some c
  else if c = 'b' then some (Char.ofNat 16)
  else if c = 'f' then some (Char.ofNat 12)
  else if c = 'n' then some '\n'
  else if c = 'r' then some '\r'
  else if c = 't' then some '\t'
  else none

/-- The rest of a quoted text after its opening quote, and what follows it. -/
def quotedRest : List Char → Option (List Char × List Char)
  | [] => none
  | '"' :: rest => some ([], rest)
  | '\n' :: _ => none
  | '\\' :: 'u' :: a :: b :: c :: d :: rest => do
    let p ← codePoint? a b c d
    let (cs, rest) ← quotedRest rest
    some (p :: cs, rest)
  | '\\' :: c :: rest => do
    let p ← escape? c
    let (cs, rest) ← quotedRest rest
    some (p :: cs, rest)
  | c :: rest => do
    let (cs, rest) ← quotedRest rest
    some (c :: cs, rest)

/-- The rest of a block of text after its opening quotes, and what follows it.
`escaped` says whether the character before is a backslash. -/
def blockRest (escaped : Bool) : List Char → Option (List Char × List Char)
  | [] => none
  | '"' :: '"' :: '"' :: rest =>
    if escaped then do
      let (cs, rest) ← blockRest false rest
      some ('"' :: '"' :: '"' :: cs, rest)
    else some ([], rest)
  | c :: rest => do
    let (cs, rest) ← blockRest (c = '\\') rest
    some (c :: cs, rest)

/-- Take the backslash off each three quotes in a row that follow one. -/
def unescapeBlock : List Char → List Char
  | [] => []
  | '\\' :: '"' :: '"' :: '"' :: rest => '"' :: '"' :: '"' :: unescapeBlock rest
  | c :: rest => c :: unescapeBlock rest

/-- How many bytes a line takes. -/
def width (line : List Char) : Nat :=
  line.foldl (fun n c => n + c.utf8Size) 0

/-- How many bytes the blanks in front of a line take. -/
def indent (line : List Char) : Nat :=
  width (line.takeWhile Text.isBlank)

/-- Whether a line holds blanks only. -/
def isBlankLine (line : List Char) : Bool :=
  line.all Text.isBlank

/-- Drop characters from the front of a line that take so many bytes together. -/
def dropBytes : Nat → List Char → List Char
  | _, [] => []
  | n, c :: rest => if n = 0 then c :: rest else dropBytes (n - c.utf8Size) rest

/-- Take so many bytes off a line; a line that is shorter stays as it is. -/
def dedent (depth : Nat) (line : List Char) : List Char :=
  if depth ≤ width line then dropBytes depth line else line

/-- A block of text as it reads: blank lines at both ends are dropped, and the
indentation that the lines after the very first have in common is taken off them.
A blank line has no indentation of its own. -/
def unindent (cs : List Char) : List Char :=
  match Text.lines cs with
  | [] => []
  | first :: others =>
    let depth := ((others.filter fun l => !isBlankLine l).map indent).min?.getD 0
    let lines := (isBlankLine first, first)
      :: others.map fun l => (isBlankLine l, dedent depth l)
    let lines := lines.dropWhile Prod.fst
    let lines := (lines.reverse.dropWhile Prod.fst).reverse
    ['\n'].intercalate (lines.map fun l => unescapeBlock l.2)

/-- The word at the start of a text, and what follows it. -/
def word? : List Char → Option (Token × List Char)
  | [] => none
  | '"' :: '"' :: '"' :: rest => do
    let (cs, rest) ← blockRest false rest
    some (.text (String.ofList (unindent cs)), rest)
  | '"' :: rest => do
    let (cs, rest) ← quotedRest rest
    some (.text (String.ofList cs), rest)
  | '.' :: '.' :: '.' :: rest => some (.spread, rest)
  | c :: rest =>
    match opening? c, closing? c with
    | some b, _ => some (.opening b, rest)
    | none, some b => some (.closing b, rest)
    | none, none =>
      if isMark c then some (.mark c, rest)
      else if isNameStart c then
        some (.name (String.ofList (c :: rest.takeWhile isNamePart)), rest.dropWhile isNamePart)
      else if c = '-' || (Json.digit? c).isSome then do
        let token ← numeral? (c :: rest.takeWhile fun c => !endsNumeral c)
        some (token, rest.dropWhile fun c => !endsNumeral c)
      else none

/-- The words of a text that is no longer than `fuel`. -/
def tokensWithin : (fuel : Nat) → List Char → Option (List Token)
  | _, [] => some []
  | 0, _ :: _ => none
  | fuel + 1, c :: rest =>
    if isIgnored c then tokensWithin fuel rest
    else if c = '#' then
      tokensWithin fuel (rest.dropWhile fun c => !(c = '\n' || c = '\r'))
    else do
      let (token, rest) ← word? (c :: rest)
      let tokens ← tokensWithin fuel rest
      some (token :: tokens)

/-- The words of a text; `none` when some part of it is no word. -/
def tokens? (cs : List Char) : Option (List Token) :=
  tokensWithin cs.length cs

end GraphWarden.Graphql
