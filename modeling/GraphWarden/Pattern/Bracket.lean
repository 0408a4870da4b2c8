import GraphWarden.Pattern.Escape

/-!
# Sets in brackets

Between brackets stand characters, ranges, escapes, further sets in brackets,
ASCII classes by name, and the operators `&&`, `--` and `~~`, which take
everything between them as one set and are read from the left.  A caret in front
negates; hyphens that follow stand for themselves, and so does a closing bracket
right at the start.

Brackets that are still open are kept innermost first, so that reading goes
through the text once.
-/

namespace GraphWarden.Pattern

/-- A bracket that is still open: what its operators have joined so far, and what
has been read since, the last first. -/
structure Bracket where
  negated : Bool
  joined : Option (SetTree × SetOperator)
  parts : List SetTree

namespace Bracket

/-- One more part. -/
def push (b : Bracket) (part : SetTree) : Bracket :=
  { b with parts := part :: b.parts }

/-- The parts since the last operator as one set. -/
def lastPart (b : Bracket) : SetTree :=
  match b.parts with
  | [] => .nothing
  | [part] => part
  | parts => .union parts.reverse

/-- All that has been read as one set. -/
def body (b : Bracket) : SetTree :=
  match b.joined with
  | none => b.lastPart
  | some (left, op) => .operation op left b.lastPart

/-- Go on after an operator. -/
def operate (b : Bracket) (op : SetOperator) : Bracket :=
  { b with joined := some (b.body, op), parts := [] }

end Bracket

/-- A bracket after its opening, up to where its items begin. -/
def openBracket (verbose : Bool) (cs : List Char) : Reading Bracket :=
  let (negated, cs) :=
    match skip verbose cs with
    | '^' :: rest => (true, skip verbose rest)
    | cs => (false, cs)
  match takeSpaced verbose (· == '-') cs with
  | (_, []) => .error .openClass
  | ([], ']' :: rest) =>
    if (skip verbose rest).isEmpty then .error .openClass
    else .ok (⟨negated, none, [.literal (.plain ']')]⟩, skip verbose rest)
  | (hyphens, rest) => .ok (⟨negated, none, hyphens.map fun c => .literal (.plain c)⟩, rest)

/-- The ASCII class of a name. -/
def AsciiClass.ofName? (name : List Char) : Option AsciiClass :=
  [("alnum", .alnum), ("alpha", .alpha), ("ascii", .ascii), ("blank", .blank), ("cntrl", .cntrl),
    ("digit", .digit), ("graph", .graph), ("lower", .lower), ("print", .print),
    ("punct", .punct), ("space", .space), ("upper", .upper), ("word", .word),
    ("xdigit", AsciiClass.xdigit)].lookup (String.ofList name)

/-- An ASCII class after its opening bracket, if there is one. -/
def readAsciiClass? (cs : List Char) : Option (SetTree × List Char) :=
  let named (negated : Bool) (cs : List Char) : Option (SetTree × List Char) :=
    match cs.dropWhile (· != ':') with
    | ':' :: ']' :: rest =>
      (AsciiClass.ofName? (cs.takeWhile (· != ':'))).map fun kind => (.ascii kind negated, rest)
    | _ => none
  match cs with
  | ':' :: '^' :: rest => named true rest
  | ':' :: rest => named false rest
  | _ => none

/-- An escape or a character that stands for itself. -/
def readSetItem (verbose : Bool) (cs : List Char) : Reading Escape :=
  match cs with
  | [] => .error .openClass
  | '\\' :: rest => readEscape verbose rest
  | c :: rest => .ok (.literal (.plain c), rest)

/-- An escape as a part of a set; places in the text are none. -/
def Escape.asPart : Escape → Except Cause SetTree
  | .literal c => .ok (.literal c)
  | .shorthand kind negated => .ok (.shorthand kind negated)
  | .query q negated => .ok (.query q negated)
  | .assertion _ => .error .badClassItem

/-- An item, or a range between two. -/
def readSetPart (verbose : Bool) (cs : List Char) : Except Cause (SetTree × List Char) := do
  let (first, rest) ← readSetItem verbose cs
  match skip verbose rest with
  | [] => .error .openClass
  | '-' :: after =>
    if peek? verbose after = some ']' ∨ peek? verbose after = some '-' then
      return (← first.asPart, '-' :: after)
    else
      let (last, rest) ← readSetItem verbose (skip verbose after)
      match first, last with
      | .literal a, .literal b =>
        if a.char ≤ b.char then .ok (.range a b, rest) else .error .badRange
      | _, _ => .error .badRange
  | rest => return (← first.asPart, rest)

/-- Read on in the innermost bracket until the outermost is closed.  Each round
reads at least one character, of which there are fewer than `fuel`. -/
def readBrackets (verbose : Bool) (fuel : Nat) (b : Bracket) (outer : List Bracket)
    (cs : List Char) : Except Cause (Bracket × List Char) :=
  match fuel with
  | 0 => .error .openClass
  | fuel + 1 =>
    match skip verbose cs with
    | [] => .error .openClass
    | '[' :: rest =>
      match readAsciiClass? rest with
      | some (part, rest) => readBrackets verbose fuel (b.push part) outer rest
      | none => do
        let (inner, rest) ← openBracket verbose rest
        readBrackets verbose fuel inner (b :: outer) rest
    | ']' :: rest =>
      match outer with
      | [] => .ok (b, rest)
      | around :: outer =>
        readBrackets verbose fuel (around.push (.bracket b.negated b.body)) outer rest
    | '&' :: '&' :: rest => readBrackets verbose fuel (b.operate .inter) outer rest
    | '-' :: '-' :: rest => readBrackets verbose fuel (b.operate .diff) outer rest
    | '~' :: '~' :: rest => readBrackets verbose fuel (b.operate .symmetricDiff) outer rest
    | cs => do
      let (part, rest) ← readSetPart verbose cs
      readBrackets verbose fuel (b.push part) outer rest

/-- A set in brackets after its opening bracket. -/
def readBracket (verbose : Bool) (cs : List Char) : Except Cause (Tree × List Char) := do
  let (b, rest) ← openBracket verbose cs
  let (b, rest) ← readBrackets verbose (cs.length + 1) b [] rest
  return (.bracket b.negated b.body, rest)

end GraphWarden.Pattern
