import GraphWarden.CharSet.Property
import GraphWarden.Number.Word
import GraphWarden.Pattern.Bracket

/-!
# Reading a pattern

A pattern is alternatives of sequences of items: characters, the dot, sets,
places in the text, groups, and repetitions of the item before.  Groups that are
still open are kept innermost first, so that reading goes through the text once.

Of the flags only the verbose one matters here.  It holds from where it is set to
the end of the group around it.  A group's name may be used once in the whole
pattern.
-/

namespace GraphWarden.Pattern

/-- A group that is still open, or the whole pattern: the alternatives that have
ended and the items since, both the last first. -/
structure Level where
  verbose : Bool
  arms : List Tree
  items : List Tree

namespace Level

/-- A group of which nothing has been read. -/
def start (verbose : Bool) : Level := ⟨verbose, [], []⟩

/-- One more item. -/
def push (l : Level) (item : Tree) : Level :=
  { l with items := item :: l.items }

/-- The items since the last alternative ended. -/
def lastArm (l : Level) : Tree :=
  match l.items with
  | [] => .empty
  | [item] => item
  | items => .sequence items.reverse

/-- All that has been read. -/
def tree (l : Level) : Tree :=
  match l.arms with
  | [] => l.lastArm
  | arms => .alternatives (l.lastArm :: arms).reverse

/-- Go on with a further alternative. -/
def nextArm (l : Level) : Level :=
  { l with arms := l.lastArm :: l.arms, items := [] }

/-- Repeat the last item.  Flags are no item that can be repeated. -/
def repeatLast (l : Level) (least : Nat) (most : Option Nat) (lazy : Bool) :
    Except Cause Level :=
  match l.items with
  | [] | .flags _ :: _ => .error .nothingToRepeat
  | item :: items => .ok { l with items := .repetition least most lazy item :: items }

end Level

/-- How a group was opened. -/
inductive Opening where
  | capture (index : Nat)
  | scope (changes : FlagChanges)

/-- A group with its content. -/
def Opening.close : Opening → Tree → Tree
  | .capture index, body => .capture index body
  | .scope changes, body => .scope changes body

/-- The state of reading: the innermost group, those around it, how many captures
there have been, and their names. -/
structure Scan where
  level : Level
  outer : List (Opening × Level)
  captures : Nat
  names : List String

namespace Scan

/-- The state before anything is read. -/
def start : Scan := ⟨.start false, [], 0, []⟩

/-- One more item of the innermost group. -/
def push (s : Scan) (item : Tree) : Scan :=
  { s with level := s.level.push item }

end Scan

/-- The flag of a letter. -/
def Flag.ofLetter? : Char → Option Flag
  | 'i' => some .caseless
  | 'm' => some .multiline
  | 's' => some .dotAll
  | 'U' => some .swapGreed
  | 'u' => some .unicode
  | 'R' => some .carriageReturns
  | 'x' => some .verbose
  | _ => none

/-- The letters of flags up to the colon or the closing parenthesis that ends them:
the changes, whether it was the parenthesis, and what follows.  After a hyphen,
of which there is at most one and not at the end, flags are switched off. -/
def readFlags (changes : FlagChanges) (off afterHyphen : Bool) :
    List Char → Except Cause (FlagChanges × Bool × List Char)
  | [] => .error .openGroup
  | c :: rest =>
    if c = ':' ∨ c = ')' then
      if afterHyphen then .error .badFlag else .ok (changes.reverse, c = ')', rest)
    else if c = '-' then
      if off then .error .badFlag else readFlags changes true true rest
    else
      match Flag.ofLetter? c with
      | some flag =>
        if (changes.lookup flag).isSome then .error .badFlag
        else readFlags ((flag, !off) :: changes) off false rest
      | none => .error .badFlag

/-- Whether a character may stand in a group's name, or begin it. -/
def isNameChar (first : Bool) (c : Char) : Bool :=
  if first then c == '_' || CharSet.alphabetic.has c.toNat
  else c == '_' || c == '.' || c == '[' || c == ']' || CharSet.alphanumeric.has c.toNat

/-- The name of a group up to its closing angle bracket. -/
def readName (cs : List Char) : Reading String :=
  match cs.takeWhile (· != '>'), cs.dropWhile (· != '>') with
  | c :: name, '>' :: rest =>
    if isNameChar true c && name.all (isNameChar false) then .ok (String.ofList (c :: name), rest)
    else .error .badGroupName
  | _, _ => .error .badGroupName

/-- Open a group that captures. -/
def Scan.openCapture (s : Scan) (name : Option String) : Except Cause Scan :=
  if name.any s.names.contains then .error .repeatedGroupName
  else
    let index := s.captures + 1
    .ok
      { level := .start s.level.verbose
        outer := (.capture index, s.level) :: s.outer
        captures := index
        names := name.toList ++ s.names }

/-- A group's opening after its parenthesis, or flags alone. -/
def readOpening (s : Scan) (cs : List Char) : Except Cause (Scan × List Char) :=
  let named (cs : List Char) : Except Cause (Scan × List Char) := do
    let (name, rest) ← readName cs
    return (← s.openCapture (some name), rest)
  match skip s.level.verbose cs with
  | '?' :: '=' :: _ | '?' :: '!' :: _ | '?' :: '<' :: '=' :: _ | '?' :: '<' :: '!' :: _ =>
    .error .lookAround
  | '?' :: 'P' :: '<' :: rest => named rest
  | '?' :: '<' :: rest => named rest
  | '?' :: rest => do
    let (changes, alone, rest) ← readFlags [] false false rest
    let verbose := (changes.lookup .verbose).getD s.level.verbose
    if !alone then
      return ({ s with level := .start verbose, outer := (.scope changes, s.level) :: s.outer },
        rest)
    else if changes.isEmpty then .error .nothingToRepeat
    else return ({ s with level := { s.level.push (.flags changes) with verbose } }, rest)
  | rest => return (← s.openCapture none, rest)

/-- A number of repetitions, with blanks around it and, under the verbose flag,
also inside.  It fits 32 bits. -/
def readCount (verbose : Bool) (cs : List Char) : Reading Nat :=
  let (digits, rest) := takeSpaced verbose Char.isDigit (Text.trimStart cs)
  let n := Json.ofDigits (digits.filterMap Json.digit?)
  if digits.isEmpty ∨ Word.halfMax < n then .error .badCount else .ok (n, Text.trimStart rest)

/-- The bounds of a repetition after its opening brace, up to the closing one. -/
def readBounds (verbose : Bool) (cs : List Char) :
    Except Cause ((Nat × Option Nat) × List Char) := do
  let (least, rest) ← readCount verbose (skip verbose cs)
  match rest with
  | '}' :: rest => return ((least, some least), rest)
  | ',' :: rest =>
    match skip verbose rest with
    | '}' :: rest => return ((least, none), rest)
    | rest =>
      let (most, rest) ← readCount verbose rest
      match rest with
      | '}' :: rest => if least ≤ most then return ((least, some most), rest) else .error .badCount
      | _ => .error .openCount
  | _ => .error .openCount

/-- The question mark of a repetition that takes as little as it can. -/
def readLazy : List Char → Bool × List Char
  | '?' :: rest => (true, rest)
  | rest => (false, rest)

/-- A repetition of the last item, after its sign. -/
def Scan.repeatLast (s : Scan) (least : Nat) (most : Option Nat) (cs : List Char) :
    Except Cause (Scan × List Char) := do
  let (lazy, rest) := readLazy cs
  return ({ s with level := ← s.level.repeatLast least most lazy }, rest)

/-- An escape outside brackets. -/
def Escape.asTree : Escape → Tree
  | .literal c => .literal c
  | .assertion a => .assertion a
  | .shorthand kind negated => .shorthand kind negated
  | .query q negated => .query q negated

/-- Read one item, or one sign between items, that begins with a character. -/
def Scan.step (s : Scan) (c : Char) (rest : List Char) : Except Cause (Scan × List Char) :=
  let verbose := s.level.verbose
  match c with
  | '(' => readOpening s rest
  | ')' =>
    match s.outer with
    | [] => .error .closeWithoutOpen
    | (opening, around) :: outer =>
      .ok ({ s with level := around.push (opening.close s.level.tree), outer }, rest)
  | '|' => .ok ({ s with level := s.level.nextArm }, rest)
  | '*' => s.repeatLast 0 none rest
  | '+' => s.repeatLast 1 none rest
  | '?' => s.repeatLast 0 (some 1) rest
  | '{' => do
    let ((least, most), rest) ← readBounds verbose rest
    s.repeatLast least most (skip verbose rest)
  | '[' => (readBracket verbose rest).map fun (set, rest) => (s.push set, rest)
  | '\\' => (readEscape verbose rest).map fun (e, rest) => (s.push e.asTree, rest)
  | '.' => .ok (s.push .dot, rest)
  | '^' => .ok (s.push (.assertion .caret), rest)
  | '$' => .ok (s.push (.assertion .dollar), rest)
  | c => .ok (s.push (.literal (.plain c)), rest)

/-- Read to the end.  Each round reads at least one character, of which there are
fewer than `fuel`. -/
def Scan.run (fuel : Nat) (s : Scan) (cs : List Char) : Except Cause Tree :=
  match fuel with
  | 0 => .error .openGroup
  | fuel + 1 =>
    match skip s.level.verbose cs with
    | [] => if s.outer.isEmpty then .ok s.level.tree else .error .openGroup
    | c :: rest => do
      let (s, rest) ← s.step c rest
      s.run fuel rest

/-- The tree that a pattern's text writes. -/
def Tree.ofSource? (source : String) : Except Cause Tree := do
  let tree ← Scan.start.run (source.length + 1) source.toList
  if tree.within depthLimit then return tree else .error .tooDeep

end GraphWarden.Pattern
