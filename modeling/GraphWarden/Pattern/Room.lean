import GraphWarden.Pattern.Cause
import GraphWarden.Pattern.Expr

/-!
# How much room a pattern takes

A pattern is looked for by an automaton over bytes, once forwards and once
backwards, and both have to keep within `roomLimit`.  This module counts the room
that the states take, without building them: a state takes `stateRoom`, a way on
for a range of bytes `arrowRoom`, and each way out of a branch `branchRoom`.

The states are numbered as they are built.  Within one set, states that are alike
are built once as long as they are remembered: each in a slot that is found by a
hash of what it is, until another takes its slot.  A state is what it leads to, so
the numbers matter to the room as well.
-/

namespace GraphWarden.Pattern

/-- The room of a state. -/
def stateRoom : Nat := 32

/-- The room of a way on for a range of bytes. -/
def arrowRoom : Nat := 8

/-- The room of a way out of a branch. -/
def branchRoom : Nat := 4

/-- What has been built: how many states, the room of the ways between them, and
whether the part built last ends in a branch. -/
structure Tally where
  states : Nat
  ways : Nat
  inBranch : Bool
deriving DecidableEq, Repr

namespace Tally

/-- Nothing built. -/
def start : Tally := ⟨0, 0, false⟩

/-- The room taken. -/
def room (t : Tally) : Nat := stateRoom * t.states + t.ways

/-- A tally that keeps within the limit. -/
def within? (t : Tally) : Option Tally :=
  if t.room ≤ roomLimit then some t else none

/-- Build states with so much room for their ways; the last is no branch. -/
def add (t : Tally) (states ways : Nat) : Option Tally :=
  within? ⟨t.states + states, t.ways + ways, false⟩

/-- Build a branch with so many ways out. -/
def addBranch (t : Tally) (ways : Nat) : Option Tally :=
  within? ⟨t.states + 1, t.ways + branchRoom * ways, true⟩

/-- Lead on from the end of a part, which is one more way out if it is a branch. -/
def lead (t : Tally) (fromBranch : Bool) : Option Tally :=
  if fromBranch then within? { t with ways := t.ways + branchRoom } else some t

/-- The part built last ends in a branch or not. -/
def ending (t : Tally) (inBranch : Bool) : Tally := { t with inBranch }

end Tally

/-- Build a part after what has been built, if there is room. -/
abbrev Builder := Tally → Option Tally

/-- A way on for a range of bytes, to the state of a number. -/
structure Arrow where
  first : Nat
  last : Nat
  target : Nat
deriving DecidableEq, Repr

/-- Mix numbers into a hash of 64 bits. -/
def mixed (numbers : List Nat) : UInt64 :=
  numbers.foldl (fun h n => (h ^^^ n.toUInt64) * 0x100000001B3) 0xCBF29CE484222325

/-- The states of one set that are remembered, by what they are. -/
abbrev Memory (κ : Type) := Array (Option (κ × Nat))

namespace Memory

/-- Nothing remembered in so many slots. -/
def fresh {κ : Type} (slots : Nat) : Memory κ := Array.replicate slots none

/-- The slot of a hash. -/
def slot {κ : Type} (m : Memory κ) (hash : UInt64) : Nat := (hash % m.size.toUInt64).toNat

/-- The number of the state with a key, if it is remembered. -/
def stateOf? {κ : Type} [DecidableEq κ] (m : Memory κ) (slot : Nat) (key : κ) : Option Nat :=
  match m.getD slot none with
  | some (found, state) => if found = key then some state else none
  | none => none

/-- Remember a state, in place of what was in its slot. -/
def remember {κ : Type} (m : Memory κ) (slot : Nat) (key : κ) (state : Nat) : Memory κ :=
  m.setIfInBounds slot (some (key, state))

end Memory

/-- What has been built of a set, with what is remembered. -/
abbrev Building (κ : Type) := Tally × Memory κ

/-- Build a state with arrows, unless one like it is remembered; also its number. -/
def addArrows (arrows : List Arrow) (b : Building (List Arrow)) :
    Option (Nat × Building (List Arrow)) :=
  let slot := b.2.slot (mixed (arrows.flatMap fun a => [a.first, a.last, a.target]))
  match b.2.stateOf? slot arrows with
  | some state => some (state, b)
  | none => do
    let t ← b.1.add 1 (arrowRoom * arrows.length)
    return (b.1.states, (t, b.2.remember slot arrows b.1.states))

/-- Build a set of sequences of at most `depth` bytes forwards: a state for the
sequences that begin alike, after those that they lead to. -/
def addForwards (depth : Nat) (finish : Nat) (sequences : List (List CodeRange))
    (b : Building (List Arrow)) : Option (Nat × Building (List Arrow)) :=
  match depth with
  | 0 => some (finish, b)
  | depth + 1 => do
    let groups := sequences.splitBy fun s q => s.head? = q.head?
    let (arrows, b) ← groups.foldlM (fun (arrows, b) group => do
      match group with
      | [] | [] :: _ => return (arrows, b)
      | [range] :: _ => return (⟨range.first, range.last, finish⟩ :: arrows, b)
      | (range :: _) :: _ =>
        let (target, b) ← addForwards depth finish (group.map (·.drop 1)) b
        return (⟨range.first, range.last, target⟩ :: arrows, b)) (([] : List Arrow), b)
    addArrows arrows.reverse b

/-- A state for a range of bytes that leads to the state of a number. -/
def addBackwards (target : Nat) (range : CodeRange) (b : Building Arrow) :
    Option (Nat × Building Arrow) :=
  let key : Arrow := ⟨range.first, range.last, target⟩
  let slot := b.2.slot (mixed [target, range.first, range.last])
  match b.2.stateOf? slot key with
  | some state => some (state, b)
  | none => do
    let t ← b.1.add 1 0
    return (b.1.states, (t, b.2.remember slot key b.1.states))

/-- Build a set. -/
def addSet (backwards : Bool) (s : CharSet) : Builder := fun t =>
  if s.isAscii then t.add 2 (arrowRoom * s.ranges.length)
  else if backwards then do
    let t ← t.add 2 0
    let finish := t.states - 1
    let (t, _) ← s.byteSequences.foldlM (fun (b : Building Arrow) sequence => do
      let (_, b) ← sequence.foldlM (fun (target, b) range => addBackwards target range b)
        (finish, b)
      return (← b.1.lead true, b.2)) (t, Memory.fresh 1000)
    return t.ending false
  else do
    let t ← t.add 1 0
    let (_, (t, _)) ← addForwards 4 (t.states - 1) s.byteSequences (t, Memory.fresh 10000)
    return t.ending false

/-- Build the given part so many times more, each after the one before. -/
def addCopies (build : Builder) : Nat → Builder
  | 0, t => some t
  | n + 1, t =>
    match build t with
    | none => none
    | some next =>
      match next.lead t.inBranch with
      | none => none
      | some t => addCopies build n t

/-- Build the given part exactly so many times. -/
def addExactly (build : Builder) : Nat → Builder
  | 0, t => t.add 1 0
  | n + 1, t =>
    match build t with
    | none => none
    | some t => addCopies build n t

/-- Build the given part so many times more, where one may stop before each. -/
def addOptional (build : Builder) : Nat → Builder
  | 0, t => t.lead t.inBranch
  | n + 1, t =>
    match t.addBranch 2 with
    | none => none
    | some branch =>
      match build branch with
      | none => none
      | some next =>
        match next.lead t.inBranch with
        | none => none
        | some t => addOptional build n t

/-- Build a part any number of times, where it takes at least a byte or not. -/
def addMany (takesSome : Bool) (build : Builder) : Builder := fun t =>
  if takesSome then do
    let t ← build (← t.addBranch 1)
    return (← t.lead t.inBranch).ending true
  else do
    let t ← build t
    let t ← t.lead t.inBranch
    let t ← (← (← t.addBranch 2).addBranch 2).add 1 0
    return t

/-- Build a part at least so many times, but at least once. -/
def addAtLeast (least : Nat) (build : Builder) : Builder := fun t => do
  let t ← addExactly build least t
  let t' ← t.addBranch 1
  return (← t'.lead t.inBranch).ending true

/-- Build parts, each after the one before. -/
def addInSequence : List Builder → Builder
  | [], t => t.add 1 0
  | build :: builds, t => do
    builds.foldlM (fun t build => do
      let next ← build t
      next.lead t.inBranch) (← build t)

/-- Build parts, one or the other: a branch to all of them, and a common end.  The
branch is built after the second part. -/
def addInChoice : List Builder → Builder
  | [], t => t.add 2 0
  | [build], t => build t
  | first :: second :: builds, t => do
    let t₁ ← first t
    let t₂ ← second t₁
    let t ← (← t₂.addBranch 2).add 1 0
    let t ← (← t.lead t₁.inBranch).lead t₂.inBranch
    builds.foldlM (fun t build => do
      let next ← build t
      let next ← (← next.lead true).lead next.inBranch
      return next.ending false) t

/-- Words that begin alike, in the order in which they were listed. -/
def byFirst (words : List (List Nat)) : List (List (List Nat)) :=
  (words.mergeSort fun v w => v.headD 0 ≤ w.headD 0).splitBy fun v w => v.head? = w.head?

/-- The words between those that are empty.  Empty words in front count once. -/
def betweenEmpty (words : List (List Nat)) : List (List (List Nat)) :=
  let rest := words.dropWhile List.isEmpty
  if rest.length < words.length then [] :: split rest else split rest
where
  /-- Split at every empty word. -/
  split : List (List Nat) → List (List (List Nat))
    | [] => [[]]
    | [] :: words => [] :: split words
    | word :: words =>
      match split words with
      | part :: parts => (word :: part) :: parts
      | [] => [[word]]

/-- Build the states for words of at most `depth` bytes: one for the bytes that they
go on with, or several where words end in between, and a branch to these. -/
def addWords (depth : Nat) (words : List (List Nat)) : Builder := fun t =>
  match depth with
  | 0 => some t
  | depth + 1 =>
    if words.all List.isEmpty then some t
    else do
      let parts := (betweenEmpty words).map byFirst
      let t ← parts.foldlM (fun t groups => do
        let t ← groups.foldlM (fun t group => addWords depth (group.map (·.drop 1)) t) t
        match groups with
        | [] => return t
        | [_] => t.add 1 0
        | groups => t.add 1 (arrowRoom * groups.length)) t
      t.addBranch ((parts.filter (!·.isEmpty)).length + (parts.length - 1))

/-- The bytes of a text. -/
def textBytes (cs : List Char) : List Nat :=
  cs.flatMap fun c => codeBytes c.toNat

/-- The bytes of an expression that is a text. -/
def Expr.bytes? : Expr → Option (List Nat)
  | .text cs => some (textBytes cs)
  | _ => none

mutual

/-- Build the states of an expression. -/
def Expr.build (backwards : Bool) : Expr → Builder
  | .empty => fun t => t.add 1 0
  | .text cs => fun t => t.add (textBytes cs).length 0
  | .set s => addSet backwards s
  | .look _ => fun t => t.add 1 0
  | .repetition least most _ body =>
    let build := body.build backwards
    match least, most with
    | 0, none => addMany (body.shape.least.any (0 < ·)) build
    | least, none => addAtLeast least build
    | 0, some 1 => fun t => do
      let t ← build (← t.addBranch 2)
      (← t.add 1 0).lead t.inBranch
    | least, some most =>
      if least = most then addExactly build least
      else fun t => do
        let t ← addExactly build least t
        let t' ← t.add 1 0
        return (← addOptional build (most - least) (t'.ending t.inBranch)).ending false
  | .capture _ body =>
    let build := body.build backwards
    if backwards then build
    else fun t => do
      let t ← build (← t.add 1 0)
      (← t.add 1 0).lead t.inBranch
  | .sequence items =>
    let builds := Expr.builds backwards items
    addInSequence (if backwards then builds.reverse else builds)
  | .choice arms =>
    match arms.mapM Expr.bytes? with
    | some words =>
      let words := if backwards then words.map List.reverse else words
      fun t => do
        let depth := (words.map List.length).foldl max 0 + 1
        return (← addWords depth words (← t.add 1 0)).ending false
    | none => addInChoice (Expr.builds backwards arms)

def Expr.builds (backwards : Bool) : List Expr → List Builder
  | [] => []
  | e :: es => e.build backwards :: Expr.builds backwards es

end

/-- Build the automaton of an expression.  Unless the expression is bound to the
place where it begins to read, the automaton begins with any bytes. -/
def Expr.automaton (backwards : Bool) (e : Expr) : Option Tally := do
  let bound := if backwards then e.shape.toEnd else e.shape.fromStart
  let lead ← if bound then Tally.start.add 1 0 else addMany true (·.add 2 arrowRoom) .start
  let t ← (if backwards then e else .capture 0 e).build backwards lead
  let t ← (← t.add 1 0).lead t.inBranch
  t.lead lead.inBranch

/-- Whether the automata of an expression keep within their room. -/
def Expr.fits (e : Expr) : Bool :=
  (e.automaton false).isSome && (e.automaton true).isSome

end GraphWarden.Pattern
