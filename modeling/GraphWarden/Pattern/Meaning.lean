import GraphWarden.CharSet.Query
import GraphWarden.Pattern.Cause
import GraphWarden.Pattern.Expr
import GraphWarden.Pattern.Tree

/-!
# What a pattern means

The meaning of a tree is a regular expression.  It depends on the flags in force:
a flag holds from where it is set to the end of the group around it, through all
alternatives that follow.

Where Unicode is switched off, sets are sets of ASCII characters.  A pattern
whose set would hold single bytes beyond these is refused, for it could match
what is no text.
-/

namespace GraphWarden.Pattern

/-- The flags in force. -/
structure Flags where
  caseless : Bool
  multiline : Bool
  dotAll : Bool
  swapGreed : Bool
  unicode : Bool
  carriageReturns : Bool
deriving DecidableEq, Repr

namespace Flags

/-- The flags that hold unless they are changed: Unicode alone. -/
def standard : Flags := ⟨false, false, false, false, true, false⟩

/-- Switch one flag.  The verbose flag has done its work when a tree is read. -/
def switch (flags : Flags) : Flag × Bool → Flags
  | (.caseless, on) => { flags with caseless := on }
  | (.multiline, on) => { flags with multiline := on }
  | (.dotAll, on) => { flags with dotAll := on }
  | (.swapGreed, on) => { flags with swapGreed := on }
  | (.unicode, on) => { flags with unicode := on }
  | (.carriageReturns, on) => { flags with carriageReturns := on }
  | (.verbose, _) => flags

/-- Switch flags one by one. -/
def change (flags : Flags) (changes : FlagChanges) : Flags :=
  changes.foldl switch flags

end Flags

/-- The capital and small letters of ASCII. -/
def asciiLetters : CharSet := .ofTable ["41-5A 61-7A"]

/-- The digits of ASCII. -/
def asciiDigits : CharSet := .ofTable ["30-39"]

/-- The blanks of ASCII. -/
def asciiBlanks : CharSet := .ofTable ["9-D 20"]

/-- The word characters of ASCII. -/
def asciiWord : CharSet := .ofTable ["30-39 41-5A 5F 61-7A"]

/-- The members of an ASCII class. -/
def AsciiClass.members : AsciiClass → CharSet
  | .alnum => .ofTable ["30-39 41-5A 61-7A"]
  | .alpha => asciiLetters
  | .ascii => .ascii
  | .blank => .ofTable ["9 20"]
  | .cntrl => .ofTable ["0-1F 7F"]
  | .digit => asciiDigits
  | .graph => .ofTable ["21-7E"]
  | .lower => .ofTable ["61-7A"]
  | .print => .ofTable ["20-7E"]
  | .punct => .ofTable ["21-2F 3A-40 5B-60 7B-7E"]
  | .space => asciiBlanks
  | .upper => .ofTable ["41-5A"]
  | .word => asciiWord
  | .xdigit => .ofTable ["30-39 41-46 61-66"]

/-- The members of a shorthand. -/
def Shorthand.members (unicode : Bool) : Shorthand → CharSet
  | .digit => if unicode then .digit else asciiDigits
  | .space => if unicode then .blank else asciiBlanks
  | .word => if unicode then .word else asciiWord

/-- The set that is asked for by name. -/
def Query.members? : Query → Option CharSet
  | .named name => CharSet.ofName? name
  | .valued property value => CharSet.ofValue? property value

namespace Flags

/-- A set of ASCII characters together with the same letters in the other case. -/
def asciiCaseless (s : CharSet) : CharSet :=
  (s.caseless).inter .ascii

/-- A set, closed under case where case is not to matter. -/
def folded (flags : Flags) (s : CharSet) : CharSet :=
  if !flags.caseless then s
  else if flags.unicode then s.caseless
  else asciiCaseless s

/-- A set that may be negated.  Outside Unicode a negated set holds bytes that are
no characters. -/
def negated (flags : Flags) (isNegated : Bool) (s : CharSet) : Except Cause CharSet :=
  if isNegated && !flags.unicode then .error .notText else .ok (s.complementIf isNegated)

/-- The code point of a literal as a member of a set. -/
def memberCode (flags : Flags) (c : Literal) : Except Cause Nat :=
  if flags.unicode || c.char.toNat < 0x80 then .ok c.char.toNat
  else .error (if c.isByte then .notText else .unicodeOff)

/-- The set of a shorthand. -/
def shorthandSet (flags : Flags) (kind : Shorthand) (isNegated : Bool) : Except Cause CharSet :=
  flags.negated isNegated (kind.members flags.unicode)

/-- The set that is asked for by name. -/
def querySet (flags : Flags) (q : Query) (isNegated : Bool) : Except Cause CharSet :=
  if !flags.unicode then .error .unicodeOff
  else
    match q.members? with
    | some s => flags.negated isNegated (flags.folded s)
    | none => .error .unknownProperty

end Flags

/-- What an operator makes of two sets. -/
def SetOperator.apply : SetOperator → CharSet → CharSet → CharSet
  | .inter => CharSet.inter
  | .diff => CharSet.diff
  | .symmetricDiff => CharSet.symmetricDiff

mutual

/-- The set that a tree in brackets stands for. -/
def SetTree.meaning (flags : Flags) : SetTree → Except Cause CharSet
  | .nothing => .ok .empty
  | .literal c => (flags.memberCode c).map CharSet.single
  | .range first last => do
    return ⟨[⟨← flags.memberCode first, ← flags.memberCode last⟩]⟩
  | .ascii kind isNegated => flags.negated isNegated (flags.folded kind.members)
  | .shorthand kind isNegated => flags.shorthandSet kind isNegated
  | .query q isNegated => flags.querySet q isNegated
  | .bracket isNegated body => do flags.negated isNegated (flags.folded (← body.meaning flags))
  | .union parts => (SetTree.meanings flags parts).map CharSet.unionAll
  | .operation op left right => do
    return op.apply (flags.folded (← left.meaning flags)) (flags.folded (← right.meaning flags))

def SetTree.meanings (flags : Flags) : List SetTree → Except Cause (List CharSet)
  | [] => .ok []
  | part :: parts => do return (← part.meaning flags) :: (← SetTree.meanings flags parts)

end

namespace Flags

/-- What a literal means. -/
def literal (flags : Flags) (c : Literal) : Except Cause Expr :=
  if !flags.unicode && c.isByte && 0x80 ≤ c.char.toNat then .error .notText
  else
    let s := CharSet.single c.char.toNat
    .ok (.ofSet (if flags.unicode || s.isAscii then flags.folded s else s))

/-- What the dot means: any character, or any but those that end lines. -/
def dot (flags : Flags) : Except Cause Expr :=
  if !flags.unicode then .error .notText
  else if flags.dotAll then .ok (.ofSet .all)
  else
    .ok (.ofSet (CharSet.ofCodes
      (if flags.carriageReturns then [0xA, 0xD] else [0xA])).complement)

/-- What a condition on a place means. -/
def look (flags : Flags) : Assertion → Look
  | .caret => if flags.multiline then .lineStart flags.carriageReturns else .textStart
  | .dollar => if flags.multiline then .lineEnd flags.carriageReturns else .textEnd
  | .textStart => .textStart
  | .textEnd => .textEnd
  | .wordEdge => .word .edge flags.unicode
  | .notWordEdge => .word .notEdge flags.unicode
  | .wordStart => .word .start flags.unicode
  | .wordEnd => .word .finish flags.unicode
  | .wordStartHalf => .word .startHalf flags.unicode
  | .wordEndHalf => .word .finishHalf flags.unicode

end Flags

mutual

/-- What a tree means under flags, and the flags after it. -/
def Tree.meaning (flags : Flags) : Tree → Except Cause (Expr × Flags)
  | .empty => .ok (.empty, flags)
  | .flags changes => .ok (.empty, flags.change changes)
  | .literal c => do return (← flags.literal c, flags)
  | .dot => do return (← flags.dot, flags)
  | .assertion a => .ok (.look (flags.look a), flags)
  | .shorthand kind isNegated => do return (.ofSet (← flags.shorthandSet kind isNegated), flags)
  | .query q isNegated => do return (.ofSet (← flags.querySet q isNegated), flags)
  | .bracket isNegated body => do
    let s ← flags.negated isNegated (flags.folded (← body.meaning flags))
    return (.ofSet s, flags)
  | .repetition least most lazy body => do
    let (e, flags) ← body.meaning flags
    return (.repeated least most (lazy != flags.swapGreed) e, flags)
  | .capture index body => do
    let (e, _) ← body.meaning flags
    return (.capture index e, flags)
  | .scope changes body => do
    let (e, _) ← body.meaning (flags.change changes)
    return (e, flags)
  | .alternatives arms => do
    let (es, flags) ← Tree.meanings flags [] arms
    return (.inChoice es, flags)
  | .sequence items => do
    let (es, flags) ← Tree.meanings flags [] items
    return (.inSequence es, flags)

/-- What trees mean one after the other, behind what those before them mean, the
last first. -/
def Tree.meanings (flags : Flags) (before : List Expr) :
    List Tree → Except Cause (List Expr × Flags)
  | [] => .ok (before.reverse, flags)
  | item :: items => do
    let (e, flags) ← item.meaning flags
    Tree.meanings flags (e :: before) items

end

/-- The regular expression that a tree means. -/
def Expr.ofTree? (tree : Tree) : Except Cause Expr :=
  (tree.meaning .standard).map Prod.fst

end GraphWarden.Pattern
