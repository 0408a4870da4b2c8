import GraphWarden.Json.Reader
import GraphWarden.Text.Blank

/-!
# The authorization descriptor

A schema may say in one comment line how tokens are verified:

    # Authorization {"Header":"X-App-Auth","Namespace":"ns","Algo":"HS256","VerificationKey":"k"}

The line is the marker, a blank and an object.  Of the descriptor the namespace
decides where claims are read from, and `closedByDefault` whether anonymous
requests are refused everywhere; the rest is for whoever verifies tokens, but it
has to be consistent.
-/

namespace GraphWarden

/-- How the tokens of a schema's requests are verified. -/
structure Descriptor where
  /-- The request header that carries the token. -/
  header : String
  /-- The key of the token payload under which the claims are. -/
  claimsKey : String
  algorithm : Option String
  verificationKey : Option String
  keySetUrl : Option String
  audience : List String
  /-- Whether anonymous requests are denied on every type. -/
  closedByDefault : Bool

namespace Descriptor

/-- Why a descriptor is not accepted. -/
inductive Flaw where
  | unreadable (fault : Json.Fault)
  | noHeader
  | noNamespace
  | twoKeys
  | noKey
  | unknownAlgorithm (name : String)
  | noAudience
deriving DecidableEq, Repr

/-- The algorithms that a verification key may be for. -/
def algorithms : List String := ["HS256", "RS256"]

/-- The wording of a flaw. -/
def Flaw.message : Flaw → String
  | .unreadable fault => fault.message
  | .noHeader => "Header is required"
  | .noNamespace => "Namespace is required"
  | .twoKeys => "VerificationKey and JWKURL are mutually exclusive"
  | .noKey => "one of VerificationKey or JWKURL is required"
  | .unknownAlgorithm name =>
    "unsupported Algo '" ++ name ++ "', expected one of ["
      ++ String.intercalate ", " (algorithms.map Json.quoted) ++ "]"
  | .noAudience => "Audience is required with JWKURL"

/-- The first flaw of a descriptor, if it has one. -/
def flaw? (d : Descriptor) : Option Flaw :=
  if d.header.isEmpty then some .noHeader
  else if d.claimsKey.isEmpty then some .noNamespace
  else
    match d.verificationKey, d.keySetUrl with
    | some _, some _ => some .twoKeys
    | none, none => some .noKey
    | some _, none =>
      let name := d.algorithm.getD ""
      if algorithms.contains name then none else some (.unknownAlgorithm name)
    | none, some _ => if d.audience.isEmpty then some .noAudience else none

/-- What an object holds under a key, which it may name only once. -/
def sole (key : String) (entries : List (String × Json)) : Except Json.Cause (Option Json) :=
  match entries.filter fun e => e.1 == key with
  | [] => .ok none
  | [(_, j)] => .ok (some j)
  | _ => .error (.duplicateField key)

/-- A text that must be there. -/
def requiredText (key : String) (entries : List (String × Json)) : Except Json.Cause String := do
  match ← sole key entries with
  | some (.text s) => .ok s
  | some _ => .error (.wrongKind key)
  | none => .error (.missingField key)

/-- A text that may be missing or null. -/
def optionalText (key : String) (entries : List (String × Json)) :
    Except Json.Cause (Option String) := do
  match ← sole key entries with
  | some (.text s) => .ok (some s)
  | some .null | none => .ok none
  | some _ => .error (.wrongKind key)

/-- A list of texts; no texts when it is missing. -/
def textList (key : String) (entries : List (String × Json)) :
    Except Json.Cause (List String) := do
  match ← sole key entries with
  | none => .ok []
  | some (.list items) =>
    items.mapM fun
      | .text s => .ok s
      | _ => .error (.wrongKind key)
  | some _ => .error (.wrongKind key)

/-- A truth value; false when it is missing. -/
def truthValue (key : String) (entries : List (String × Json)) : Except Json.Cause Bool := do
  match ← sole key entries with
  | none => .ok false
  | some (.flag b) => .ok b
  | some _ => .error (.wrongKind key)

/-- The keys of a descriptor, in order. -/
def keys : List String :=
  ["Header", "Namespace", "Algo", "VerificationKey", "JWKURL", "Audience", "ClosedByDefault"]

/-- The descriptor that an object spells out; unknown keys are passed over. -/
def ofEntries (entries : List (String × Json)) : Except Json.Cause Descriptor := do
  let header ← requiredText "Header" entries
  let claimsKey ← requiredText "Namespace" entries
  let algorithm ← optionalText "Algo" entries
  let verificationKey ← optionalText "VerificationKey" entries
  let keySetUrl ← optionalText "JWKURL" entries
  let audience ← textList "Audience" entries
  let closedByDefault ← truthValue "ClosedByDefault" entries
  .ok { header, claimsKey, algorithm, verificationKey, keySetUrl, audience, closedByDefault }

/-- The marker of a descriptor line. -/
def marker : String := "# Authorization"

/-- The object text of a descriptor line. -/
def objectText? (line : List Char) : Option (List Char) := do
  let rest ← Text.after? marker.toList (Text.trim line)
  let body := Text.trimStart rest
  if rest.head?.any Text.isBlank && body.head? = some '{' then some (Text.trimEnd body) else none

/-- The descriptor that an object text writes.  Only the form of what stands under
other keys is checked. -/
def ofObjectText (cs : List Char) : Except Flaw Descriptor :=
  match Json.entriesOfText? keys (String.ofList cs) with
  | .error fault => .error (.unreadable fault)
  | .ok entries =>
    match ofEntries entries with
    | .error cause => .error (.unreadable (Json.faultAt cs (cause, [])))
    | .ok d =>
      match d.flaw? with
      | some flaw => .error flaw
      | none => .ok d

/-- The descriptor of the first descriptor line of a schema text, if there is one. -/
def ofSchemaText (s : String) : Except Flaw (Option Descriptor) :=
  match (Text.lines s.toList).findSome? objectText? with
  | none => .ok none
  | some cs => (ofObjectText cs).map some

end Descriptor

end GraphWarden
