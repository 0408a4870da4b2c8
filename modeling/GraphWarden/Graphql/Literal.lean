import GraphWarden.Graphql.Bracket
import GraphWarden.Value.Basic

/-!
# Literals

A literal is a value written out: a scalar, a variable, a list of literals, or an
object of named literals.  Commas never count, so a list is its items one after
another, and the arguments of a field are read like the entries of an object.
-/

namespace GraphWarden.Graphql

/-- The value that one word spells. -/
def Token.scalar? : Token → Option Value
  | .int i => some (.int i)
  | .float x => some (.float x)
  | .text s => some (.text s)
  | .name s =>
    some (if s = "true" then .flag true else if s = "false" then .flag false
      else if s = "null" then .null else .enum s)
  | .mark _ | .spread | .opening _ | .closing _ => none

mutual

/-- The literals of a list. -/
def literals? : List Tree → Option (List Value)
  | [] => some []
  | .leaf (.mark '$') :: .leaf (.name n) :: rest => do
    let vs ← literals? rest
    some (.variable n :: vs)
  | .leaf t :: rest => do
    let v ← t.scalar?
    let vs ← literals? rest
    some (v :: vs)
  | .group .square items :: rest => do
    let inner ← literals? items
    let vs ← literals? rest
    some (.list inner :: vs)
  | .group .curly items :: rest => do
    let inner ← entries? items
    let vs ← literals? rest
    some (.object (Entries.ofList inner) :: vs)
  | .group .round _ :: _ => none

/-- The named literals of an object or an argument list, as they are written. -/
def entries? : List Tree → Option (List (String × Value))
  | [] => some []
  | .leaf (.name k) :: .leaf (.mark ':') :: .leaf (.mark '$') :: .leaf (.name n) :: rest => do
    let es ← entries? rest
    some ((k, .variable n) :: es)
  | .leaf (.name k) :: .leaf (.mark ':') :: .leaf t :: rest => do
    let v ← t.scalar?
    let es ← entries? rest
    some ((k, v) :: es)
  | .leaf (.name k) :: .leaf (.mark ':') :: .group .square items :: rest => do
    let inner ← literals? items
    let es ← entries? rest
    some ((k, .list inner) :: es)
  | .leaf (.name k) :: .leaf (.mark ':') :: .group .curly items :: rest => do
    let inner ← entries? items
    let es ← entries? rest
    some ((k, .object (Entries.ofList inner)) :: es)
  | _ => none

end

/-- A literal without variables. -/
def constant? : Reads Value
  | .leaf t :: rest => t.scalar?.map fun v => (v, rest)
  | .group .square items :: rest => do
    let vs ← literals? items
    if (Value.occurrencesItems vs).isEmpty then some (.list vs, rest) else none
  | .group .curly items :: rest => do
    let es ← entries? items
    if (Value.occurrencesEntries es).isEmpty then some (.object (Entries.ofList es), rest) else none
  | _ => none

/-- Named literals in round brackets, at least one; nothing when there are no
round brackets. -/
def arguments? : Reads (List (String × Value))
  | .group .round items :: rest =>
    if items.isEmpty then none else (entries? items).map fun es => (es, rest)
  | rest => some ([], rest)

/-- A directive on a field or a definition. -/
structure Directive where
  name : String
  /-- The arguments as they are written, repeats included. -/
  arguments : List (String × Value)

/-- The directives at the front of a list of at most `fuel` trees. -/
def directivesWithin : (fuel : Nat) → Reads (List Directive)
  | fuel + 1, .leaf (.mark '@') :: .leaf (.name n) :: rest => do
    let (arguments, rest) ← arguments? rest
    let (others, rest) ← directivesWithin fuel rest
    some (⟨n, arguments⟩ :: others, rest)
  | _, rest => some ([], rest)

/-- The directives at the front of a list of trees. -/
def directives? : Reads (List Directive) := fun ts =>
  directivesWithin ts.length ts

/-- A type reference: a name or a list of a type, either perhaps required. -/
def typeReference? : Nat → List Tree → Option (List Tree)
  | _, .leaf (.name _) :: .leaf (.mark '!') :: rest => some rest
  | _, .leaf (.name _) :: rest => some rest
  | depth + 1, .group .square items :: rest =>
    match typeReference? depth items, rest with
    | some [], .leaf (.mark '!') :: rest => some rest
    | some [], rest => some rest
    | _, _ => none
  | _, _ => none

/-- The value after an equals sign, when there is one. -/
def defaultValue? : List Tree → Option (List Tree)
  | .leaf (.mark '=') :: rest => (constant? rest).map Prod.snd
  | rest => some rest

end GraphWarden.Graphql
