import GraphWarden.Graphql.Literal

/-!
# Query documents

The text of a rule is a query document.  Of a document only what a rule can use
is kept: which variables a query declares, and of each selected field the name,
the arguments and the selections.  Aliases, directives, the types of variables
and the bodies of fragments are checked and dropped.
-/

namespace GraphWarden.Graphql

/-- An item of a selection set. -/
inductive Selected where
  | field (name : String) (arguments : List (String × Value)) (selections : List Selected)
  | fragment

/-- A definition of a document. -/
inductive Definition where
  | query (declared : List String) (selections : List Selected)
  | otherOperation
  | fragment

/-- A selection set, read by `inner` and not empty, when one follows. -/
def selections? (inner : Reads Selected) : Reads (List Selected)
  | .group .curly items :: rest => (everyOne inner items).map fun s => (s, rest)
  | rest => some ([], rest)

/-- A selection set, read by `inner` and not empty. -/
def selectionSet? (inner : Reads Selected) : Reads (List Selected)
  | .group .curly items :: rest => (everyOne inner items).map fun s => (s, rest)
  | _ => none

/-- A field, after its own name. -/
def fieldRest? (inner : Reads Selected) (name : String) : Reads Selected := fun ts => do
  let (arguments, ts) ← arguments? ts
  let (_, ts) ← directives? ts
  let (selections, ts) ← selections? inner ts
  some (.field name arguments selections, ts)

/-- A fragment spread or an inline fragment, after the dots. -/
def fragmentRest? (inner : Reads Selected) : Reads Selected
  | .leaf (.name "on") :: .leaf (.name _) :: ts => inlineRest ts
  | .leaf (.name "on") :: _ => none
  | .leaf (.name _) :: ts => (directives? ts).map fun r => (.fragment, r.2)
  | ts => inlineRest ts
where
  /-- The directives and selections of an inline fragment. -/
  inlineRest (ts : List Tree) : Option (Selected × List Tree) := do
    let (_, ts) ← directives? ts
    let (_, ts) ← selectionSet? inner ts
    some (.fragment, ts)

/-- An item of a selection set with at most so many levels below it. -/
def selected? : Nat → Reads Selected
  | depth + 1, .leaf .spread :: ts => fragmentRest? (selected? depth) ts
  | depth + 1, .leaf (.name _) :: .leaf (.mark ':') :: .leaf (.name n) :: ts =>
    fieldRest? (selected? depth) n ts
  | depth + 1, .leaf (.name n) :: ts => fieldRest? (selected? depth) n ts
  | _, _ => none

/-- The declaration of a variable. -/
def variableDeclaration? : Reads String
  | .leaf (.mark '$') :: .leaf (.name n) :: .leaf (.mark ':') :: ts => do
    let ts ← typeReference? nestingLimit ts
    let ts ← defaultValue? ts
    some (n, ts)
  | _ => none

/-- An operation, after the word that says which. -/
def operationRest? : Reads (List String × List Selected) := fun ts => do
  let ts := match ts with
    | .leaf (.name _) :: ts => ts
    | ts => ts
  let (declared, ts) ← match ts with
    | .group .round items :: ts => (everyOne variableDeclaration? items).map fun vs => (vs, ts)
    | ts => some ([], ts)
  let (_, ts) ← directives? ts
  let (selections, ts) ← selectionSet? (selected? nestingLimit) ts
  some ((declared, selections), ts)

/-- A definition. -/
def definition? : Reads Definition
  | .leaf (.name "fragment") :: .leaf (.name _) :: .leaf (.name "on") :: .leaf (.name _) :: ts => do
    let (_, ts) ← directives? ts
    let (_, ts) ← selectionSet? (selected? nestingLimit) ts
    some (.fragment, ts)
  | .leaf (.name word) :: ts =>
    if word = "query" then
      (operationRest? ts).map fun r => (.query r.1.1 r.1.2, r.2)
    else if word = "mutation" || word = "subscription" then
      (operationRest? ts).map fun r => (.otherOperation, r.2)
    else none
  | ts => (selectionSet? (selected? nestingLimit) ts).map fun r => (.query [] r.1, r.2)

/-- The definitions of a document, at least one; `none` when the text is no query
document. -/
def document? (s : String) : Option (List Definition) :=
  (read? s).bind (everyOne definition?)

end GraphWarden.Graphql
