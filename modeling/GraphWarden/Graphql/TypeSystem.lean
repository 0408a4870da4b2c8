import GraphWarden.Graphql.Literal

/-!
# Type system documents

A schema text defines types, and may define or extend other things.  Kept are the
definitions of object types, interfaces and unions: the name, the interfaces or
members, and the directives.  Everything else is checked and dropped.
-/

namespace GraphWarden.Graphql

/-- What a kept definition defines. -/
inductive Shape where
  | object (interfaces : List String)
  | interface (interfaces : List String)
  | union (members : List String)

/-- A kept definition. -/
structure TypeDeclaration where
  name : String
  shape : Shape
  directives : List Directive

/-- Drop a description, when there is one. -/
def skipDescription : List Tree → List Tree
  | .leaf (.text _) :: ts => ts
  | ts => ts

/-- Names with a mark between each two, after the first of at most `fuel`. -/
def namesRest (separator : Char) : (fuel : Nat) → Reads (List String)
  | fuel + 1, .leaf (.mark c) :: ts =>
    if c = separator then
      match ts with
      | .leaf (.name n) :: ts => do
        let (ns, ts) ← namesRest separator fuel ts
        some (n :: ns, ts)
      | _ => none
    else some ([], .leaf (.mark c) :: ts)
  | _, ts => some ([], ts)

/-- Names with a mark between each two, and perhaps one more in front. -/
def names? (separator : Char) : Reads (List String) := fun ts =>
  let ts := match ts with
    | .leaf (.mark c) :: rest => if c = separator then rest else ts
    | ts => ts
  match ts with
  | .leaf (.name n) :: ts => do
    let (ns, ts) ← namesRest separator ts.length ts
    some (n :: ns, ts)
  | _ => none

/-- The interfaces that a type implements. -/
def interfaces? : Reads (List String)
  | .leaf (.name "implements") :: ts => names? '&' ts
  | ts => some ([], ts)

/-- An argument of a field or a directive, or a field of an input type. -/
def inputValue? : Reads Unit := fun ts =>
  match skipDescription ts with
  | .leaf (.name _) :: .leaf (.mark ':') :: ts => do
    let ts ← typeReference? nestingLimit ts
    let ts ← defaultValue? ts
    let (_, ts) ← directives? ts
    some ((), ts)
  | _ => none

/-- Drop declared arguments in round brackets, of which there is at least one; they
may be missing. -/
def skipArguments? : List Tree → Option (List Tree)
  | .group .round items :: ts => (everyOne inputValue? items).map fun _ => ts
  | ts => some ts

/-- A field of an object type or an interface. -/
def fieldDefinition? : Reads Unit := fun ts =>
  match skipDescription ts with
  | .leaf (.name _) :: ts => do
    match ← skipArguments? ts with
    | .leaf (.mark ':') :: ts => do
      let ts ← typeReference? nestingLimit ts
      let (_, ts) ← directives? ts
      some ((), ts)
    | _ => none
  | _ => none

/-- A value of an enum type. -/
def enumValue? : Reads Unit := fun ts =>
  match skipDescription ts with
  | .leaf (.name _) :: ts => (directives? ts).map fun r => ((), r.2)
  | _ => none

/-- A root operation in the definition of the schema, with its name. -/
def rootOperation? : Reads String
  | .leaf (.name n) :: .leaf (.mark ':') :: .leaf (.name _) :: ts =>
    if n = "query" || n = "mutation" || n = "subscription" then some (n, ts) else none
  | _ => none

/-- The places where a directive may stand. -/
def directivePlaces : List String :=
  ["QUERY", "MUTATION", "SUBSCRIPTION", "FIELD", "FRAGMENT_DEFINITION", "FRAGMENT_SPREAD",
    "INLINE_FRAGMENT", "VARIABLE_DEFINITION", "SCHEMA", "SCALAR", "OBJECT", "FIELD_DEFINITION",
    "ARGUMENT_DEFINITION", "INTERFACE", "UNION", "ENUM", "ENUM_VALUE", "INPUT_OBJECT",
    "INPUT_FIELD_DEFINITION"]

/-- What may follow the name of a type in its definition or in an extension of it:
interfaces, directives, and fields, values or members. -/
structure Additions where
  interfaces : List String := []
  directives : List Directive := []
  /-- The members of a union. -/
  members : List String := []
  /-- Whether fields or values are listed. -/
  hasBody : Bool := false

/-- Whether they are enough for an extension, which adds something.  The interfaces of
an interface are not counted. -/
def Additions.suffice (a : Additions) (word : String) : Bool :=
  !a.directives.isEmpty || a.hasBody || !a.members.isEmpty
    || (word = "type" && !a.interfaces.isEmpty)

/-- A bracketed list of `item`s, which is not empty, and whether there is one. -/
def body? {α : Type} (item : Reads α) : Reads Bool
  | .group .curly items :: ts => (everyOne item items).map fun _ => (true, ts)
  | ts => some (false, ts)

/-- The members of a union, after an equals sign. -/
def members? : Reads (List String)
  | .leaf (.mark '=') :: ts => names? '|' ts
  | ts => some ([], ts)

/-- What follows the name of a type of the kind that a word says. -/
def additions? (word : String) : Reads Additions := fun ts =>
  if word = "type" || word = "interface" then do
    let (interfaces, ts) ← interfaces? ts
    let (directives, ts) ← directives? ts
    let (hasBody, ts) ← body? fieldDefinition? ts
    some ({ interfaces, directives, hasBody }, ts)
  else if word = "union" then do
    let (directives, ts) ← directives? ts
    let (members, ts) ← members? ts
    some ({ directives, members }, ts)
  else if word = "scalar" then do
    let (directives, ts) ← directives? ts
    some ({ directives }, ts)
  else if word = "enum" then do
    let (directives, ts) ← directives? ts
    let (hasBody, ts) ← body? enumValue? ts
    some ({ directives, hasBody }, ts)
  else if word = "input" then do
    let (directives, ts) ← directives? ts
    let (hasBody, ts) ← body? inputValue? ts
    some ({ directives, hasBody }, ts)
  else none

/-- The shape of a type of the kind that a word says, when it is kept. -/
def Additions.shape? (a : Additions) (word : String) : Option Shape :=
  if word = "type" then some (.object a.interfaces)
  else if word = "interface" then some (.interface a.interfaces)
  else if word = "union" then some (.union a.members)
  else none

/-- The definition of a type, kept or not. -/
def typeDefinition? : Reads (Option TypeDeclaration)
  | .leaf (.name word) :: .leaf (.name n) :: ts => do
    let (a, ts) ← additions? word ts
    some ((a.shape? word).map fun shape => ⟨n, shape, a.directives⟩, ts)
  | _ => none

/-- An extension of a type, after its first word; it adds something. -/
def typeExtension? : List Tree → Option (List Tree)
  | .leaf (.name word) :: .leaf (.name _) :: ts => do
    let (a, ts) ← additions? word ts
    if a.suffice word then some ts else none
  | _ => none

/-- The definition of a directive, after its first word.  The list of its places may
be empty. -/
def directiveDefinition? : List Tree → Option (List Tree)
  | .leaf (.mark '@') :: .leaf (.name _) :: ts => do
    let ts ← skipArguments? ts
    let ts := match ts with
      | .leaf (.name "repeatable") :: rest => rest
      | ts => ts
    match ts with
    | .leaf (.name "on") :: .leaf (.name n) :: ts => do
      let (places, ts) ← namesRest '|' ts.length ts
      if (n :: places).all directivePlaces.contains then some ts else none
    | .leaf (.name "on") :: ts => some ts
    | _ => none
  | _ => none

/-- The definition of the schema, after its first word. -/
def schemaDefinition? : List Tree → Option (List Tree) := fun ts => do
  let (_, ts) ← directives? ts
  match ts with
  | .group .curly items :: ts => do
    let roots ← every rootOperation? items
    if roots.Nodup then some ts else none
  | _ => none

/-- A definition of a schema text, kept or not. -/
def systemDefinition? : Reads (Option TypeDeclaration)
  | .leaf (.name "schema") :: ts => (schemaDefinition? ts).map fun ts => (none, ts)
  | .leaf (.name "extend") :: ts => (typeExtension? ts).map fun ts => (none, ts)
  | ts =>
    match skipDescription ts with
    | .leaf (.name "directive") :: ts => (directiveDefinition? ts).map fun ts => (none, ts)
    | ts => typeDefinition? ts

/-- The kept definitions of a schema text, in order; `none` when the text is no
type system document. -/
def typeSystem? (s : String) : Option (List TypeDeclaration) :=
  ((read? s).bind (everyOne systemDefinition?)).map (List.filterMap id)

end GraphWarden.Graphql
