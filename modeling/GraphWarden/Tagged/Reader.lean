import GraphWarden.Tagged.Basic

/-!
# Reading tagged data

Each reader takes a datum in which the entries of objects are in key order and no
key repeats (`Json.normalized`), and answers what it spells out, or `none` when it
is not of the form that the kind is shown in.  Entries with other keys are passed
over, and a part that may be missing may also be null.  A record may also be given as
the list of its parts in order, of which the last ones may be missing.
-/

namespace GraphWarden

namespace Json

/-- What an object holds under a key. -/
def under? (key : String) : Json → Option Json
  | .object entries => Entries.find? key entries
  | _ => none

/-- A part that has to be there. -/
def needed? {α : Type} (key : String) (read : Json → Option α) (j : Json) : Option α :=
  (under? key j).bind read

/-- A part that may be missing or null. -/
def optional? {α : Type} (key : String) (read : Json → Option α) (j : Json) :
    Option (Option α) :=
  match under? key j with
  | none | some .null => some none
  | some part => (read part).map some

/-- A text. -/
def asText? : Json → Option String
  | .text s => some s
  | _ => none

/-- A truth value. -/
def asFlag? : Json → Option Bool
  | .flag b => some b
  | _ => none

/-- A number of things, which fits 64 bits. -/
def asCount? : Json → Option Nat
  | .int i => if 0 ≤ i ∧ i ≤ Word.natMax then some i.toNat else none
  | _ => none

/-- A list, item by item. -/
def asList? {α : Type} (read : Json → Option α) : Json → Option (List α)
  | .list items => items.mapM read
  | _ => none

/-- The entries of an object, one by one. -/
def asEntries? {α : Type} (read : Json → Option α) : Json → Option (Entries α)
  | .object entries => entries.mapM fun e => (read e.2).map fun x => (e.1, x)
  | _ => none

/-- A list that is empty when it is missing. -/
def listUnder? {α : Type} (key : String) (read : Json → Option α) (j : Json) :
    Option (List α) :=
  match under? key j with
  | none => some []
  | some part => asList? read part

/-- A record with the names of its parts, given with names or in their order. -/
def asRecord? (names : List String) : Json → Option Json
  | .object entries => some (.object entries)
  | .list items =>
    if items.length ≤ names.length then some (.object (names.zip items)) else none
  | _ => none

/-- The name of a kind that has no body. -/
def asName? : Json → Option String
  | .text s => some s
  | .object [(s, .null)] => some s
  | _ => none

end Json

namespace Value

mutual

/-- The value of a tagged form. -/
def ofTagged? : Json → Option Value
  | .object [(kind, .list items)] =>
    if kind = "List" then (ofTaggedItems? items).map .list else none
  | .object [(kind, .object entries)] =>
    if kind = "Object" then (ofTaggedEntries? entries).map fun es => .object (Entries.ofList es)
    else none
  | .object [(kind, .int i)] =>
    if kind = "Int" then if Word.fits i then some (.int i) else none
    else if kind = "Float" then some (.float (Binary64.ofInt i))
    else none
  | .object [(kind, .float x)] => if kind = "Float" then some (.float x) else none
  | .object [(kind, .flag b)] => if kind = "Boolean" then some (.flag b) else none
  | .object [(kind, .text s)] =>
    if kind = "String" then some (.text s)
    else if kind = "Enum" then some (.enum s)
    else if kind = "Variable" then some (.variable s)
    else none
  | j => if j.asName? = some "Null" then some .null else none

def ofTaggedItems? : List Json → Option (List Value)
  | [] => some []
  | j :: js => do
    let v ← ofTagged? j
    let vs ← ofTaggedItems? js
    some (v :: vs)

def ofTaggedEntries? : List (String × Json) → Option (Entries Value)
  | [] => some []
  | (key, j) :: es => do
    let v ← ofTagged? j
    let vs ← ofTaggedEntries? es
    some ((key, v) :: vs)

end

end Value

namespace Filter

/-- The comparison that the body of a tagged form spells out. -/
def comparisonOfTagged? (body : Json) : Option Filter := do
  let field ← body.needed? "field" Json.asText?
  let op ← body.needed? "op" fun j => j.asName?.bind Comparison.ofName?
  let operand ← body.needed? "value" Value.ofTagged?
  some (.compare field op operand)

mutual

/-- The filter of a tagged form. -/
def ofTagged? : Json → Option Filter
  | .object [(kind, .object body)] =>
    if kind = "compare" then comparisonOfTagged? (.object body)
    else if kind = "edge" then do
      let field ← (Json.object body).needed? "field" Json.asText?
      let inner ← underOfTagged? body
      some (.edge field inner)
    else if kind = "not" then (ofTagged? (.object body)).map .not
    else none
  | .object [(kind, .list items)] =>
    if kind = "and" then (partsOfTagged? items).map .all
    else if kind = "or" then (partsOfTagged? items).map .any
    else if kind = "ids" then (items.mapM Json.asText?).map .ids
    else none
  | .object [(kind, .text s)] =>
    if kind = "has" then some (.has s)
    else if kind = "type_is" then some (.isType s)
    else if kind = "not" then if s = "nothing" then some (.not .nothing) else none
    else none
  | j => if j.asName? = some "nothing" then some .nothing else none

def partsOfTagged? : List Json → Option (List Filter)
  | [] => some []
  | j :: js => do
    let f ← ofTagged? j
    let fs ← partsOfTagged? js
    some (f :: fs)

/-- The filter under the key that says so. -/
def underOfTagged? : List (String × Json) → Option Filter
  | [] => none
  | (key, j) :: es => if key = "filter" then ofTagged? j else underOfTagged? es

end

end Filter

namespace Selection

/-- The parts of a selection, in order. -/
def parts : List String := ["name", "alias", "target_type", "filter", "selections"]

/-- The selection of a data form, given the selections below. -/
def ofParts? (j : Json) (selections : List Selection) : Option Selection := do
  let name ← j.needed? "name" Json.asText?
  let label ← j.optional? "alias" Json.asText?
  let targetType ← j.optional? "target_type" Json.asText?
  let filter ← j.optional? "filter" Filter.ofTagged?
  some { name, label, targetType, filter, selections }

mutual

/-- The selection of a data form. -/
def ofTagged? : Json → Option Selection
  | .object entries => (underOfTagged? entries).bind (ofParts? (.object entries))
  | .list items => do
    let j ← (Json.list items).asRecord? parts
    (lastOfTagged? 4 items).bind (ofParts? j)
  | _ => none

/-- The selections below, which are the part after so many. -/
def lastOfTagged? : Nat → List Json → Option (List Selection)
  | _, [] => some []
  | 0, .list items :: _ => allOfTagged? items
  | 0, _ :: _ => none
  | n + 1, _ :: js => lastOfTagged? n js

/-- The selections below. -/
def underOfTagged? : List (String × Json) → Option (List Selection)
  | [] => some []
  | (key, .list items) :: es =>
    if key = "selections" then allOfTagged? items else underOfTagged? es
  | (key, _) :: es => if key = "selections" then none else underOfTagged? es

def allOfTagged? : List Json → Option (List Selection)
  | [] => some []
  | j :: js => do
    let s ← ofTagged? j
    let ss ← allOfTagged? js
    some (s :: ss)

end

end Selection

/-- The query of a data form. -/
def Query.ofTagged? (j : Json) : Option Query := do
  let j ← j.asRecord? ["type_name", "filter", "selections", "first"]
  let typeName ← j.needed? "type_name" Json.asText?
  let filter ← j.optional? "filter" Filter.ofTagged?
  let selections ← j.listUnder? "selections" Selection.ofTagged?
  let first ← j.optional? "first" Json.asCount?
  some { typeName, filter, selections, first }

/-- The probe of a data form. -/
def Probe.ofTagged? (j : Json) : Option Probe := do
  let j ← j.asRecord? ["type_name", "filter", "candidates", "limit"]
  let typeName ← j.needed? "type_name" Json.asText?
  let filter ← j.needed? "filter" Filter.ofTagged?
  let candidates ← j.optional? "candidates" (Json.asList? Json.asText?)
  let limit ← j.optional? "limit" Json.asCount?
  some { typeName, filter, candidates, limit }

namespace Rule.Declaration

mutual

/-- The declared rule of a tagged form. -/
def ofTagged? : Json → Option Rule.Declaration
  | .object [(kind, .text s)] => if kind = "rule" then some (.rule s) else none
  | .object [(kind, .list items)] =>
    if kind = "and" then (allOfTagged? items).map .all
    else if kind = "or" then (allOfTagged? items).map .any
    else none
  | .object [(kind, .object body)] =>
    if kind = "not" then (ofTagged? (.object body)).map .not else none
  | _ => none

def allOfTagged? : List Json → Option (List Rule.Declaration)
  | [] => some []
  | j :: js => do
    let d ← ofTagged? j
    let ds ← allOfTagged? js
    some (d :: ds)

end

end Rule.Declaration

/-- The kind of types of a name. -/
def TypeKind.ofTagged? (j : Json) : Option TypeKind := do
  let name ← j.asName?
  [TypeKind.object, .interface, .union].find? fun kind => kind.name == name

/-- The rules declared on a type, of a data form. -/
def Slots.ofTagged? (j : Json) : Option (Slots Rule.Declaration) := do
  let j ← j.asRecord? (Operation.every.map Operation.name)
  Operation.every.foldlM (fun rules op => do
    match ← j.optional? op.name Rule.Declaration.ofTagged? with
    | none => some rules
    | some d => some (rules.put op d)) Slots.empty

/-- The declared type of a data form. -/
def TypeDefinition.ofTagged? (j : Json) : Option TypeDefinition := do
  let j ← j.asRecord? ["name", "kind", "implements", "members", "auth"]
  let name ← j.needed? "name" Json.asText?
  let kind ← j.needed? "kind" TypeKind.ofTagged?
  let interfaces ← j.listUnder? "implements" Json.asText?
  let members ← j.listUnder? "members" Json.asText?
  let rules ← j.optional? "auth" Slots.ofTagged?
  some { name, kind, interfaces, members, rules }

/-- The descriptor of a data form. -/
def Descriptor.ofTagged? (j : Json) : Option Descriptor := do
  match ← j.asRecord? Descriptor.keys with
  | .object entries => (Descriptor.ofEntries entries).toOption
  | _ => none

/-- The declared schema of a data form. -/
def SchemaDefinition.ofTagged? (j : Json) : Option SchemaDefinition := do
  let j ← j.asRecord? ["types", "auth_mode"]
  let types ← j.needed? "types" (Json.asList? TypeDefinition.ofTagged?)
  let descriptor ← j.optional? "auth_mode" Descriptor.ofTagged?
  some { types, descriptor }

mutual

/-- The claim of a data form. -/
def Claim.ofTagged? : Json → Option Claim
  | .list items => (Claim.itemsOfTagged? items).map .list
  | j => Claim.ofScalar? j

def Claim.itemsOfTagged? : List Json → Option (List Claim)
  | [] => some []
  | j :: js => do
    let c ← Claim.ofTagged? j
    let cs ← Claim.itemsOfTagged? js
    some (c :: cs)

end

/-- The claims of a data form. -/
def Claims.ofTagged? (j : Json) : Option Claims := do
  let j ← j.asRecord? ["claims"]
  let entries ← j.needed? "claims" (Json.asEntries? Claim.ofTagged?)
  some ⟨Keyed.ofList entries⟩

/-- The outcome of a tagged form. -/
def Visibility.ofTagged? (j : Json) : Option Visibility := do
  let kind ← j.needed? "outcome" Json.asText?
  if kind = "unrestricted" then some .unrestricted
  else if kind = "denied" then some .denied
  else if kind = "restricted" then (j.needed? "filter" Filter.ofTagged?).map .restricted
  else none

end GraphWarden
