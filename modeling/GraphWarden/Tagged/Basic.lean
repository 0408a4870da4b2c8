import GraphWarden.Schema.Compiled
import GraphWarden.Store.Basic
import GraphWarden.Visibility

/-!
# Tagged data

Values, filters, queries, rules, schemas and outcomes are shown to other programs
as data in which each thing comes with the name of its kind.  Parts that are
missing or empty are left out where their absence says the same.
-/

namespace GraphWarden

namespace Json

/-- An object of the entries that are there. -/
def record (entries : List (String × Option Json)) : Json :=
  .object (Entries.ofList (entries.filterMap fun e => e.2.map fun j => (e.1, j)))

/-- An object with one entry, whose key says what the datum is. -/
def tag (name : String) (j : Json) : Json :=
  .object [(name, j)]

/-- A list of texts. -/
def texts (ss : List String) : Json :=
  .list (ss.map .text)

/-- A list unless it is empty. -/
def unlessEmpty (items : List Json) : Option Json :=
  if items.isEmpty then none else some (.list items)

end Json

namespace Value

mutual

/-- The tagged form of a value. -/
def tagged : Value → Json
  | .null => .text "Null"
  | .int i => .tag "Int" (.int i)
  | .float x => .tag "Float" (if x.isFinite then .float x else .null)
  | .text s => .tag "String" (.text s)
  | .flag b => .tag "Boolean" (.flag b)
  | .enum s => .tag "Enum" (.text s)
  | .variable s => .tag "Variable" (.text s)
  | .list items => .tag "List" (.list (taggedItems items))
  | .object entries => .tag "Object" (.object (taggedEntries entries))

def taggedItems : List Value → List Json
  | [] => []
  | v :: vs => tagged v :: taggedItems vs

def taggedEntries : List (String × Value) → List (String × Json)
  | [] => []
  | (k, v) :: es => (k, tagged v) :: taggedEntries es

end

end Value

namespace Filter

mutual

/-- The tagged form of a filter. -/
def tagged : Filter → Json
  | .nothing => .text "nothing"
  | .compare field op operand =>
    .tag "compare" (.record [("field", some (.text field)), ("op", some (.text op.name)),
      ("value", some operand.tagged)])
  | .has field => .tag "has" (.text field)
  | .ids listed => .tag "ids" (.texts listed)
  | .isType name => .tag "type_is" (.text name)
  | .edge field inner =>
    .tag "edge" (.record [("field", some (.text field)), ("filter", some (tagged inner))])
  | .all parts => .tag "and" (.list (taggedParts parts))
  | .any parts => .tag "or" (.list (taggedParts parts))
  | .not inner => .tag "not" (tagged inner)

def taggedParts : List Filter → List Json
  | [] => []
  | f :: fs => tagged f :: taggedParts fs

end

end Filter

mutual

/-- The tagged form of a selected field of a template. -/
def Pick.tagged : Pick → Json
  | .field name filter picks =>
    .record [("field", some (.text name)), ("filter", filter.map Filter.tagged),
      ("selections", Json.unlessEmpty (taggedAll picks))]

def Pick.taggedAll : List Pick → List Json
  | [] => []
  | p :: ps => tagged p :: taggedAll ps

end

/-- The tagged form of a template. -/
def Template.tagged (t : Template) : Json :=
  .record [("root_type", some (.text t.rootType)), ("filter", t.filter.map Filter.tagged),
    ("selections", Json.unlessEmpty (Pick.taggedAll t.picks))]

/-- The tagged form of what a role rule asks. -/
def RoleTest.tagged : RoleTest → Json
  | .equal literal => .tag "eq" literal.tagged
  | .oneOf options => .tag "in" (.list (options.map Value.tagged))
  | .matching pattern => .tag "regexp" (.text pattern.source)

namespace Rule

mutual

/-- The tagged form of a rule. -/
def tagged : Rule → Json
  | .graph rule =>
    .record [("kind", some (.text "graph")), ("source", some (.text rule.source)),
      ("variables", some (.texts rule.declared)), ("template", some rule.template.tagged),
      ("filter", some ((rule.filter.map Filter.tagged).getD .null))]
  | .role rule =>
    .record [("kind", some (.text "role")), ("claim", some (.text rule.claim)),
      ("comparator", some rule.test.tagged)]
  | .combine op rules =>
    .record [("kind", some (.text "combinator")), ("op", some (.text op.name)),
      ("children", some (.list (taggedAll rules)))]

def taggedAll : List Rule → List Json
  | [] => []
  | r :: rs => tagged r :: taggedAll rs

end

end Rule

mutual

/-- The data form of a claim: a claim needs no tags. -/
def Claim.toJson : Claim → Json
  | .null => .null
  | .flag b => .flag b
  | .int i => .int i
  | .float x => .float x
  | .text s => .text s
  | .list items => .list (Claim.toJsonItems items)

def Claim.toJsonItems : List Claim → List Json
  | [] => []
  | c :: cs => Claim.toJson c :: Claim.toJsonItems cs

end

/-- The data form of claims: an object with an entry for each. -/
def Claims.toJson (cs : Claims) : Json :=
  .object (cs.byName.entries.map fun e => (e.1, e.2.toJson))

mutual

/-- The data form of a selection. -/
def Selection.tagged : Selection → Json
  | ⟨name, label, targetType, filter, selections⟩ =>
    .record [("name", some (.text name)), ("alias", label.map .text),
      ("target_type", targetType.map .text), ("filter", filter.map Filter.tagged),
      ("selections", Json.unlessEmpty (Selection.taggedAll selections))]

def Selection.taggedAll : List Selection → List Json
  | [] => []
  | s :: ss => Selection.tagged s :: Selection.taggedAll ss

end

/-- The data form of a query. -/
def Query.tagged (q : Query) : Json :=
  .record [("type_name", some (.text q.typeName)), ("filter", q.filter.map Filter.tagged),
    ("selections", some (.list (Selection.taggedAll q.selections))),
    ("first", q.first.map fun n => .int n)]

/-- The data form of a probe. -/
def Probe.tagged (p : Probe) : Json :=
  .record [("type_name", some (.text p.typeName)), ("filter", some p.filter.tagged),
    ("candidates", p.candidates.map Json.texts), ("limit", p.limit.map fun n => .int n)]

/-- The data form of what is reported of a node. -/
def Record.tagged (r : Record) : Json :=
  .record [("id", some (.text r.id)), ("type_name", some (.text r.typeName)),
    ("data", some r.data)]

/-- The tagged form of what a node stores under a field. -/
def FieldValue.tagged : FieldValue → Json
  | .scalar v => .tag "scalar" v.tagged
  | .edges targets => .tag "edges" (.texts targets)

/-- The data form of a stored node. -/
def Node.tagged (n : Node) : Json :=
  .record [("id", some (.text n.id)), ("type", some (.text n.typeName)),
    ("interfaces", some (.texts n.interfaces)),
    ("fields", some (.object (n.fields.entries.map fun e => (e.1, e.2.tagged))))]

namespace Rule.Declaration

mutual

/-- The tagged form of a declared rule. -/
def tagged : Rule.Declaration → Json
  | .rule s => .tag "rule" (.text s)
  | .all parts => .tag "and" (.list (taggedAll parts))
  | .any parts => .tag "or" (.list (taggedAll parts))
  | .not part => .tag "not" (tagged part)

def taggedAll : List Rule.Declaration → List Json
  | [] => []
  | d :: ds => tagged d :: taggedAll ds

end

end Rule.Declaration

/-- The data form of a descriptor. -/
def Descriptor.tagged (d : Descriptor) : Json :=
  .record [("Header", some (.text d.header)), ("Namespace", some (.text d.claimsKey)),
    ("Algo", d.algorithm.map .text), ("VerificationKey", d.verificationKey.map .text),
    ("JWKURL", d.keySetUrl.map .text), ("Audience", Json.unlessEmpty (d.audience.map .text)),
    ("ClosedByDefault", some (.flag d.closedByDefault))]

/-- The data form of the rules declared on a type. -/
def Slots.tagged (rules : Slots Rule.Declaration) : Json :=
  .record (Operation.every.map fun op =>
    (op.name, (rules.get? op).map Rule.Declaration.tagged))

/-- The data form of a declared type. -/
def TypeDefinition.tagged (d : TypeDefinition) : Json :=
  .record [("name", some (.text d.name)), ("kind", some (.text d.kind.name)),
    ("implements", Json.unlessEmpty (d.interfaces.map .text)),
    ("members", Json.unlessEmpty (d.members.map .text)), ("auth", d.rules.map Slots.tagged)]

/-- The data form of a declared schema. -/
def SchemaDefinition.tagged (d : SchemaDefinition) : Json :=
  .record [("types", some (.list (d.types.map TypeDefinition.tagged))),
    ("auth_mode", d.descriptor.map Descriptor.tagged)]

/-- The data form of what a schema knows about a type. -/
def TypeInfo.tagged (t : TypeInfo) : Json :=
  .record [("name", some (.text t.name)), ("kind", some (.text t.kind.name)),
    ("interfaces", some (.texts t.interfaces)), ("implementers", some (.texts t.implementers)),
    ("members", some (.texts t.members))]

/-- The tagged form of an outcome. -/
def Visibility.tagged : Visibility → Json
  | .unrestricted => .tag "outcome" (.text "unrestricted")
  | .denied => .tag "outcome" (.text "denied")
  | .restricted f => .record [("outcome", some (.text "restricted")), ("filter", some f.tagged)]

end GraphWarden
