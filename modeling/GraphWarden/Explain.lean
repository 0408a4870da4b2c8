import GraphWarden.Schema.Catalog
import GraphWarden.Tagged.Basic
import GraphWarden.Write

/-!
# Explaining a rule

For a schema, a token payload and a type, the report shows the rule that governs an
operation on the type and what it leaves visible for the claims of the payload, on
a store that can evaluate negated filters.
-/

namespace GraphWarden.Explain

/-- Why there is no report. -/
inductive Problem where
  | usage
  | unknownOperation (name : String)
  | unreadFile (path cause : String)
  | schema (problem : SchemaProblem)
  | undefinedType (name path : String)
  | badPayload (path : String) (fault : Json.Fault)
  | access (problem : AccessProblem)

/-- Put four blanks in front of every line after the first. -/
def indented (s : String) : String :=
  "\n    ".intercalate (s.splitOn "\n")

/-- What the program was doing when a problem arose, and the problem, whose lines are
indented. -/
def withCause (doing cause : String) : String :=
  doing ++ "\n\nCaused by:\n    " ++ indented cause

/-- The wording of a problem. -/
def Problem.message : Problem → String
  | .usage => "usage: authz-explain <schema.graphql> <claims.json> <Type> [operation]"
  | .unknownOperation name => "unknown operation '" ++ name ++ "'"
  | .unreadFile path cause => withCause ("reading " ++ path) cause
  | .schema problem => withCause "compiling schema" problem.message
  | .undefinedType name path => "type '" ++ name ++ "' is not defined in " ++ path
  | .badPayload path fault => withCause ("parsing " ++ path) fault.message
  | .access problem => problem.message

/-- The arguments of the program. -/
structure Arguments where
  schemaPath : String
  claimsPath : String
  typeName : String
  op : Operation

/-- The arguments that are written on the command line. -/
def Arguments.ofList : List String → Except Problem Arguments
  | [schemaPath, claimsPath, typeName] => .ok ⟨schemaPath, claimsPath, typeName, .query⟩
  | [schemaPath, claimsPath, typeName, name] =>
    match Operation.ofName? name with
    | some op => .ok ⟨schemaPath, claimsPath, typeName, op⟩
    | none => .error (.unknownOperation name)
  | _ => .error .usage

/-- What the rule for an operation leaves visible of a type. -/
def outcome (s : Schema) (claims : Claims) (typeName : String) (op : Operation) :
    Except AccessProblem Visibility :=
  if s.refuses claims then .ok .denied
  else Rule.visibilityIfAny true claims (s.governingRule? typeName op)

/-- The report on a type. -/
def report (s : Schema) (typeName : String) (op : Operation) (v : Visibility) : Json :=
  .record [
    ("type", some (.text typeName)),
    ("operation", some (.text op.name)),
    ("generation", some (.int s.generation)),
    ("effective_rule", some (((s.governingRule? typeName op).map Rule.tagged).getD .null)),
    ("outcome", some v.tagged)]

/-- The report for some arguments.  `read` gives the text of a file, or says why there
is none. -/
def reportFor (read : String → Except String String) (a : Arguments) : Except Problem Json := do
  let schemaText ← (read a.schemaPath).mapError (.unreadFile a.schemaPath)
  let s ← (Catalog.empty.loadText schemaText).1.mapError .schema
  if (s.find? a.typeName).isNone then throw (.undefinedType a.typeName a.schemaPath)
  let claimsText ← (read a.claimsPath).mapError (.unreadFile a.claimsPath)
  let payload ← (Json.ofText? claimsText).mapError (.badPayload a.claimsPath)
  let claims ← (Claims.ofPayload (s.descriptor.map Descriptor.claimsKey) payload).mapError
    fun flaw => .access (.request (.claims flaw))
  let v ← (outcome s claims a.typeName a.op).mapError .access
  return report s a.typeName a.op v

/-- The text of the report for a command line. -/
def textFor (read : String → Except String String) (args : List String) :
    Except Problem String := do
  let a ← Arguments.ofList args
  let j ← reportFor read a
  return j.pretty 0 ++ "\n"

end GraphWarden.Explain
