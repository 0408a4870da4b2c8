import GraphWarden.Schema.Hierarchy

/-!
# Compiled schemas

Compiling a schema compiles its rules and gives every type, for each operation,
its effective rule: the rules that the type itself and all its interfaces
declare, the type's own first and then the interfaces' in name order.  A rule is
always about the declaring type, or about an interface of it.

Where nothing in the hierarchy declares a rule there is none, and access is not
restricted.
-/

namespace GraphWarden

/-- A type of a compiled schema. -/
structure TypeInfo where
  name : String
  kind : TypeKind
  /-- The interfaces that it implements, directly or through others. -/
  interfaces : List String
  /-- The object types that implement it, when it is an interface. -/
  implementers : List String
  /-- The members, when it is a union. -/
  members : List String

/-- A schema that is ready for requests. -/
structure Schema where
  types : Keyed TypeInfo
  /-- The effective rules of the types other than unions. -/
  effective : Keyed (Slots Rule)
  descriptor : Option Descriptor
  /-- How many schemas were activated up to this one; zero before activation. -/
  generation : Nat

namespace Schema

/-- A type by its name. -/
def find? (s : Schema) (name : String) : Option TypeInfo :=
  s.types.find? name

/-- Whether a name is the name of an interface. -/
def isInterface (s : Schema) (name : String) : Bool :=
  (s.find? name).any fun t => t.kind = .interface

/-- The object types that implement an interface. -/
def implementers (s : Schema) (name : String) : List String :=
  ((s.find? name).map TypeInfo.implementers).getD []

/-- The effective rule of a type for an operation. -/
def rule? (s : Schema) (typeName : String) (op : Operation) : Option Rule :=
  (s.effective.find? typeName).bind fun rules => rules.get? op

/-- The rule that guards checking a password: the password rule, or the query rule
where the hierarchy declares no password rule. -/
def passwordRule? (s : Schema) (typeName : String) : Option Rule :=
  (s.rule? typeName .password).or (s.rule? typeName .query)

/-- The rule that an operation is decided by. -/
def governingRule? (s : Schema) (typeName : String) (op : Operation) : Option Rule :=
  if op = .password then s.passwordRule? typeName else s.rule? typeName op

/-- Whether anonymous requests are denied on every type. -/
def closedByDefault (s : Schema) : Bool :=
  s.descriptor.any Descriptor.closedByDefault

/-- A union declares no rules, and its members are object types. -/
def unionProblem? (h : Hierarchy) (d : TypeDefinition) : Option SchemaProblem :=
  if d.rules.isSome then some (.rulesOnUnion d.name)
  else
    (d.members.find? fun m => h.kind? m ≠ some .object).map fun m =>
      .unknownType m ("union " ++ d.name)

/-- What is wrong with the type that a graph rule selects from. -/
def rootProblem? (h : Hierarchy) (typeName place root : String) : Option SchemaProblem :=
  if (h.kind? root).isNone then some (.unknownType root place)
  else if root = typeName || (h.interfacesOf typeName).contains root then none
  else some (.malformedRule place (.foreignRoot root typeName))

/-- The rule of a declaration on a type. -/
def compileRule (h : Hierarchy) (typeName : String) (op : Operation) (d : Rule.Declaration) :
    Except SchemaProblem Rule :=
  let place := typeName ++ "." ++ op.name
  match Rule.compile d with
  | .error flaw => .error (.ofRuleFlaw place flaw)
  | .ok rule =>
    match (rule.graphRules.map GraphRule.rootType).findSome? (rootProblem? h typeName place) with
    | some problem => .error problem
    | none => .ok rule

/-- The rules that a type itself declares. -/
def ownRules (h : Hierarchy) (d : TypeDefinition) : Except SchemaProblem (Slots Rule) :=
  match d.rules with
  | none => .ok Slots.empty
  | some declared =>
    Operation.every.foldlM (fun rules op =>
      match declared.get? op with
      | none => .ok rules
      | some declaration => (compileRule h d.name op declaration).map (rules.put op)) Slots.empty

/-- The rules that the types themselves declare, in the order of the definitions. -/
def allOwnRules (h : Hierarchy) (types : List TypeDefinition) :
    Except SchemaProblem (Keyed (Slots Rule)) :=
  types.foldlM (fun own d =>
    if d.kind = .union then
      match unionProblem? h d with
      | some problem => .error problem
      | none => .ok own
    else (ownRules h d).map (own.put d.name)) Keyed.empty

/-- The conjunction of rules; a single rule stands for itself. -/
def conjunction? : List Rule → Option Rule
  | [] => none
  | [r] => some r
  | rules => some (.combine .all rules)

/-- The rules for an operation that a type and its interfaces declare. -/
def declaredRules (own : Keyed (Slots Rule)) (h : Hierarchy) (typeName : String) (op : Operation) :
    List Rule :=
  (typeName :: h.interfacesOf typeName).filterMap fun name =>
    (own.find? name).bind fun rules => rules.get? op

/-- The effective rules of a type. -/
def effectiveRules (own : Keyed (Slots Rule)) (h : Hierarchy) (typeName : String) : Slots Rule :=
  Slots.ofFunction fun op => conjunction? (declaredRules own h typeName op)

/-- A type of the compiled schema. -/
def typeInfo (h : Hierarchy) (d : TypeDefinition) : TypeInfo where
  name := d.name
  kind := d.kind
  interfaces := h.interfacesOf d.name
  implementers := if d.kind = .interface then h.implementersOf d.name else []
  members := d.members

/-- Compile a schema. -/
def compile (definition : SchemaDefinition) : Except SchemaProblem Schema := do
  let h ← Hierarchy.ofDefinitions definition.types
  let own ← allOwnRules h definition.types
  .ok {
    types := Keyed.ofList (definition.types.map fun d => (d.name, typeInfo h d))
    effective := Keyed.ofList ((definition.types.filter fun d => d.kind ≠ .union).map fun d =>
      (d.name, effectiveRules own h d.name))
    descriptor := definition.descriptor
    generation := 0 }

end Schema

end GraphWarden
