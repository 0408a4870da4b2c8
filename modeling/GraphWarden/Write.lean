import GraphWarden.Check
import GraphWarden.Schema.Compiled

/-!
# Writing

A write names a type and some nodes, and is answered with those of the nodes that
it may touch, in the order in which they were named and without repeats.  Adding
asks the rule unbound, because the node is not there yet.  A write on an interface
looks up the type of each node and asks that type's own rule; nodes that are not
stored, or whose type does not implement the interface, are left out.

When the schema is closed to anonymous requests, such a request may touch nothing.
-/

namespace GraphWarden

/-- Whether a request is refused because it is anonymous. -/
def Schema.refuses (s : Schema) (claims : Claims) : Bool :=
  s.closedByDefault && claims.isEmpty

/-- The kind of a type that an operation may write to. -/
def Schema.writeTarget (s : Schema) (op : Operation) (typeName : String) :
    Except AccessProblem TypeKind :=
  if !op.isWrite then .error (.request (.notWrite op))
  else
    match s.find? typeName with
    | none => .error (.request (.unknownType typeName))
    | some info =>
      if info.kind = .union then .error (.request (.writeToUnion typeName))
      else if info.kind = .interface && op = .add then
        .error (.request (.addToInterface typeName))
      else .ok info.kind

namespace Client

/-- Whether a node of a type may be added. -/
def addAllowed (c : Client) (s : Schema) (typeName : String) : Job Bool :=
  match s.rule? typeName .add with
  | none => pure true
  | some rule => rule.holds c

/-- The nodes of a type that a write may touch, in rising order. -/
def writable (c : Client) (s : Schema) (op : Operation) (typeName : String) (ids : List String) :
    Job (List String) :=
  match s.rule? typeName op with
  | none => pure (Names.sorted ids)
  | some rule => rule.passing c typeName (Names.sorted ids)

/-- The nodes of a type among some, by the types that a store gave for them. -/
def ofType (types : Keyed String) (typeName : String) (ids : List String) : List String :=
  ids.filter fun id => types.find? id = some typeName

/-- The nodes that a write on an interface may touch, in rising order.  The types of
the nodes are asked for first; then each type's nodes are checked side by side. -/
def writableThrough (c : Client) (s : Schema) (op : Operation) (interface : String)
    (ids : List String) : Job (List String) := do
  let types ← c.typesOf ids
  let concrete := (Names.sorted types.values).filter (s.implementers interface).contains
  let passed ← Job.gather (concrete.map fun t => c.writable s op t (ofType types t ids))
  pure (Names.sorted passed.flatten)

/-- The nodes that a write may touch, in the order in which they are named. -/
def authorize (c : Client) (s : Schema) (op : Operation) (typeName : String) (ids : List String) :
    Job (List String) := do
  let kind ← Job.ofExcept (s.writeTarget op typeName)
  let ids := Names.distinct ids
  if s.refuses c.request.claims then pure []
  else
    let passed ←
      if op = .add then do
        if ← c.addAllowed s typeName then pure ids else pure []
      else if kind = .interface then c.writableThrough s op typeName ids
      else c.writable s op typeName ids
    pure (ids.filter passed.contains)

end Client

end GraphWarden
