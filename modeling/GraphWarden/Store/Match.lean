import GraphWarden.Store.Basic
import GraphWarden.Pattern.Compiled

/-!
# Which nodes a filter accepts

Evaluating a filter on a node may fail, when a pattern in it is no text or no
pattern.  Parts are evaluated from left to right and only as far as needed, so a
faulty part that is not reached does no harm.  A field that holds a list is
compared item by item, and one item that fits is enough.
-/

namespace GraphWarden

/-- The answer to a question that may fail. -/
abbrev Answer (α : Type) := Except BackendProblem α

/-- A pattern's text without the slashes that may enclose it. -/
def bareSource (source : String) : String :=
  match source.toList with
  | '/' :: rest =>
    match Text.before? ['/'] rest with
    | some inner => String.ofList inner
    | none => source
  | _ => source

/-- Whether a value that is no list compares with an operand. -/
def Comparison.holds (op : Comparison) (operand stored : Value) : Answer Bool :=
  match op with
  | .equal => .ok (stored.looseEq operand)
  | .oneOf =>
    match operand with
    | .list options => .ok (options.any stored.looseEq)
    | v => .ok (stored.looseEq v)
  | .below => .ok ((stored.looseCompare? operand).any Ordering.isLT)
  | .atMost => .ok ((stored.looseCompare? operand).any Ordering.isLE)
  | .above => .ok ((stored.looseCompare? operand).any Ordering.isGT)
  | .atLeast => .ok ((stored.looseCompare? operand).any Ordering.isGE)
  | .matching =>
    match operand.asText with
    | none => .error (.query ("regexp expects a string, found " ++ operand.display))
    | some source =>
      match Pattern.ofSource? (bareSource source) with
      | .error cause => .error (.query cause.message)
      | .ok pattern => .ok (stored.asText.any pattern.foundIn)

mutual

/-- Whether a stored value compares with an operand. -/
def Comparison.holdsIn (op : Comparison) (operand : Value) (stored : Value) : Answer Bool :=
  match stored with
  | .list items => holdsInAny op operand items
  | v => op.holds operand v

def Comparison.holdsInAny (op : Comparison) (operand : Value) : List Value → Answer Bool
  | [] => .ok false
  | v :: vs => do
    if ← holdsIn op operand v then .ok true else holdsInAny op operand vs

end

/-- Whether a field is present: a scalar other than null, or an edge to a node. -/
def Graph.hasField (g : Graph) (n : Node) (field : String) : Bool :=
  match n.fields.find? field with
  | none | some (.scalar .null) => false
  | some (.scalar _) => true
  | some (.edges targets) => targets.any fun t => (g.find? t).isSome

/-- The nodes behind a field. -/
def Graph.behind (g : Graph) (n : Node) (field : String) : List Node :=
  match n.fields.find? field with
  | some (.edges targets) => g.among targets
  | _ => []

mutual

/-- Whether a filter accepts a node. -/
def Filter.accepts (g : Graph) (f : Filter) (n : Node) : Answer Bool :=
  match f with
  | .nothing => .ok false
  | .compare field op operand =>
    match n.fields.find? field with
    | some (.scalar stored) => op.holdsIn operand stored
    | _ => .ok false
  | .has field => .ok (g.hasField n field)
  | .ids listed => .ok (listed.contains n.id)
  | .isType typeName => .ok (n.isA typeName)
  | .edge field inner => (g.behind n field).anyM fun m => accepts g inner m
  | .all parts => acceptsAll g parts n
  | .any parts => acceptsAny g parts n
  | .not inner => (accepts g inner n).map Bool.not

def Filter.acceptsAll (g : Graph) (parts : List Filter) (n : Node) : Answer Bool :=
  match parts with
  | [] => .ok true
  | f :: fs => do
    if ← accepts g f n then acceptsAll g fs n else .ok false

def Filter.acceptsAny (g : Graph) (parts : List Filter) (n : Node) : Answer Bool :=
  match parts with
  | [] => .ok false
  | f :: fs => do
    if ← accepts g f n then .ok true else acceptsAny g fs n

end

/-- Whether a filter that may be missing accepts a node. -/
def Filter.acceptsIfAny (g : Graph) (f : Option Filter) (n : Node) : Answer Bool :=
  match f with
  | none => .ok true
  | some f => f.accepts g n

end GraphWarden
