import GraphWarden.Query

/-!
# Stored nodes

A graph stores nodes under their ids.  A node has a type, lists the interfaces of
that type, and holds in each field a scalar value or edges to other nodes; an
edge may lead to an id that is not stored.

A store is a graph behind a connection, which may be offline, and which may be
unable to evaluate negated filters.
-/

namespace GraphWarden

/-- What a field of a node holds. -/
inductive FieldValue where
  | scalar (v : Value)
  | edges (targets : List String)

/-- A stored node. -/
structure Node where
  id : String
  typeName : String
  /-- The interfaces of the node's type, in rising order. -/
  interfaces : List String := []
  fields : Keyed FieldValue := Keyed.empty

/-- Whether a node is of a type, by its own type or by an interface. -/
def Node.isA (n : Node) (typeName : String) : Bool :=
  n.typeName = typeName || n.interfaces.contains typeName

/-- Nodes under their ids. -/
structure Graph where
  nodes : Keyed Node
  id_eq : ∀ e ∈ nodes.entries, e.2.id = e.1

namespace Graph

/-- The graph without nodes. -/
def empty : Graph := ⟨Keyed.empty, by simp [Keyed.empty]⟩

instance : Inhabited Graph := ⟨empty⟩

/-- The node with an id. -/
def find? (g : Graph) (id : String) : Option Node :=
  g.nodes.find? id

/-- Store a node in place of the one with its id. -/
def insert (g : Graph) (n : Node) : Graph :=
  ⟨g.nodes.put n.id n, by
    intro e he
    rcases Entries.mem_put he with rfl | he
    · rfl
    · exact g.id_eq e he⟩

/-- Drop the node with an id. -/
def erase (g : Graph) (id : String) : Graph :=
  ⟨g.nodes.erase id, by
    intro e he
    exact g.id_eq e (List.mem_filter.1 he).1⟩

/-- The nodes in the order of their ids. -/
def toList (g : Graph) : List Node :=
  g.nodes.values

/-- How many nodes are stored. -/
def size (g : Graph) : Nat := g.nodes.size

/-- The stored nodes among some ids, in the order of the ids. -/
def among (g : Graph) (ids : List String) : List Node :=
  ids.filterMap g.find?

/-- The graph of a list of nodes; of two nodes with one id the later stays. -/
def ofList (nodes : List Node) : Graph :=
  nodes.foldl insert empty

end Graph

/-- Why a store gave no answer. -/
inductive BackendProblem where
  | unavailable (message : String)
  | query (message : String)
deriving DecidableEq, Repr

/-- The wording of a store's problem. -/
def BackendProblem.message : BackendProblem → String
  | .unavailable message => "Executor unavailable: " ++ message
  | .query message => "Executor query failed: " ++ message

/-- A graph behind a connection. -/
structure Store where
  graph : Graph
  /-- Whether negated filters can be evaluated. -/
  complement : Bool := true
  offline : Bool := false

end GraphWarden
