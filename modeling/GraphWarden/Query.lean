import GraphWarden.Filter.Combine

/-!
# Queries

A query selects nodes of a type and says what to report of each: scalar fields,
and edges with what to report of the nodes behind them.  Each position that
selects nodes, the root and every edge with a target type, may carry a filter.

A probe only asks which nodes of a type match a filter, perhaps among given
candidates.
-/

namespace GraphWarden

/-- A field that is reported.  An edge has a target type and further selections. -/
structure Selection where
  name : String
  label : Option String
  targetType : Option String
  filter : Option Filter
  selections : List Selection

namespace Selection

/-- A scalar field. -/
def scalar (name : String) : Selection :=
  ⟨name, none, none, none, []⟩

/-- An edge to nodes of a type. -/
def edge (name targetType : String) (selections : List Selection) : Selection :=
  ⟨name, none, some targetType, none, selections⟩

/-- The key under which the field is reported. -/
def key (s : Selection) : String :=
  s.label.getD s.name

end Selection

/-- A read request for the nodes of a type. -/
structure Query where
  typeName : String
  filter : Option Filter := none
  selections : List Selection := []
  /-- How many nodes to report at most. -/
  first : Option Nat := none

/-- The question which nodes of a type match a filter. -/
structure Probe where
  typeName : String
  filter : Filter
  /-- The nodes to ask about, when not all of them. -/
  candidates : Option (List String) := none
  limit : Option Nat := none

/-- What is reported of one node. -/
structure Record where
  id : String
  typeName : String
  data : Json

end GraphWarden
