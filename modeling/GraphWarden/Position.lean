import GraphWarden.Schema.Compiled
import GraphWarden.Visibility

/-!
# Restricting queries

A query selects nodes at its root and at every edge with a target type.  At each
of these positions stand nodes of the object types that the position's type
covers, and restricting the query adds to the position's filter what the rules of those types
leave visible: for an object type that restriction itself, for an interface or a
union one branch per object type, guarded by the type.

A type without a known visibility is treated as denied.
-/

namespace GraphWarden

namespace Schema

/-- The object types of the nodes at a position of a type.  A name that covers no
object type stands for itself. -/
def positionTypes (s : Schema) (typeName : String) : List String :=
  match s.find? typeName with
  | none => [typeName]
  | some info =>
    let covered := match info.kind with
      | .object => []
      | .interface => info.implementers
      | .union => info.members
    if covered.isEmpty then [typeName] else covered

mutual

/-- The object types at the positions of some selections, with repeats. -/
def typesBelow (s : Schema) : List Selection → List String
  | [] => []
  | x :: xs => typesAt s x ++ typesBelow s xs

/-- The object types at the positions of one selection, with repeats. -/
def typesAt (s : Schema) : Selection → List String
  | ⟨_, _, targetType, _, selections⟩ =>
    (match targetType with
      | none => []
      | some t => s.positionTypes t) ++ typesBelow s selections

end

/-- The object types below the root of a query, in rising order. -/
def nestedTypes (s : Schema) (q : Query) : List String :=
  Names.sorted (s.typesBelow q.selections)

/-- The object types at all positions of a query, in rising order. -/
def governedTypes (s : Schema) (q : Query) : List String :=
  Names.sorted (s.positionTypes q.typeName ++ s.typesBelow q.selections)

end Schema

/-- What is visible of each object type. -/
abbrev Visibilities := Keyed Visibility

namespace Visibilities

/-- The branch of an object type in the filter of a position. -/
def branch (vs : Visibilities) (typeName : String) : List Filter :=
  match vs.find? typeName with
  | some .unrestricted => [.isType typeName]
  | some (.restricted f) => [Filter.andAll [.isType typeName, f]]
  | some .denied | none => []

/-- Whether every node of an object type is visible. -/
def allVisible (vs : Visibilities) (typeName : String) : Bool :=
  (vs.find? typeName).any Visibility.isUnrestricted

/-- The filter that the rules add at a position; none when all its nodes are
visible. -/
def positionFilter (vs : Visibilities) (s : Schema) (typeName : String) : Option Filter :=
  let types := s.positionTypes typeName
  if types = [typeName] then
    match vs.find? typeName with
    | none => some .nothing
    | some v => v.toFilter
  else if types.all vs.allVisible then none
  else some (Filter.orAll (types.flatMap vs.branch))

/-- The filter at a position after the rules' filter was added. -/
def restrictFilter (vs : Visibilities) (s : Schema) (typeName : String) (existing : Option Filter) :
    Option Filter :=
  match vs.positionFilter s typeName with
  | none => existing
  | some auth => some (Filter.intersect existing auth)

mutual

/-- Selections with the rules' filters added at every edge with a target type. -/
def restrictAll (vs : Visibilities) (s : Schema) : List Selection → List Selection
  | [] => []
  | x :: xs => restrictOne vs s x :: restrictAll vs s xs

def restrictOne (vs : Visibilities) (s : Schema) : Selection → Selection
  | ⟨name, label, targetType, filter, selections⟩ =>
    { name, label, targetType
      filter := match targetType with
        | none => filter
        | some t => vs.restrictFilter s t filter
      selections := restrictAll vs s selections }

end

/-- A query with the rules' filters added at every position; `root` is what is
visible at the root. -/
def restrict (vs root : Visibilities) (s : Schema) (q : Query) : Query :=
  { q with
    filter := root.restrictFilter s q.typeName q.filter
    selections := vs.restrictAll s q.selections }

end Visibilities

/-- A copy of a query for each object type at its root. -/
def Query.split (s : Schema) (q : Query) : List Query :=
  (s.positionTypes q.typeName).map fun t => { q with typeName := t }

end GraphWarden
