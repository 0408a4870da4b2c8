import GraphWarden.Schema.Compiled
import GraphWarden.Schema.Document

/-!
# The active schema

A catalog holds the schema in force.  Loading compiles a definition and activates
it under the next generation number; a definition that is not accepted changes
nothing.
-/

namespace GraphWarden

/-- The schema in force, if any was loaded. -/
structure Catalog where
  current : Option Schema

namespace Catalog

/-- The catalog before any load. -/
def empty : Catalog := ⟨none⟩

/-- The generation of the schema in force; zero before any load. -/
def generation (c : Catalog) : Nat :=
  (c.current.map Schema.generation).getD 0

/-- The schema of a definition under the next generation number. -/
def next (c : Catalog) (definition : SchemaDefinition) : Except SchemaProblem Schema :=
  (Schema.compile definition).map fun s => { s with generation := c.generation + 1 }

/-- Load a definition; the answer is the schema that is now in force, or what is
wrong with the definition. -/
def load (c : Catalog) (definition : SchemaDefinition) : Except SchemaProblem Schema × Catalog :=
  match c.next definition with
  | .ok schema => (.ok schema, ⟨some schema⟩)
  | .error problem => (.error problem, c)

/-- Load the definition that a text writes. -/
def loadText (c : Catalog) (s : String) : Except SchemaProblem Schema × Catalog :=
  match SchemaDefinition.ofText s with
  | .ok definition => c.load definition
  | .error problem => (.error problem, c)

end Catalog

end GraphWarden
