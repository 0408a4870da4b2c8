import GraphWarden.Rule.Text
import GraphWarden.Schema.Descriptor

/-!
# Schemas as they are declared

A schema lists types: object types, interfaces and unions, with the interfaces a
type implements, the members of a union, and for each operation perhaps a rule.
A declaration of rules that is present but names none is kept as such, because a
union may not even have that.
-/

namespace GraphWarden

/-- The kinds of types. -/
inductive TypeKind where
  | object
  | interface
  | union
deriving DecidableEq, Repr

/-- The name of a kind. -/
def TypeKind.name : TypeKind → String
  | object => "object"
  | interface => "interface"
  | union => "union"

/-- Something for each operation, or nothing for some. -/
structure Slots (α : Type) where
  query : Option α := none
  add : Option α := none
  update : Option α := none
  delete : Option α := none
  password : Option α := none

namespace Slots

variable {α : Type}

/-- Nothing for any operation. -/
def empty : Slots α := {}

/-- What is there for an operation. -/
def get? (s : Slots α) : Operation → Option α
  | .query => s.query
  | .add => s.add
  | .update => s.update
  | .delete => s.delete
  | .password => s.password

/-- Put something there for an operation, in place of what was there. -/
def put (s : Slots α) (op : Operation) (a : α) : Slots α :=
  match op with
  | .query => { s with query := some a }
  | .add => { s with add := some a }
  | .update => { s with update := some a }
  | .delete => { s with delete := some a }
  | .password => { s with password := some a }

/-- The slots that a function of the operation fills. -/
def ofFunction (f : Operation → Option α) : Slots α :=
  ⟨f .query, f .add, f .update, f .delete, f .password⟩

/-- Whether there is nothing for any operation. -/
def isEmpty (s : Slots α) : Bool :=
  Operation.every.all fun op => (s.get? op).isNone

@[simp] theorem get?_empty (op : Operation) : (empty : Slots α).get? op = none := by
  cases op <;> rfl

/-- Slots that are filled from a function hold what it gives. -/
@[simp] theorem get?_ofFunction (f : Operation → Option α) (op : Operation) :
    (ofFunction f).get? op = f op := by
  cases op <;> rfl

/-- Putting something in changes the slot of its operation and no other. -/
theorem get?_put (s : Slots α) (op o : Operation) (a : α) :
    (s.put op a).get? o = if op = o then some a else s.get? o := by
  cases op <;> cases o <;> rfl

end Slots

/-- A type as it is declared. -/
structure TypeDefinition where
  name : String
  kind : TypeKind
  /-- The interfaces that the type itself names. -/
  interfaces : List String := []
  /-- The members of a union. -/
  members : List String := []
  /-- The rules declared on the type. -/
  rules : Option (Slots Rule.Declaration) := none

/-- The definition with a rule declared for one operation. -/
def TypeDefinition.withRule (d : TypeDefinition) (op : Operation) (rule : Rule.Declaration) :
    TypeDefinition :=
  { d with rules := some ((d.rules.getD Slots.empty).put op rule) }

/-- A schema as it is declared. -/
structure SchemaDefinition where
  types : List TypeDefinition
  descriptor : Option Descriptor := none

end GraphWarden
