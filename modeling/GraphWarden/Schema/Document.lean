import GraphWarden.Schema.Problem
import GraphWarden.Graphql.TypeSystem

/-!
# Schema texts

A schema is written in the type system language.  Rules stand in the arguments of
an `@auth` directive on a type, one argument for each operation; an argument is an
object with exactly one of the keys `rule`, `and`, `or` and `not`.  Of several such
directives on a type the first counts.
-/

namespace GraphWarden

namespace Rule.Declaration

mutual

/-- The declaration that a literal writes. -/
def ofValue : Value → Except DeclarationFlaw Declaration
  | .object [(key, inner)] =>
    if key = "rule" then
      match inner.asText with
      | some text => .ok (.rule text)
      | none => .error .ruleNotText
    else if key = "and" then (listed key inner).map .all
    else if key = "or" then (listed key inner).map .any
    else if key = "not" then (ofValue inner).map .not
    else .error (.unknownKey key)
  | .object _ => .error .notOneKey
  | v => .error (.notObject v)

/-- The declarations of a joining key. -/
def listed (key : String) : Value → Except DeclarationFlaw (List Declaration)
  | .list items => ofValues items
  | _ => .error (.groupNotList key)

def ofValues : List Value → Except DeclarationFlaw (List Declaration)
  | [] => .ok []
  | v :: vs => do
    let d ← ofValue v
    let ds ← ofValues vs
    .ok (d :: ds)

end

end Rule.Declaration

namespace SchemaDefinition

/-- The rules that the arguments of a directive declare on a type. -/
def rulesOf (typeName : String) (arguments : List (String × Value)) :
    Except SchemaProblem (Slots Rule.Declaration) :=
  arguments.foldlM (fun rules (name, v) =>
    let place := typeName ++ "." ++ name
    match Operation.ofName? name with
    | none => .error (.malformedRule place (.declaration (.unknownArgument name)))
    | some op =>
      match Rule.Declaration.ofValue v with
      | .error flaw => .error (.malformedRule place (.declaration flaw))
      | .ok rule => .ok (rules.put op rule)) Slots.empty

/-- The definition of a type that a text declares. -/
def typeOf (d : Graphql.TypeDeclaration) : Except SchemaProblem TypeDefinition := do
  let rules ← match d.directives.find? fun x => x.name == "auth" with
    | none => .ok none
    | some directive => (rulesOf d.name directive.arguments).map some
  .ok (match d.shape with
    | .object interfaces => { name := d.name, kind := .object, interfaces, rules }
    | .interface interfaces => { name := d.name, kind := .interface, interfaces, rules }
    | .union members => { name := d.name, kind := .union, members, rules })

/-- The schema that a text writes. -/
def ofText (s : String) : Except SchemaProblem SchemaDefinition :=
  match Graphql.typeSystem? s with
  | none => .error .unreadable
  | some declarations => do
    let types ← declarations.mapM typeOf
    match Descriptor.ofSchemaText s with
    | .error flaw => .error (.badDescriptor flaw)
    | .ok descriptor => .ok ⟨types, descriptor⟩

end SchemaDefinition

end GraphWarden
