import GraphWarden.Schema.Problem

/-!
# The interface hierarchy

Types implement interfaces, which may implement further interfaces.  A hierarchy
is accepted when every interface that is named is one, and when no interface
implements itself on some way.  `peel` decides the latter: it counts for each type
the names that it waits for, takes away one type after the other that waits for
none, and gets stuck exactly on a cycle; `findCycle?` then walks along the
interfaces to show one.

An accepted hierarchy knows of each type every interface that it implements,
directly or through others.
-/

namespace GraphWarden

/-- A type's kind and the interfaces that it names. -/
structure Kin where
  kind : TypeKind
  interfaces : List String

/-- The types of a schema with what each names. -/
abbrev Kinship := Keyed Kin

namespace Kinship

/-- The types of a list of definitions, whose names must be distinct. -/
def ofDefinitions (types : List TypeDefinition) : Except SchemaProblem Kinship :=
  types.foldlM (fun kin d =>
    if kin.contains d.name then .error (.duplicateType d.name)
    else .ok (kin.put d.name ⟨d.kind, d.interfaces⟩)) Keyed.empty

/-- What is wrong with a name in a type's list of interfaces. -/
def interfaceProblem? (kin : Kinship) (typeName interface : String) : Option SchemaProblem :=
  match kin.find? interface with
  | none => some (.unknownInterface typeName interface)
  | some k => if k.kind = .interface then none else some (.notInterface typeName interface)

/-- The first wrong name, in the order of the types and of their lists. -/
def problem? (kin : Kinship) : Option SchemaProblem :=
  kin.entries.findSome? fun e => e.2.interfaces.findSome? (interfaceProblem? kin e.1)

/-- Where peeling stands: how many of the names that it lists each type still waits for,
and the types that wait for none and come next. -/
structure Peeling where
  waiting : Keyed Nat
  queue : List String

/-- Let a type wait for one name fewer; when it waits for none it is queued. -/
def Peeling.release (p : Peeling) (name : String) : Peeling :=
  match p.waiting.find? name with
  | none => p
  | some count =>
    { waiting := p.waiting.put name (count - 1)
      queue := if count - 1 = 0 then p.queue ++ [name] else p.queue }

/-- At the start a type waits for all names that it lists, repeats counted. -/
def unpeeled (kin : Kinship) : Peeling :=
  let waiting := Keyed.ofList (kin.entries.map fun e => (e.1, e.2.interfaces.length))
  { waiting, queue := (waiting.entries.filter fun e => e.2 = 0).map Prod.fst }

/-- The types that list an interface, in name order, each as often as it lists it. -/
def listers (kin : Kinship) (interface : String) : List String :=
  kin.entries.flatMap fun e => List.replicate (e.2.interfaces.count interface) e.1

/-- Take the types that come next away, at most `fuel` of them, and put them behind
`done`; what lists a type that is taken away need not wait for it any longer. -/
def peel (kin : Kinship) : (fuel : Nat) → Peeling → (done : List String) → List String
  | 0, _, done => done
  | fuel + 1, p, done =>
    match p.queue with
    | [] => done
    | name :: queue =>
      peel kin fuel ((kin.listers name).foldl Peeling.release { p with queue }) (done ++ [name])

/-- The types in an order in which interfaces come before what implements them; on a
cycle, only those types that neither have a part in it nor implement one that has. -/
def peeled (kin : Kinship) : List String :=
  kin.peel kin.size kin.unpeeled []

/-- Walk from a type along its interfaces.  `path` is the way here from the start,
`done` the types from which no cycle was found; the answer is a cycle or the types
that are done after the walk. -/
def walk (kin : Kinship) : (fuel : Nat) → (path done : List String) → String →
    Except (List String) (List String)
  | 0, _, done, _ => .ok done
  | fuel + 1, path, done, name =>
    if path.contains name then .error (path.dropWhile (· != name) ++ [name])
    else if done.contains name then .ok done
    else do
      let interfaces := ((kin.find? name).map Kin.interfaces).getD []
      let done ← interfaces.foldlM (fun done i => walk kin fuel (path ++ [name]) done i) done
      .ok (name :: done)

/-- The first cycle that walks from the types in name order come upon; it begins and
ends with the same name. -/
def findCycle? (kin : Kinship) : Option (List String) :=
  match kin.keys.foldlM (fun done name => walk kin (kin.size + 1) [] done name) [] with
  | .error cycle => some cycle
  | .ok _ => none

/-- Every interface of each type, when interfaces come first in the given order. -/
def closureAlong (kin : Kinship) (order : List String) : Keyed (List String) :=
  order.foldl (fun closure name =>
    let interfaces := ((kin.find? name).map Kin.interfaces).getD []
    closure.put name
      (Names.sorted (interfaces.flatMap fun i => i :: (closure.find? i).getD []))) Keyed.empty

end Kinship

/-- An accepted hierarchy. -/
structure Hierarchy where
  kinship : Kinship
  /-- For each type the interfaces that it implements, directly or through others, in
  rising order. -/
  closure : Keyed (List String)

namespace Hierarchy

/-- The hierarchy of a list of definitions. -/
def ofDefinitions (types : List TypeDefinition) : Except SchemaProblem Hierarchy := do
  let kin ← Kinship.ofDefinitions types
  match kin.problem? with
  | some problem => .error problem
  | none =>
    let order := kin.peeled
    if order.length ≠ kin.size then
      .error (.inheritanceCycle (kin.findCycle?.getD ["unknown cycle"]))
    else .ok ⟨kin, kin.closureAlong order⟩

/-- The kind of a type. -/
def kind? (h : Hierarchy) (name : String) : Option TypeKind :=
  (h.kinship.find? name).map Kin.kind

/-- The interfaces that a type implements, directly or through others. -/
def interfacesOf (h : Hierarchy) (name : String) : List String :=
  (h.closure.find? name).getD []

/-- The object types that implement an interface, in name order. -/
def implementersOf (h : Hierarchy) (interface : String) : List String :=
  (h.closure.entries.filter fun e =>
    e.2.contains interface && h.kind? e.1 = some .object).map Prod.fst

end Hierarchy

end GraphWarden
