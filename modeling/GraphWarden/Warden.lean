import GraphWarden.Memo
import GraphWarden.Meter
import GraphWarden.Position
import GraphWarden.Schema.Catalog
import GraphWarden.Union
import GraphWarden.Write

/-!
# The warden

A warden stands between requests and a store.  It holds the schema in force,
restricts read queries to what the request may see, runs
them, and says which nodes a write may touch.

Every request works with the schema that was in force when it started.  What a
rule leaves visible may come from the memo; a memo is emptied when a schema is
loaded.
-/

namespace GraphWarden

/-- A warden, the store it guards, and the time line they share. -/
structure Warden where
  catalog : Catalog := .empty
  store : Store
  policy : Policy := {}
  line : Line := {}
  /-- Remembered outcomes, when they are remembered. -/
  memo : Option Memo := none
  /-- Counts, when they are kept. -/
  meter : Option Meter := none

/-- What a warden does for a request: it may fail, and what it did before that stays
done. -/
abbrev Act (α : Type) := ExceptT AccessProblem (StateM Warden) α

namespace Warden

/-- Change the counts, when they are kept. -/
def count (change : Meter → Meter) : Act Unit :=
  modify fun w => { w with meter := w.meter.map change }

/-- The schema in force. -/
def schema : Act Schema := do
  match (← get).catalog.current with
  | some s => pure s
  | none => throw .noSchema

/-- Let a client of the store do a job. -/
def ask {α : Type} (r : Request) (job : Client → Job α) : Act α := do
  let w ← get
  let (result, line) := (job ⟨w.store, w.policy, r⟩).run w.line
  set { w with
    line
    meter := w.meter.map fun (m : Meter) =>
      m.countProbes (line.ended - w.line.ended) (line.failed - w.line.failed) }
  match result with
  | .ok x => pure x
  | .error problem => throw problem

/-- Drop what is remembered. -/
def forget : Act Unit :=
  modify fun w => { w with memo := w.memo.map Memo.clear }

/-- Put a schema in force that was loaded; what is remembered is dropped, unless the
schema was not accepted. -/
def activate (loaded : Except SchemaProblem Schema × Catalog) : Act Nat := do
  modify fun w => { w with catalog := loaded.2 }
  match loaded.1 with
  | .ok s => do
    forget
    pure s.generation
  | .error problem => throw (.schema problem)

/-- Load a schema; the answer is its generation. -/
def load (definition : SchemaDefinition) : Act Nat := do
  activate ((← get).catalog.load definition)

/-- Load the schema that a text writes. -/
def loadText (s : String) : Act Nat := do
  activate ((← get).catalog.loadText s)

/-- The claims of a token, read where the schema says. -/
def claimsOfToken (payload : Json) : Act Claims := do
  let s ← schema
  match Claims.ofPayload (s.descriptor.map Descriptor.claimsKey) payload with
  | .ok claims => pure claims
  | .error flaw => throw (.request (.claims flaw))

/-- Look an outcome up in the memo, when there is one. -/
def lookUp (k : OutcomeKey) : Act (Option Visibility) := do
  match (← get).memo with
  | none => pure none
  | some memo => do
    let (found, memo) := memo.get k
    modify fun w => { w with memo := some memo }
    match found with
    | some v => do
      count Meter.countHit
      pure (some v)
    | none => do
      count Meter.countMiss
      pure none

/-- Put an outcome into the memo, when there is one. -/
def remember (k : OutcomeKey) (v : Visibility) : Act Unit :=
  modify fun w => { w with memo := w.memo.map fun m => m.put k v }

/-- What a request may see of a type. -/
def visibility (s : Schema) (r : Request) (typeName : String) (op : Operation) :
    Act Visibility := do
  if s.refuses r.claims then pure .denied
  else
    match s.governingRule? typeName op with
    | none => pure .unrestricted
    | some rule => do
      let k : OutcomeKey := ⟨s.generation, typeName, op, r.claims⟩
      match ← lookUp k with
      | some v => pure v
      | none =>
        match rule.visibility (← get).store.complement r.claims with
        | .error problem => throw problem
        | .ok v => do
          remember k v
          pure v

/-- What a request may see of several types. -/
def visibilities (s : Schema) (r : Request) (op : Operation) :
    List String → Act (List (String × Visibility))
  | [] => pure []
  | t :: ts => do
    let v ← visibility s r t op
    let vs ← visibilities s r op ts
    pure ((t, v) :: vs)

/-- The kind of the type that a query selects from. -/
def rootKind (s : Schema) (typeName : String) : Act TypeKind :=
  match s.find? typeName with
  | some info => pure info.kind
  | none => throw (.request (.unknownType typeName))

/-- Count the request when it fails. -/
def counted {α : Type} (act : Act α) : Act α :=
  tryCatch act fun problem => do
    count Meter.countError
    throw problem

/-- A query restricted to what the request may see. -/
def restrict (r : Request) (q : Query) : Act Query := do
  let s ← schema
  let _ ← rootKind s q.typeName
  let vs := Keyed.ofList (← visibilities s r .query (s.governedTypes q))
  pure (Visibilities.restrict vs vs s q)

/-- A query for checking a password: its root is guarded by password rules, and what
is below by query rules. -/
def restrictPasswordCheck (r : Request) (q : Query) : Act Query := do
  let s ← schema
  let _ ← rootKind s q.typeName
  let vs := Keyed.ofList (← visibilities s r .query (s.governedTypes q))
  let types := Names.sorted (s.positionTypes q.typeName)
  let root := Keyed.ofList (← visibilities s r .password types)
  pure (Visibilities.restrict vs root s q)

/-- Run a query as far as the request may see. -/
def answer (r : Request) (q : Query) : Act (List Record) := do
  let s ← schema
  let kind ← rootKind s q.typeName
  let vs := Keyed.ofList (← visibilities s r .query (s.governedTypes q))
  count Meter.countRead
  if kind = .object then ask r fun c => c.execute (Visibilities.restrict vs vs s q)
  else
    ask r fun c =>
      c.executeUnion ((q.split s).map (Visibilities.restrict vs vs s)) q.first

/-- Authorize a read query. -/
def authorizeQuery (r : Request) (q : Query) : Act Query := do
  let restricted ← counted (restrict r q)
  count Meter.countRead
  pure restricted

/-- Authorize a query for checking a password. -/
def authorizePasswordCheck (r : Request) (q : Query) : Act Query :=
  counted (restrictPasswordCheck r q)

/-- Authorize and run a read query. -/
def query (r : Request) (q : Query) : Act (List Record) :=
  counted (answer r q)

/-- Which of some nodes a write may touch. -/
def authorizeWrite (r : Request) (op : Operation) (typeName : String) (ids : List String) :
    Act (List String) := do
  let allowed ← counted do
    let s ← schema
    ask r fun c => c.authorize s op typeName ids
  count fun m => m.countWrite (ids.length - allowed.length)
  pure allowed

/-- The id that stands for a node that is not there yet. -/
def newNode : String := "_:new"

/-- Whether a node of a type may be added. -/
def authorizeAdd (r : Request) (typeName : String) : Act Bool := do
  let allowed ← authorizeWrite r .add typeName [newNode]
  pure !allowed.isEmpty

/-- What the effective rule of a type for an operation says. -/
def evaluate (r : Request) (typeName : String) (op : Operation) (mode : Mode) : Act Verdict := do
  let s ← schema
  match mode with
  | .filter => do
    let v ← visibility s r typeName op
    pure (.visible v)
  | .gate _ candidates =>
    if s.refuses r.claims then
      pure (match candidates with
        | none => .allowed false
        | some _ => .passed [])
    else ask r fun c => Rule.evaluate c (s.rule? typeName op) mode

end Warden

end GraphWarden
