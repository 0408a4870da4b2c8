import GraphWarden.Store.Match

/-!
# What a store answers

Nodes are visited in the order of their ids, or of the candidates of a probe.  A
limit is checked after a node was taken, so a limit of zero still takes one; and
what would have failed behind the limit does not fail.
-/

namespace GraphWarden

/-- Take what `step` yields along a list, up to a limit. -/
def takeUpTo {α β : Type} (step : α → Answer (Option β)) : Option Nat → List α → Answer (List β)
  | _, [] => .ok []
  | limit, a :: as => do
    match ← step a with
    | none => takeUpTo step limit as
    | some b =>
      if limit.any fun n => n ≤ 1 then .ok [b]
      else do
        let bs ← takeUpTo step (limit.map fun n => n - 1) as
        .ok (b :: bs)

namespace Graph

mutual

/-- What is reported of a node: for each selection its key and datum. -/
def report (g : Graph) (selections : List Selection) (n : Node) : Answer (List (String × Json)) :=
  match selections with
  | [] => .ok []
  | s :: ss => do
    let here ← reportOne g s n
    let others ← report g ss n
    .ok (here :: others)

/-- What one selection reports of a node.  Of an edge only the nodes of the target
type that its filter accepts are reported. -/
def reportOne (g : Graph) (s : Selection) (n : Node) : Answer (String × Json) :=
  match s with
  | ⟨name, label, targetType, filter, selections⟩ =>
    let key := label.getD name
    if name = "id" then .ok (key, .text n.id)
    else
      match n.fields.find? name with
      | none => .ok (key, .null)
      | some (.scalar v) => .ok (key, v.toJson)
      | some (.edges targets) =>
        let one := fun (m : Node) =>
          if targetType.all m.isA then do
            if ← Filter.acceptsIfAny g filter m then do
              let entries ← report g selections m
              .ok (some (Json.object (Entries.ofList entries)))
            else .ok none
          else .ok none
        (takeUpTo one none (g.among targets)).map fun items => (key, .list items)

end

/-- The record of a node under a query, unless the query passes the node over. -/
def record? (g : Graph) (q : Query) (n : Node) : Answer (Option Record) :=
  if n.isA q.typeName then do
    if ← Filter.acceptsIfAny g q.filter n then do
      let entries ← g.report q.selections n
      .ok (some ⟨n.id, n.typeName, .object (Entries.ofList entries)⟩)
    else .ok none
  else .ok none

/-- The records that a query selects. -/
def execute (g : Graph) (q : Query) : Answer (List Record) :=
  takeUpTo (g.record? q) q.first g.toList

/-- The id of a node that a probe matches. -/
def probed? (g : Graph) (p : Probe) (n : Node) : Answer (Option String) :=
  if n.isA p.typeName then do
    if ← p.filter.accepts g n then .ok (some n.id) else .ok none
  else .ok none

/-- The ids that a probe matches. -/
def probe (g : Graph) (p : Probe) : Answer (List String) :=
  let candidates := match p.candidates with
    | some ids => g.among ids
    | none => g.toList
  takeUpTo (g.probed? p) p.limit candidates

/-- The types of the stored nodes among some ids. -/
def typesOf (g : Graph) (ids : List String) : Keyed String :=
  Keyed.ofList ((g.among ids).map fun n => (n.id, n.typeName))

end Graph

namespace Store

/-- An answer of the store, which gives none when it is offline. -/
def online {α : Type} (s : Store) (answer : Answer α) : Answer α :=
  if s.offline then .error (.unavailable "in-memory graph is offline") else answer

/-- The records that a query selects. -/
def execute (s : Store) (q : Query) : Answer (List Record) :=
  s.online (s.graph.execute q)

/-- The ids that a probe matches. -/
def probe (s : Store) (p : Probe) : Answer (List String) :=
  s.online (s.graph.probe p)

/-- The types of the stored nodes among some ids. -/
def typesOf (s : Store) (ids : List String) : Answer (Keyed String) :=
  s.online (.ok (s.graph.typesOf ids))

end Store

end GraphWarden
