import GraphWarden.Timeline.Client

/-!
# Queries over several types

A query on an interface or a union is run once for each object type, side by side,
and the records are put together by id.  Of two records with one id the one that
arrived first stays, and a limit counts the records that are left, in the order of
their ids.
-/

namespace GraphWarden.Client

/-- Add records to those that are there; a record whose id is taken is passed over. -/
def merge (merged : Keyed Record) (records : List Record) : Keyed Record :=
  records.foldl (fun m r => if m.contains r.id then m else m.put r.id r) merged

/-- The records of several queries, in the order of their ids.  A query that no node
can match is not run. -/
def executeUnion (c : Client) (queries : List Query) (first : Option Nat) :
    Job (List Record) := do
  let sent := queries.filter fun q => !q.filter.any Filter.isNothing
  let answers ← Job.gather (sent.map c.execute)
  let records := (answers.foldl merge Keyed.empty).values
  pure (match first with
    | none => records
    | some n => records.take n)

end GraphWarden.Client
