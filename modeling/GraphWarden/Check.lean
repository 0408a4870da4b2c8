import GraphWarden.Timeline.Client
import GraphWarden.Visibility

/-!
# Checking rules against the store

A rule can be asked in two ways.  Unbound, `holds` asks whether it holds for the
request at all, as for a node that is not there yet: a graph rule holds when some
stored node matches it.  Bound, `passing` asks which of given nodes it holds for:
a graph rule is a probe among them, and the nodes that one rule has decided are
not asked about again.

Sets of nodes are rising lists of ids.
-/

namespace GraphWarden.Rule

/-- Whether a graph rule holds for the request. -/
def graphHolds (c : Client) (rule : GraphRule) : Job Bool :=
  match rule.bind? c.request.claims with
  | none => pure false
  | some filter => do
    let hits ← c.probe {
      typeName := rule.rootType
      filter := filter.getD (.isType rule.rootType)
      limit := some 1 }
    pure !hits.isEmpty

mutual

/-- Whether a rule holds for the request. -/
def holds (c : Client) : Rule → Job Bool
  | .role rule => pure (rule.holds c.request.claims)
  | .graph rule => graphHolds c rule
  | .combine .all rules => holdsAll c rules
  | .combine .any rules => holdsAny c rules
  | .combine .not [] => .fail .emptyNegation
  | .combine .not (rule :: _) => do
    let b ← holds c rule
    pure !b

def holdsAll (c : Client) : List Rule → Job Bool
  | [] => pure true
  | r :: rs => do
    if ← holds c r then holdsAll c rs else pure false

def holdsAny (c : Client) : List Rule → Job Bool
  | [] => pure false
  | r :: rs => do
    if ← holds c r then pure true else holdsAny c rs

end

/-- The nodes of a type among candidates for which a graph rule holds. -/
def graphPassing (c : Client) (rule : GraphRule) (typeName : String) (candidates : List String) :
    Job (List String) :=
  match rule.bind? c.request.claims with
  | none => pure []
  | some filter => do
    let hits ← c.probe {
      typeName
      filter := filter.getD (.isType typeName)
      candidates := some candidates }
    pure (Names.sorted hits)

/-- Nodes without those of a list. -/
def without (ids hits : List String) : List String :=
  ids.filter fun id => !hits.contains id

mutual

/-- The nodes of a type among candidates for which a rule holds; nobody is asked
when there are no candidates. -/
def passing (c : Client) (typeName : String) (rule : Rule) (candidates : List String) :
    Job (List String) :=
  if candidates.isEmpty then pure []
  else
    match rule with
    | .role rule => pure (if rule.holds c.request.claims then candidates else [])
    | .graph rule => graphPassing c rule typeName candidates
    | .combine .all rules => passingAll c typeName rules candidates
    | .combine .any rules => passingAny c typeName rules candidates []
    | .combine .not [] => .fail .emptyNegation
    | .combine .not (rule :: _) => do
      let hits ← passing c typeName rule candidates
      pure (without candidates hits)

/-- The candidates for which all rules hold. -/
def passingAll (c : Client) (typeName : String) (rules : List Rule) (candidates : List String) :
    Job (List String) :=
  match rules with
  | [] => pure candidates
  | r :: rs => do
    let remaining ← passing c typeName r candidates
    passingAll c typeName rs remaining

/-- The candidates for which some rule holds, together with those that have passed. -/
def passingAny (c : Client) (typeName : String) (rules : List Rule)
    (pending passed : List String) : Job (List String) :=
  match rules with
  | [] => pure passed
  | r :: rs => do
    let hits ← passing c typeName r pending
    passingAny c typeName rs (without pending hits) (Names.sorted (passed ++ hits))

end

end GraphWarden.Rule

namespace GraphWarden

/-- The answer to the question what a rule allows. -/
inductive Verdict where
  /-- Whether the rule holds for the request. -/
  | allowed (b : Bool)
  /-- The given nodes for which it holds, in rising order. -/
  | passed (ids : List String)
  /-- What it leaves visible. -/
  | visible (v : Visibility)

/-- How a rule is asked. -/
inductive Mode where
  /-- For the request, or for given nodes of a type. -/
  | gate (typeName : String) (candidates : Option (List String))
  | filter

/-- Ask a rule that may be missing; a missing rule allows everything. -/
def Rule.evaluate (c : Client) (rule : Option Rule) : Mode → Job Verdict
  | .filter =>
    (Job.ofExcept (visibilityIfAny c.store.complement c.request.claims rule)).bind fun v =>
      pure (.visible v)
  | .gate typeName candidates =>
    match rule, candidates with
    | none, none => pure (.allowed true)
    | none, some ids => pure (.passed (Names.sorted ids))
    | some rule, none => do
      let b ← rule.holds c
      pure (.allowed b)
    | some rule, some ids => do
      let passed ← rule.passing c typeName (Names.sorted ids)
      pure (.passed passed)

end GraphWarden
