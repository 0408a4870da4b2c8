import GraphWarden.Problem
import GraphWarden.Filter.Bind

/-!
# What a rule leaves visible

For given claims a rule is a condition on nodes.  Role rules are decided on the
spot, variables are replaced by claims, and what is left is one of three: every
node, no node, or the nodes that one filter accepts.  A rule whose variables are
not all claimed leaves no node.

Nothing is asked of the store, only whether it can evaluate negated filters.
-/

namespace GraphWarden

/-- Which nodes may be seen. -/
inductive Visibility where
  | unrestricted
  | denied
  | restricted (filter : Filter)

namespace Visibility

/-- The filter to add to a query; none when every node may be seen. -/
def toFilter : Visibility → Option Filter
  | unrestricted => none
  | denied => some .nothing
  | restricted f => some f

def isDenied : Visibility → Bool
  | denied => true
  | _ => false

def isUnrestricted : Visibility → Bool
  | unrestricted => true
  | _ => false

/-- What all of several restrictions leave visible. -/
def ofAll : List Filter → Visibility
  | [] => unrestricted
  | parts => restricted (Filter.andAll parts)

/-- What some of several restrictions leave visible. -/
def ofAny : List Filter → Visibility
  | [] => denied
  | parts => restricted (Filter.orAll parts)

end Visibility

/-- The filter of a graph rule for some claims: `none` when a declared variable has
no claim, `some none` when the rule sets no condition. -/
def GraphRule.bind? (rule : GraphRule) (claims : Claims) : Option (Option Filter) :=
  if rule.declared.all claims.has then
    match rule.filter with
    | none => some none
    | some f => (f.bind? claims).map some
  else none

/-- What a graph rule leaves visible. -/
def GraphRule.visibility (rule : GraphRule) (claims : Claims) : Visibility :=
  match rule.bind? claims with
  | none => .denied
  | some none => .unrestricted
  | some (some f) => .restricted f

/-- What a negation leaves visible of what its rule leaves visible. -/
def Visibility.negated (complement : Bool) : Visibility → Except AccessProblem Visibility
  | .unrestricted => .ok .denied
  | .denied => .ok .unrestricted
  | .restricted f => if complement then .ok (.restricted (.not f)) else .error .cannotNegate

namespace Rule

mutual

/-- What a rule leaves visible. -/
def visibility (complement : Bool) (claims : Claims) : Rule → Except AccessProblem Visibility
  | .role rule => .ok (if rule.holds claims then .unrestricted else .denied)
  | .graph rule => .ok (rule.visibility claims)
  | .combine .all rules => allVisible complement claims [] rules
  | .combine .any rules => anyVisible complement claims [] rules
  | .combine .not [] => .error .emptyNegation
  | .combine .not (rule :: _) => do
    let v ← visibility complement claims rule
    v.negated complement

/-- What all rules leave visible together with the restrictions `parts`; the rest
is not looked at once a rule denies everything. -/
def allVisible (complement : Bool) (claims : Claims) (parts : List Filter) :
    List Rule → Except AccessProblem Visibility
  | [] => .ok (.ofAll parts)
  | r :: rs => do
    match ← visibility complement claims r with
    | .denied => .ok .denied
    | .unrestricted => allVisible complement claims parts rs
    | .restricted f => allVisible complement claims (parts ++ [f]) rs

/-- What some rule leaves visible or some of the restrictions `parts`; the rest is
not looked at once a rule allows everything. -/
def anyVisible (complement : Bool) (claims : Claims) (parts : List Filter) :
    List Rule → Except AccessProblem Visibility
  | [] => .ok (.ofAny parts)
  | r :: rs => do
    match ← visibility complement claims r with
    | .unrestricted => .ok .unrestricted
    | .denied => anyVisible complement claims parts rs
    | .restricted f => anyVisible complement claims (parts ++ [f]) rs

end

/-- What a rule that may be missing leaves visible. -/
def visibilityIfAny (complement : Bool) (claims : Claims) :
    Option Rule → Except AccessProblem Visibility
  | none => .ok .unrestricted
  | some rule => rule.visibility complement claims

end Rule

end GraphWarden
