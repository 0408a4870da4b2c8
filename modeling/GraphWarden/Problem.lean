import GraphWarden.Schema.Problem
import GraphWarden.Store.Basic

/-!
# Why a request fails

A denial is no failure: what may not be read is left out of the answer, and what
may not be written is left out of the write.  A request fails because it asks for
something that there is not, or because the answer could not be found out in
time; only the latter says something about the infrastructure.
-/

namespace GraphWarden

/-- A duration in milliseconds as it is shown to people: in whole milliseconds
below a second, and above with as many places as it takes. -/
def durationText (ms : Nat) : String :=
  if ms = 0 then "0ns"
  else if ms < 1000 then toString ms ++ "ms"
  else
    let places := (toString (1000 + ms % 1000)).toList.drop 1
    let places := (places.reverse.dropWhile (· = '0')).reverse
    toString (ms / 1000) ++ (if places.isEmpty then "" else "." ++ String.ofList places) ++ "s"

/-- What a request asks for although there is no such thing. -/
inductive RequestFlaw where
  | claims (flaw : Claims.Flaw)
  | unknownType (name : String)
  | notWrite (op : Operation)
  | writeToUnion (name : String)
  | addToInterface (name : String)
deriving DecidableEq, Repr

/-- The wording of a request's flaw. -/
def RequestFlaw.message : RequestFlaw → String
  | .claims flaw => flaw.message
  | .unknownType name => "unknown type '" ++ name ++ "'"
  | .notWrite op => "'" ++ op.name ++ "' is not a write operation"
  | .writeToUnion name => "cannot write to union type '" ++ name ++ "'"
  | .addToInterface name => "cannot add nodes of interface type '" ++ name ++ "'"

/-- Why a request fails. -/
inductive AccessProblem where
  | schema (problem : SchemaProblem)
  | noSchema
  | request (flaw : RequestFlaw)
  /-- The store failed as often as it is asked; the count and the last cause. -/
  | probeFailed (attempts : Nat) (cause : BackendProblem)
  /-- The store did not answer within so many milliseconds. -/
  | probeTimeout (ms : Nat)
  | cancelled
  /-- A negated filter is needed, and the store cannot evaluate one. -/
  | cannotNegate
  | execution (cause : BackendProblem)
  /-- A negation has no rule to negate. -/
  | emptyNegation

namespace AccessProblem

/-- The wording of a problem. -/
def message : AccessProblem → String
  | .schema problem => "Schema compilation failed: " ++ problem.message
  | .noSchema => "No schema loaded"
  | .request flaw => "Invalid input: " ++ flaw.message
  | .probeFailed attempts cause =>
    "Authorization probe failed after " ++ toString attempts ++ " attempt(s): " ++ cause.message
  | .probeTimeout ms => "Authorization probe timed out after " ++ durationText ms
  | .cancelled => "Request cancelled"
  | .cannotNegate =>
    "Unsupported executor capability: executor cannot negate a graph-rule filter"
  | .execution cause => "Query execution failed: " ++ cause.message
  | .emptyNegation => "Internal error: 'not' without a child"

/-- Whether the answer could not be found out, as opposed to a fault of the
request. -/
def isInfrastructure : AccessProblem → Bool
  | .probeFailed _ _ | .probeTimeout _ | .execution _ => true
  | _ => false

end AccessProblem

end GraphWarden
