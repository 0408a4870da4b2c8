import GraphWarden.Timeline.Job

/-!
# Asking a store

Every call to a store may fail or take too long, and is then made again after a
pause, as often as the policy allows.  A call takes at most its budget; a request
that is cancelled, or whose deadline has come, gets no further call.

What a store would say to each call is given beforehand; the line decides when it
says so, and whether it fails instead.
-/

namespace GraphWarden

/-- A store as one request sees it. -/
structure Client where
  store : Store
  policy : Policy := {}
  request : Request := {}

/-- How one call to a store comes to an end. -/
inductive CallEnd (α : Type) where
  | answered (answer : Answer α)
  | tookTooLong
  | cancelled

namespace Client

variable {α : Type}

/-- One call with a budget. -/
def callOnce (c : Client) (call : Call) (answer : Answer α) (budget : Nat) (l : Line) :
    Step (CallEnd α) :=
  match l.record call with
  | (.works, l) => .finished l (.answered answer)
  | (.fails problem, l) => .finished l (.answered (.error problem))
  | (.delays ms, l) =>
    let due := l.now + min ms budget
    if c.request.cancelAt.any fun t => t < due then
      .after l (c.request.cancelAt.getD due) fun l => .finished l .cancelled
    else
      .after l due fun l =>
        .finished l (if ms ≤ budget then .answered answer else .tookTooLong)

/-- The pause before the next call. -/
def pause (c : Client) (ms : Nat) : Job Unit := fun l =>
  let due := l.now + ms
  if c.request.cancelAt.any fun t => t < due then
    .after l (c.request.cancelAt.getD due) fun l => .finished l (.error .cancelled)
  else .after l due fun l => .finished l (.ok ())

/-- Call until there is an answer.  `left` further calls may be made after the
`number`-th one, which is made now; `answers` is what the store would say to each. -/
def callFrom (c : Client) (call : Call) (answers : Nat → Answer α) :
    (left number : Nat) → Job α
  | left, number => fun l =>
    match c.request.budget l.now c.policy.timeout with
    | .error problem => .finished l (.error problem)
    | .ok budget =>
      (c.callOnce call (answers number) budget l).bind fun
        | .cancelled, l => .finished l (.error .cancelled)
        | .answered (.ok x), l => .finished (l.count false) (.ok x)
        | .answered (.error problem), l =>
          match left with
          | 0 => .finished (l.count true) (.error (.probeFailed number problem))
          | left + 1 =>
            Job.bind (c.pause (c.policy.backoff * number))
              (fun _ => callFrom c call answers left (number + 1)) (l.count true)
        | .tookTooLong, l =>
          match left with
          | 0 => .finished (l.count true) (.error (.probeTimeout budget))
          | left + 1 =>
            if c.request.isExpired l.now then
              .finished (l.count true) (.error (.probeTimeout budget))
            else
              Job.bind (c.pause (c.policy.backoff * number))
                (fun _ => callFrom c call answers left (number + 1)) (l.count true)

/-- Call until there is an answer, as often as the policy allows. -/
def call (c : Client) (call : Call) (answers : Nat → Answer α) : Job α :=
  c.callFrom call answers c.policy.retries 1

/-- The ids that a probe matches. -/
def probe (c : Client) (p : Probe) : Job (List String) :=
  c.call (.probe p) fun _ => c.store.probe p

/-- The types of the stored nodes among some ids. -/
def typesOf (c : Client) (ids : List String) : Job (Keyed String) :=
  c.call (.typesOf ids) fun _ => c.store.typesOf ids

/-- A failure of a probe as the failure of a query that was to be answered. -/
def asExecution : AccessProblem → AccessProblem
  | .probeFailed _ cause => .execution cause
  | problem => problem

/-- The records that a query selects. -/
def execute (c : Client) (q : Query) : Job (List Record) := fun l =>
  (c.call (.execute q) (fun _ => c.store.execute q) l).map (Except.mapError asExecution)

end Client

end GraphWarden
