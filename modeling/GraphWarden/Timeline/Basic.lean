import GraphWarden.Problem
import GraphWarden.Store.Answer

/-!
# Requests in time

A request may carry a deadline and may be cancelled, and a store may fail, or
take its time.  Time is a number of milliseconds that moves only while somebody
waits.

A line is one run of the clock: the time, what the store will do with the next
calls, who goes first where several might, and a record of the calls that were made.
-/

namespace GraphWarden

/-- What a store does with one call, apart from answering it. -/
inductive Fault where
  /-- It answers. -/
  | works
  /-- It fails. -/
  | fails (problem : BackendProblem)
  /-- It answers after so many milliseconds. -/
  | delays (ms : Nat)

/-- A call to a store. -/
inductive Call where
  | execute (query : Query)
  | probe (probe : Probe)
  | typesOf (ids : List String)

/-- Who asks, and until when. -/
structure Request where
  claims : Claims := Claims.none
  /-- The time after which no answer is of use. -/
  deadline : Option Nat := none
  /-- The time at which the request is cancelled. -/
  cancelAt : Option Nat := none

namespace Request

/-- Whether the request is cancelled by a time. -/
def isCancelled (r : Request) (now : Nat) : Bool :=
  r.cancelAt.any fun t => t ≤ now

/-- Whether the deadline has come. -/
def isExpired (r : Request) (now : Nat) : Bool :=
  r.deadline.any fun t => t ≤ now

/-- How long a call that is made now may take: `limit`, or what is left before the
deadline. -/
def budget (r : Request) (now limit : Nat) : Except AccessProblem Nat :=
  if r.isCancelled now then .error .cancelled
  else
    match r.deadline with
    | none => .ok limit
    | some t => if t ≤ now then .error (.probeTimeout 0) else .ok (min (t - now) limit)

end Request

/-- How long to wait for a store, and how often to ask it again. -/
structure Policy where
  /-- The longest time for one call. -/
  timeout : Nat := 2000
  /-- How many further calls are made after a failed one. -/
  retries : Nat := 2
  /-- The pause before the first further call; before the `n`-th it is `n` times as
  long. -/
  backoff : Nat := 20

/-- A run of the clock. -/
structure Line where
  now : Nat := 0
  /-- What the store will do with the next calls; with those after, it works. -/
  faults : List Fault := []
  /-- Who goes on, at the next places where several computations might: zero for the one
  whose turn it is by the clock.  At the places after those it is that one. -/
  turns : List Nat := []
  /-- The calls that were made, in order. -/
  calls : List Call := []
  /-- How many calls came to an end. -/
  ended : Nat := 0
  /-- How many of them failed or took too long. -/
  failed : Nat := 0

namespace Line

/-- Record a call, which uses up one fault. -/
def record (l : Line) (call : Call) : Fault × Line :=
  (l.faults.headD .works, { l with faults := l.faults.tail, calls := l.calls ++ [call] })

/-- Who goes on at a place where several might. -/
def turn (l : Line) : Nat × Line :=
  (l.turns.headD 0, { l with turns := l.turns.tail })

/-- The order in which things that might all come first do come, one turn for each. -/
def shuffle {α : Type} : List α → Line → List α × Line
  | [], l => ([], l)
  | x :: xs, l =>
    let (place, l) := l.turn
    let (rest, l) := shuffle xs l
    (rest.take place ++ x :: rest.drop place, l)

/-- Count a call that came to an end. -/
def count (l : Line) (isFailed : Bool) : Line :=
  { l with ended := l.ended + 1, failed := l.failed + (if isFailed then 1 else 0) }

end Line

end GraphWarden
