import GraphWarden.Timeline.Step

/-!
# Jobs

A job is a computation that is started on a line and may fail.  Jobs follow one
another with `do`, and the first failure ends the sequence; `gather` starts many
side by side and lists what they yield in the order in which they finish.
-/

namespace GraphWarden

/-- A computation to be started on a line. -/
def Job (α : Type) : Type := Line → Step (Except AccessProblem α)

namespace Job

variable {α β : Type}

/-- The job that is finished at once. -/
def pure (x : α) : Job α := fun l => .finished l (.ok x)

/-- The job that fails at once. -/
def fail (problem : AccessProblem) : Job α := fun l => .finished l (.error problem)

/-- One job after the other. -/
def bind (job : Job α) (next : α → Job β) : Job β := fun l =>
  (job l).bind fun
    | .ok x, l' => next x l'
    | .error problem, l' => .finished l' (.error problem)

instance : Monad Job where
  pure := pure
  bind := bind

/-- The job that is finished at once with a result. -/
def ofExcept : Except AccessProblem α → Job α
  | .ok x => pure x
  | .error problem => fail problem

/-- A job that also tells when it finished. -/
def stamped (job : Job α) : Job (Nat × α) := fun l =>
  (job l).bind fun
    | .ok x, l' => .finished l' (.ok (l'.now, x))
    | .error problem, l' => .finished l' (.error problem)

/-- Put what finished at some time in front of what finished then or later. -/
def arrive (x : Nat × α) : List (Nat × α) → List (Nat × α)
  | [] => [x]
  | y :: ys => if y.1 < x.1 then y :: arrive x ys else x :: y :: ys

/-- Jobs side by side; what they yield, with the times, in the order in which they
finish. -/
def gatherStamped : List (Job α) → Job (List (Nat × α))
  | [] => pure []
  | job :: jobs => fun l =>
    (Step.both (job.stamped l) (gatherStamped jobs)).map
      (Except.map fun (x, xs) => arrive x xs)

/-- Jobs side by side, started in an order that the line decides; what they yield in the
order in which they finish. -/
def gather (jobs : List (Job α)) : Job (List α) := fun l =>
  let (jobs, l) := l.shuffle jobs
  (gatherStamped jobs l).map (Except.map fun xs => xs.map Prod.snd)

/-- Run a job from start to end. -/
def run (job : Job α) (l : Line) : Except AccessProblem α × Line :=
  (job l).run

end Job

end GraphWarden
