import GraphWarden.Timeline.Basic

/-!
# Computations that wait

A computation on a line is over, or it waits until some time and then goes on.
One that is run alone goes on as soon as that time has come.  Two that are run
side by side, `both`, share the line: the first one runs until it waits, then the
second one, and from then on whichever wakes first, or the other one when the line
says so; when one of them fails the other is abandoned.
-/

namespace GraphWarden

/-- A computation on a line. -/
inductive Step (α : Type) where
  | finished (line : Line) (value : α)
  | waiting (line : Line) (wake : Nat) (resume : Line → Step α)

namespace Step

variable {α β ε : Type}

/-- Run a computation alone. -/
def run : Step α → α × Line
  | finished l x => (x, l)
  | waiting l wake resume => run (resume { l with now := max l.now wake })

/-- Go on at some time; at once when it has come. -/
def after (l : Line) (wake : Nat) (resume : Line → Step α) : Step α :=
  if wake ≤ l.now then resume l else waiting l wake resume

/-- One computation after the other. -/
def bind : Step α → (α → Line → Step β) → Step β
  | finished l x, f => f x l
  | waiting l wake resume, f => waiting l wake fun l' => bind (resume l') f

/-- A computation with its value changed. -/
def map (f : α → β) : Step α → Step β
  | finished l x => finished l (f x)
  | waiting l wake resume => waiting l wake fun l' => map f (resume l')

/-- A computation that others have moved to a new line in the meantime. -/
def moveTo (l : Line) : Step α → Step α
  | finished _ x => finished l x
  | waiting _ wake resume => waiting l wake resume

/-- The second of two computations while the first waits.  `first` goes on with both
when the first wakes. -/
def besideWaiting (wake : Nat) (resume : Line → Step (Except ε α))
    (first : Line → Step (Except ε β) → Step (Except ε (α × β))) :
    Step (Except ε β) → Step (Except ε (α × β))
  | finished l (.error e) => finished l (.error e)
  | finished l (.ok y) =>
    waiting l wake fun l' => (resume l').map (Except.map fun x => (x, y))
  | waiting l other resumeOther =>
    let (turn, l) := l.turn
    if decide (wake ≤ other) == decide (turn = 0) then
      waiting l wake fun l' => first l' (waiting l' other resumeOther)
    else waiting l other fun l' => besideWaiting wake resume first (resumeOther l')

/-- Two computations side by side. -/
def both : Step (Except ε α) → (Line → Step (Except ε β)) → Step (Except ε (α × β))
  | finished l (.error e), _ => finished l (.error e)
  | finished l (.ok x), second => (second l).map (Except.map fun y => (x, y))
  | waiting l wake resume, second =>
    besideWaiting wake resume
      (fun l' other => both (resume l') fun l'' => moveTo l'' other) (second l)

end Step

end GraphWarden
