import GraphWarden.Filter.Basic

/-!
# Putting filters together

A conjunction takes the parts of its conjunctions into itself, one level deep,
and keeps of filters with the same structure the first; a single part stands for
itself, and `nothing` among the filters makes the whole `nothing`.  Disjunctions
are put together likewise, only that `nothing` is left out.

The point of dropping repeats is `intersect`: what a user asked for, intersected
with what the rules allow, does not grow when the rules are applied again.
-/

namespace GraphWarden.Filter

/-- The filters of a list without those that have the structure of an earlier one
or of one in `kept`, after those in `kept`. -/
def unrepeated (kept : List Filter) : List Filter → List Filter
  | [] => kept
  | f :: fs => unrepeated (if kept.any fun g => same g f then kept else kept ++ [f]) fs

/-- The parts of a conjunction; every other filter is its own only part. -/
def conjuncts : Filter → List Filter
  | .all parts => parts
  | f => [f]

/-- The parts of a disjunction; every other filter is its own only part. -/
def disjuncts : Filter → List Filter
  | .any parts => parts
  | f => [f]

/-- The conjunction of filters. -/
def andAll (filters : List Filter) : Filter :=
  if filters.any isNothing then .nothing
  else
    match unrepeated [] (filters.flatMap conjuncts) with
    | [f] => f
    | parts => .all parts

/-- The disjunction of filters. -/
def orAll (filters : List Filter) : Filter :=
  match unrepeated [] ((filters.filter fun f => !f.isNothing).flatMap disjuncts) with
  | [] => .nothing
  | [f] => f
  | parts => .any parts

/-- The filter `auth` added to a filter that may be there already. -/
def intersect (existing : Option Filter) (auth : Filter) : Filter :=
  match existing with
  | none => auth
  | some f => andAll [f, auth]

/-- The conjunction of filters, where no filter at all is no condition. -/
def conjunction? : List Filter → Option Filter
  | [] => none
  | f :: fs => some (andAll (f :: fs))

end GraphWarden.Filter
