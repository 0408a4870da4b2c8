import GraphWarden.Value.Compare

/-!
# Filters

A filter is a condition on one stored node: on its fields, its id, its types, and,
along its edges, on its neighbours.  Rules are compiled into filters, users write
filters, and whoever executes a query is handed one filter that holds both.

`same` is equality of structure and inherits from values that the two zeros are
the same number; like equality of values it is an equivalence.
-/

namespace GraphWarden

/-- How a field is compared with an operand. -/
inductive Comparison where
  | equal
  | oneOf
  | below
  | atMost
  | above
  | atLeast
  | matching
deriving DecidableEq, Repr

namespace Comparison

/-- Every comparison. -/
def every : List Comparison :=
  [equal, oneOf, below, atMost, above, atLeast, matching]

/-- The name of a comparison in filters. -/
def name : Comparison → String
  | equal => "eq"
  | oneOf => "in"
  | below => "lt"
  | atMost => "le"
  | above => "gt"
  | atLeast => "ge"
  | matching => "regexp"

/-- The comparison of this name. -/
def ofName? (s : String) : Option Comparison :=
  every.find? fun c => c.name == s

theorem ofName?_name (c : Comparison) : ofName? c.name = some c := by
  cases c <;> decide

end Comparison

/-- A condition on a stored node. -/
inductive Filter where
  /-- No node. -/
  | nothing
  /-- A field compared with an operand. -/
  | compare (field : String) (op : Comparison) (operand : Value)
  /-- The field is present: it holds a scalar or at least one edge. -/
  | has (field : String)
  /-- The node's id is listed. -/
  | ids (ids : List String)
  /-- The node is of the type or of a type that implements it. -/
  | isType (name : String)
  /-- Some neighbour along the field satisfies the inner filter. -/
  | edge (field : String) (inner : Filter)
  /-- Every part. -/
  | all (parts : List Filter)
  /-- Some part. -/
  | any (parts : List Filter)
  /-- Not the inner filter. -/
  | not (inner : Filter)

namespace Filter

instance : Inhabited Filter := ⟨nothing⟩

/-- The filter that asks a field to equal an operand. -/
def equals (field : String) (operand : Value) : Filter :=
  .compare field .equal operand

/-- Whether the filter is the one that no node satisfies by its form. -/
def isNothing : Filter → Bool
  | .nothing => true
  | _ => false

mutual

/-- Equality of structure. -/
def same : Filter → Filter → Bool
  | .nothing, .nothing => true
  | .compare f op v, .compare g oq w => f == g && op == oq && v.same w
  | .has f, .has g => f == g
  | .ids is, .ids js => is == js
  | .isType s, .isType t => s == t
  | .edge f x, .edge g y => f == g && same x y
  | .all xs, .all ys => sameParts xs ys
  | .any xs, .any ys => sameParts xs ys
  | .not x, .not y => same x y
  | _, _ => false

def sameParts : List Filter → List Filter → Bool
  | [], [] => true
  | x :: xs, y :: ys => same x y && sameParts xs ys
  | _, _ => false

end

mutual

/-- The variables of a filter, each occurrence, from left to right. -/
def occurrences : Filter → List String
  | .compare _ _ v => v.occurrences
  | .edge _ inner | .not inner => occurrences inner
  | .all parts | .any parts => occurrencesParts parts
  | .nothing | .has _ | .ids _ | .isType _ => []

def occurrencesParts : List Filter → List String
  | [] => []
  | f :: fs => occurrences f ++ occurrencesParts fs

end

/-- The variables of a filter in the order of their first occurrence. -/
def variableNames (f : Filter) : List String :=
  Names.distinct f.occurrences

mutual

/-- The filter as it is shown to people. -/
def display : Filter → String
  | .nothing => "NOTHING"
  | .compare field op v => field ++ " " ++ op.name ++ " " ++ v.display
  | .has field => "has(" ++ field ++ ")"
  | .ids listed => "id in [" ++ String.intercalate ", " listed ++ "]"
  | .isType name => "type(" ++ name ++ ")"
  | .edge field inner => field ++ " -> " ++ display inner
  | .all parts => "(" ++ displayParts " AND " parts ++ ")"
  | .any parts => "(" ++ displayParts " OR " parts ++ ")"
  | .not inner => "NOT " ++ display inner

def displayParts (separator : String) : List Filter → String
  | [] => ""
  | [f] => display f
  | f :: fs => display f ++ separator ++ displayParts separator fs

end

mutual

theorem same_refl : (f : Filter) → same f f = true
  | .nothing | .has _ | .ids _ | .isType _ => by simp [same]
  | .compare _ _ v => by simp [same, Value.same_refl]
  | .edge _ x | .not x => by simp [same, same_refl x]
  | .all xs | .any xs => by simp [same, sameParts_refl xs]

theorem sameParts_refl : (fs : List Filter) → sameParts fs fs = true
  | [] => by simp [sameParts]
  | f :: fs => by simp [sameParts, same_refl f, sameParts_refl fs]

end

mutual

/-- It does not matter in which order two filters are compared. -/
theorem same_comm : (f g : Filter) → same f g = same g f
  | .nothing, g => by cases g <;> simp [same]
  | .compare f op v, g => by
    cases g with
    | compare g oq w =>
      simp [same, Value.same_comm v w, Bool.beq_comm (a := f), Bool.beq_comm (a := op)]
    | _ => simp [same]
  | .has _, g => by cases g <;> simp [same, Bool.beq_comm]
  | .ids _, g => by cases g <;> simp [same, Bool.beq_comm]
  | .isType _, g => by cases g <;> simp [same, Bool.beq_comm]
  | .edge f x, g => by
    cases g with
    | edge g y => simp [same, same_comm x y, Bool.beq_comm (a := f)]
    | _ => simp [same]
  | .not x, g => by
    cases g with
    | not y => simp [same, same_comm x y]
    | _ => simp [same]
  | .all xs, g => by
    cases g with
    | all ys => simp [same, sameParts_comm xs ys]
    | _ => simp [same]
  | .any xs, g => by
    cases g with
    | any ys => simp [same, sameParts_comm xs ys]
    | _ => simp [same]

theorem sameParts_comm : (fs gs : List Filter) → sameParts fs gs = sameParts gs fs
  | [], gs => by cases gs <;> simp [sameParts]
  | f :: fs, [] => by simp [sameParts]
  | f :: fs, g :: gs => by simp [sameParts, same_comm f g, sameParts_comm fs gs]

end

mutual

/-- Filters of the same structure as a third are of one structure.  It is needed on top of equality
because values in filters may be the same without being equal. -/
theorem same_trans : (f g h : Filter) → same f g = true → same g h = true → same f h = true
  | .nothing, g, h, hfg, hgh => by cases g <;> simp [same] at hfg; exact hgh
  | .compare _ _ _, g, h, hfg, hgh => by
    cases g <;> simp [same] at hfg
    cases h <;> simp [same] at hgh
    simp [same, hfg, hgh]
    exact Value.same_trans _ _ _ hfg.2 hgh.2
  | .has _, g, h, hfg, hgh => by cases g <;> simp [same] at hfg; simpa [hfg] using hgh
  | .ids _, g, h, hfg, hgh => by cases g <;> simp [same] at hfg; simpa [hfg] using hgh
  | .isType _, g, h, hfg, hgh => by cases g <;> simp [same] at hfg; simpa [hfg] using hgh
  | .edge _ x, g, h, hfg, hgh => by
    cases g <;> simp [same] at hfg
    cases h <;> simp [same] at hgh
    simp [same, hfg, hgh, same_trans x _ _ hfg.2 hgh.2]
  | .not x, g, h, hfg, hgh => by
    cases g <;> simp [same] at hfg
    cases h <;> simp [same] at hgh
    simp [same, same_trans x _ _ hfg hgh]
  | .all xs, g, h, hfg, hgh => by
    cases g <;> simp [same] at hfg
    cases h <;> simp [same] at hgh
    simp [same, sameParts_trans xs _ _ hfg hgh]
  | .any xs, g, h, hfg, hgh => by
    cases g <;> simp [same] at hfg
    cases h <;> simp [same] at hgh
    simp [same, sameParts_trans xs _ _ hfg hgh]

/-- Parts of the same structure as the parts of a third filter are of one structure. -/
theorem sameParts_trans : (fs gs hs : List Filter) →
    sameParts fs gs = true → sameParts gs hs = true → sameParts fs hs = true
  | [], gs, hs, hfg, hgh => by cases gs <;> simp [sameParts] at hfg; exact hgh
  | f :: fs, gs, hs, hfg, hgh => by
    cases gs <;> simp [sameParts] at hfg
    cases hs <;> simp [sameParts] at hgh
    simp [sameParts, same_trans f _ _ hfg.1 hgh.1, sameParts_trans fs _ _ hfg.2 hgh.2]

end

end Filter

end GraphWarden
