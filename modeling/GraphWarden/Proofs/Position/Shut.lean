import GraphWarden.Proofs.Position.Answer

/-!
# Queries of which nothing may be seen

When nothing is visible of any type, every position that is restricted gets the filter
`nothing`, whatever filter was there (`restrict_of_denied`).  Positions of interfaces and
unions are no exception, because a disjunction without branches is `nothing` too.  Edges
without a target type keep their filters, since nothing is known of what stands there.

A store answers such a query without looking at any filter below its root
(`execute_of_nothing`), and of a split one no part is left to be run (`sent_of_denied`).
-/

namespace GraphWarden

namespace Selection

mutual

/-- The selection with the filter `nothing` at every edge with a target type. -/
def shut : Selection → Selection
  | ⟨name, label, targetType, filter, selections⟩ =>
    { name, label, targetType
      filter := match targetType with
        | none => filter
        | some _ => some .nothing
      selections := shutAll selections }

def shutAll : List Selection → List Selection
  | [] => []
  | x :: xs => shut x :: shutAll xs

end

end Selection

/-- The query with the filter `nothing` at its root and at every edge with a target type. -/
def Query.shut (q : Query) : Query :=
  { q with filter := some .nothing, selections := Selection.shutAll q.selections }

/-- Whatever filter stands at a position, with `nothing` beside it nothing is left. -/
theorem Filter.intersect_nothing (existing : Option Filter) :
    intersect existing .nothing = .nothing := by
  cases existing with
  | none => rfl
  | some f => simp [intersect, andAll, isNothing]

/-- At every position there is a type to be restricted: a type that is not known stands for itself,
and so does one without object types below it. -/
theorem Schema.positionTypes_ne_nil (s : Schema) (typeName : String) :
    s.positionTypes typeName ≠ [] := by
  have hcover : ∀ covered : List String,
      (if covered.isEmpty then [typeName] else covered) ≠ [] := by
    intro covered
    cases covered <;> simp
  unfold positionTypes
  cases s.find? typeName with
  | none => simp
  | some info => exact hcover _

namespace Visibilities

variable {vs root : Visibilities} {s : Schema}

/-- Nothing is visible of any type. -/
def Denies (vs : Visibilities) : Prop :=
  ∀ t out, vs.find? t = some out → out = .denied

/-- Where nothing is visible of any type, a type either has no outcome or is denied. -/
theorem Denies.cases (h : vs.Denies) (t : String) :
    vs.find? t = none ∨ vs.find? t = some .denied := by
  cases hfind : vs.find? t with
  | none => exact Or.inl rfl
  | some out => exact Or.inr (congrArg some (h t out hfind))

/-- A type of which nothing is visible adds no branch to the disjunction at a position. -/
theorem branch_of_denied (h : vs.Denies) (t : String) : vs.branch t = [] := by
  unfold branch
  rcases h.cases t with hfind | hfind <;> rw [hfind]

/-- At every position the filter is `nothing`: none of its types is seen without a restriction, and
a disjunction of no branches lets nothing through. -/
theorem positionFilter_of_denied (h : vs.Denies) (typeName : String) :
    vs.positionFilter s typeName = some .nothing := by
  unfold positionFilter
  simp only
  split
  · rcases h.cases typeName with hfind | hfind <;> rw [hfind]
    rfl
  · have hbranches : (s.positionTypes typeName).flatMap vs.branch = [] :=
      List.flatMap_eq_nil_iff.2 fun t _ => branch_of_denied h t
    have hsome : (s.positionTypes typeName).all vs.allVisible = false := by
      obtain ⟨t, ht⟩ := List.exists_mem_of_ne_nil _ (s.positionTypes_ne_nil typeName)
      refine List.all_eq_false.2 ⟨t, ht, ?_⟩
      unfold allVisible
      rcases h.cases t with hfind | hfind <;> simp [hfind, Visibility.isUnrestricted]
    rw [hsome, hbranches]
    rfl

/-- The filter that stood at a position is replaced by `nothing`. -/
theorem restrictFilter_of_denied (h : vs.Denies) (typeName : String) (existing : Option Filter) :
    vs.restrictFilter s typeName existing = some .nothing := by
  unfold restrictFilter
  rw [positionFilter_of_denied h]
  exact congrArg some (Filter.intersect_nothing existing)

mutual

/-- All selections are shut, each with those below it. -/
theorem restrictAll_of_denied (h : vs.Denies) : (selections : List Selection) →
    vs.restrictAll s selections = Selection.shutAll selections
  | [] => by rw [restrictAll, Selection.shutAll]
  | x :: xs => by
      rw [restrictAll, Selection.shutAll, restrictOne_of_denied h x, restrictAll_of_denied h xs]

/-- A selection with a target type gets the filter `nothing`, and one without keeps what it had;
what is selected below is shut in both cases. -/
theorem restrictOne_of_denied (h : vs.Denies) : (x : Selection) → vs.restrictOne s x = x.shut
  | ⟨name, label, targetType, filter, selections⟩ => by
      simp only [restrictOne, Selection.shut]
      rw [restrictAll_of_denied h selections]
      cases targetType with
      | none => rfl
      | some t =>
          simp only
          rw [restrictFilter_of_denied h]

end

/-- **Of a query nothing is left when nothing is visible of any type.** -/
theorem restrict_of_denied (hroot : root.Denies) (h : vs.Denies) (q : Query) :
    vs.restrict root s q = q.shut := by
  unfold restrict Query.shut
  rw [restrictFilter_of_denied hroot, restrictAll_of_denied h]

/-- No part of a query that was split is run. -/
theorem sent_of_denied (h : vs.Denies) (q : Query) : vs.sent s q = [] := by
  refine List.filter_eq_nil_iff.2 fun part hpart => ?_
  obtain ⟨copy, _, rfl⟩ := List.mem_map.1 hpart
  rw [restrict_of_denied h h]
  simp [Query.shut, Filter.isNothing]

end Visibilities

/-! ### Answers -/

/-- Taking what a step yields gives nothing when no step yields anything. -/
theorem takeUpTo_of_none {α β : Type} {step : α → Answer (Option β)} {as : List α}
    (h : ∀ a ∈ as, step a = .ok none) (limit : Option Nat) : takeUpTo step limit as = .ok [] := by
  induction as with
  | nil => rw [takeUpTo]
  | cons a as ih =>
      rw [takeUpTo, h a List.mem_cons_self]
      exact ih fun a' ha' => h a' (List.mem_cons_of_mem _ ha')

/-- A store answers a query for no node with no record, whatever else the query asks for. -/
theorem Graph.execute_of_nothing (g : Graph) {q : Query} (h : q.filter = some .nothing) :
    g.execute q = .ok [] := by
  refine takeUpTo_of_none (fun n _ => ?_) q.first
  unfold record?
  split
  · simp [h, Filter.acceptsIfAny, Filter.accepts, bind, Except.bind]
  · rfl

end GraphWarden
