import GraphWarden.Proofs.Filter.Repeats
import GraphWarden.Proofs.Position.Answer

/-!
# Restricting a query again

A query that was restricted has the same types at its positions, and restricting it once more
adds to every position the filter that was added before.  At a position with several types
that is a disjunction or one branch of it, and such a filter is always settled
(`settled_orAll_branches`).  At a position with one type it is whatever the rules of that type
leave visible.  So **restricting a query again changes nothing when what is left visible of
its types is settled** (`restrict_again`).
-/

namespace GraphWarden

/-! ### Queries of the same structure -/

namespace Filter

/-- Equality of structure for filters that may be missing. -/
def sameIfAny : Option Filter → Option Filter → Bool
  | none, none => true
  | some f, some g => same f g
  | _, _ => false

theorem sameIfAny_refl (f : Option Filter) : sameIfAny f f = true := by
  cases f with
  | none => rfl
  | some f => exact same_refl f

end Filter

namespace Selection

mutual

/-- Equality of structure. -/
def same : Selection → Selection → Bool
  | ⟨name, label, targetType, filter, selections⟩,
    ⟨name', label', targetType', filter', selections'⟩ =>
    name == name' && label == label' && targetType == targetType' &&
      Filter.sameIfAny filter filter' && sameAll selections selections'

def sameAll : List Selection → List Selection → Bool
  | [], [] => true
  | x :: xs, y :: ys => same x y && sameAll xs ys
  | _, _ => false

end

mutual

/-- A selection is like itself, with all that is selected below it. -/
theorem same_refl : (x : Selection) → same x x = true
  | ⟨name, label, targetType, filter, selections⟩ => by
      simp [same, Filter.sameIfAny_refl, sameAll_refl selections]

theorem sameAll_refl : (xs : List Selection) → sameAll xs xs = true
  | [] => by simp [sameAll]
  | x :: xs => by simp [sameAll, same_refl x, sameAll_refl xs]

end

end Selection

namespace Query

/-- Equality of structure. -/
def same (q q' : Query) : Bool :=
  q.typeName == q'.typeName && Filter.sameIfAny q.filter q'.filter &&
    Selection.sameAll q.selections q'.selections && q.first == q'.first

theorem same_refl (q : Query) : q.same q = true := by
  simp [same, Filter.sameIfAny_refl, Selection.sameAll_refl]

/-- Queries with different filters at the root are different. -/
theorem not_same_of_filter {q q' : Query}
    (h : Filter.sameIfAny q.filter q'.filter = false) : q.same q' = false := by
  simp [same, h]

end Query

/-! ### The filters that are added -/

namespace Filter

variable {fs : List Filter}

/-- A disjunction of settled filters that are no disjunctions themselves is settled. -/
theorem settled_orAll (h : ∀ f ∈ fs, f.Settled ∧ f.disjuncts = [f]) : (orAll fs).Settled := by
  unfold orAll
  split
  · trivial
  · next f hsingle =>
      have hkept : f ∈ unrepeated []
          ((fs.filter fun f => !f.isNothing).flatMap disjuncts) := by simp [hsingle]
      obtain ⟨g, hg, hfg⟩ :=
        List.mem_flatMap.1 ((mem_of_mem_unrepeated hkept).resolve_left (by simp))
      obtain ⟨hsettled, hown⟩ := h g (List.mem_filter.1 hg).1
      rw [hown, List.mem_singleton] at hfg
      exact hfg ▸ hsettled
  · trivial

end Filter

namespace Visibilities

variable {vs : Visibilities} {s : Schema} {typeName : String} {types : List String} {q : Query}

/-- The branch of a type is settled, whatever is visible of the type. -/
theorem settled_branch (t : String) : ∀ f ∈ vs.branch t, f.Settled ∧ f.disjuncts = [f] := by
  intro f hf
  unfold branch at hf
  split at hf
  · rw [List.mem_singleton.1 hf]
    exact ⟨trivial, rfl⟩
  · next inner _ =>
      rw [List.mem_singleton.1 hf]
      rcases Filter.andAll_cons_cases (f := .isType t) (by simp) [inner] with
        h | h | ⟨parts, h, hsettled⟩
      · rw [h]
        exact ⟨trivial, rfl⟩
      · rw [h]
        exact ⟨trivial, rfl⟩
      · rw [h]
        exact ⟨hsettled, rfl⟩
  · simp at hf
  · simp at hf

/-- At a position with several types the disjunction of their branches is settled: each branch is a
conjunction that starts with its own type, so no two of them are alike. -/
theorem settled_orAll_branches (types : List String) :
    (Filter.orAll (types.flatMap vs.branch)).Settled := by
  refine Filter.settled_orAll fun f hf => ?_
  obtain ⟨t, _, hft⟩ := List.mem_flatMap.1 hf
  exact settled_branch t f hft

/-- What is visible of those of the types that stand for themselves is settled. -/
def Settle (vs : Visibilities) (s : Schema) (types : List String) : Prop :=
  ∀ t ∈ types, s.positionTypes t = [t] → ∀ f, vs.find? t = some (.restricted f) → f.Settled

/-- The filter at a position is settled, when what is visible of the position's types is. -/
theorem settled_positionFilter (h : vs.Settle s (s.positionTypes typeName)) {auth : Filter}
    (hauth : vs.positionFilter s typeName = some auth) : auth.Settled := by
  unfold positionFilter at hauth
  simp only at hauth
  split at hauth
  · next hself =>
      cases hfind : vs.find? typeName with
      | none =>
          rw [hfind] at hauth
          cases hauth
          trivial
      | some out =>
          rw [hfind] at hauth
          cases out with
          | unrestricted => simp [Visibility.toFilter] at hauth
          | denied =>
              cases hauth
              trivial
          | restricted f =>
              cases hauth
              exact h typeName (by simp [hself]) hself _ hfind
  · split at hauth
    · simp at hauth
    · cases hauth
      exact settled_orAll_branches _

/-- Restricting a filter that was restricted for the same types adds nothing. -/
theorem restrictFilter_again (h : vs.Settle s (s.positionTypes typeName))
    (existing : Option Filter) :
    vs.restrictFilter s typeName (vs.restrictFilter s typeName existing) =
      vs.restrictFilter s typeName existing := by
  unfold restrictFilter
  cases hauth : vs.positionFilter s typeName with
  | none => rfl
  | some auth => exact congrArg some (Filter.intersect_again (settled_positionFilter h hauth) _)

/-! ### Selections and queries -/

mutual

/-- Restricting selections again changes nothing, when it does not on any of their types. -/
theorem restrictAll_again : (selections : List Selection) →
    vs.Settle s (s.typesBelow selections) →
    vs.restrictAll s (vs.restrictAll s selections) = vs.restrictAll s selections
  | [], _ => by simp [restrictAll]
  | x :: xs, h => by
      rw [restrictAll, restrictAll,
        restrictOne_again x fun t ht => h t (by simp [Schema.typesBelow, ht]),
        restrictAll_again xs fun t ht => h t (by simp [Schema.typesBelow, ht])]

/-- One selection, with those below it.  Its label, its target type and its name are as they were,
so its types are too. -/
theorem restrictOne_again : (x : Selection) → vs.Settle s (s.typesAt x) →
    vs.restrictOne s (vs.restrictOne s x) = vs.restrictOne s x
  | ⟨name, label, targetType, filter, selections⟩, h => by
      simp only [restrictOne]
      rw [restrictAll_again selections fun t ht => h t (by simp [Schema.typesAt, ht])]
      cases targetType with
      | none => rfl
      | some t =>
          simp only
          rw [restrictFilter_again fun t' ht' => h t' (by simp [Schema.typesAt, ht'])]

end

mutual

/-- Restricted selections have the same types at their positions. -/
theorem typesBelow_restrictAll : (selections : List Selection) →
    s.typesBelow (vs.restrictAll s selections) = s.typesBelow selections
  | [] => by simp [restrictAll]
  | x :: xs => by
      rw [restrictAll, Schema.typesBelow, Schema.typesBelow, typesAt_restrictOne x,
        typesBelow_restrictAll xs]

/-- A selection that was restricted has the types it had. -/
theorem typesAt_restrictOne : (x : Selection) →
    s.typesAt (vs.restrictOne s x) = s.typesAt x
  | ⟨name, label, targetType, filter, selections⟩ => by
      simp only [restrictOne, Schema.typesAt, typesBelow_restrictAll selections]

end

/-- A restricted query is governed by the rules of the same types. -/
theorem governedTypes_restrict (root : Visibilities) :
    s.governedTypes (vs.restrict root s q) = s.governedTypes q := by
  unfold Schema.governedTypes restrict
  rw [typesBelow_restrictAll]

/-- **Restricting a query again changes nothing**, when what is visible of its types is
settled. -/
theorem restrict_again (h : vs.Settle s (s.governedTypes q)) :
    vs.restrict vs s (vs.restrict vs s q) = vs.restrict vs s q := by
  have hroot : vs.Settle s (s.positionTypes q.typeName) :=
    fun t ht => h t (Schema.mem_governedTypes.2 (Or.inl ht))
  have hbelow : vs.Settle s (s.typesBelow q.selections) :=
    fun t ht => h t (Schema.mem_governedTypes.2 (Or.inr ht))
  unfold restrict
  rw [restrictFilter_again hroot, restrictAll_again q.selections hbelow]

end Visibilities

end GraphWarden
