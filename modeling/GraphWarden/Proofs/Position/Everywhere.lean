import GraphWarden.Proofs.Position.Shut

/-!
# Every selection of a query

`Query.everywhere` lists the selections of a query at every depth, each before what is selected
behind it.  Restricting a query restricts each of them in its place
(`everywhere_restrict`), and what stands at the positions of any of them counts among the types
that govern the query (`governs_of_mem_everywhere`).

A name that is no type of the schema covers no type and stands for itself.  So at an edge to
such a name nothing is added but what is said to be visible under that very name: **all, and the
filter of the edge is kept, or nothing** (`filter_of_unknown`).
-/

namespace GraphWarden

namespace Selection

mutual

/-- A selection, and all that is selected behind it. -/
def everyAt : Selection → List Selection
  | ⟨name, label, targetType, filter, selections⟩ =>
    ⟨name, label, targetType, filter, selections⟩ :: everyOf selections

def everyOf : List Selection → List Selection
  | [] => []
  | x :: xs => everyAt x ++ everyOf xs

end

end Selection

/-- The selections of a query, at every depth. -/
def Query.everywhere (q : Query) : List Selection :=
  Selection.everyOf q.selections

namespace Visibilities

variable {vs root : Visibilities} {s : Schema}

mutual

/-- The selections below restricted ones are the restricted selections below, in their order. -/
theorem everyOf_restrictAll : (xs : List Selection) →
    Selection.everyOf (vs.restrictAll s xs) = (Selection.everyOf xs).map (vs.restrictOne s)
  | [] => by rw [restrictAll, Selection.everyOf, List.map_nil]
  | x :: xs => by
      rw [restrictAll, Selection.everyOf, Selection.everyOf, List.map_append,
        everyAt_restrictOne x, everyOf_restrictAll xs]

/-- The selections at a restricted one and below it are the restricted selections, in their order.
-/
theorem everyAt_restrictOne : (x : Selection) →
    Selection.everyAt (vs.restrictOne s x) = (Selection.everyAt x).map (vs.restrictOne s)
  | ⟨name, label, targetType, filter, selections⟩ => by
      have hbelow := everyOf_restrictAll selections
      simp only [restrictOne, Selection.everyAt, List.map_cons, hbelow]

end

/-- **Restricting a query restricts every selection in its place.** -/
theorem everywhere_restrict (q : Query) :
    (vs.restrict root s q).everywhere = q.everywhere.map (vs.restrictOne s) :=
  everyOf_restrictAll q.selections

/-- A restricted selection selects the same field under the same key, for the same type. -/
theorem same_restrictOne (vs : Visibilities) (s : Schema) (x : Selection) :
    (vs.restrictOne s x).name = x.name ∧ (vs.restrictOne s x).label = x.label ∧
      (vs.restrictOne s x).targetType = x.targetType := by
  cases x
  exact ⟨rfl, rfl, rfl⟩

/-- The filter of a restricted selection is the restricted filter of the selection. -/
theorem filter_restrictOne {x : Selection} {t : String} (ht : x.targetType = some t) :
    (vs.restrictOne s x).filter = vs.restrictFilter s t x.filter := by
  cases x
  simp only at ht
  subst ht
  rfl

end Visibilities

namespace Schema

variable {s : Schema} {t : String}

/-- At a position of an unknown type stands that type and no other. -/
theorem positionTypes_of_unknown (hunknown : s.find? t = none) : s.positionTypes t = [t] := by
  rw [positionTypes, hunknown]

mutual

/-- What stands at the positions of any selection below is among the types below. -/
theorem mem_typesBelow : (xs : List Selection) → ∀ x ∈ Selection.everyOf xs,
    x.targetType = some t → ∀ u ∈ s.positionTypes t, u ∈ s.typesBelow xs
  | [], x, hx, _, _, _ => by simp [Selection.everyOf] at hx
  | y :: ys, x, hx, ht, u, hu => by
      rw [typesBelow, List.mem_append]
      rw [Selection.everyOf] at hx
      rcases List.mem_append.1 hx with hx | hx
      · exact Or.inl (mem_typesAt y x hx ht u hu)
      · exact Or.inr (mem_typesBelow ys x hx ht u hu)

/-- What stands at the positions of any selection, at one or behind it, is among the types there.
-/
theorem mem_typesAt : (y : Selection) → ∀ x ∈ Selection.everyAt y,
    x.targetType = some t → ∀ u ∈ s.positionTypes t, u ∈ s.typesAt y
  | ⟨name, label, targetType, filter, selections⟩, x, hx, ht, u, hu => by
      simp only [typesAt, List.mem_append]
      rw [Selection.everyAt] at hx
      rcases List.mem_cons.1 hx with rfl | hx
      · simp only at ht
        subst ht
        exact Or.inl hu
      · exact Or.inr (mem_typesBelow selections x hx ht u hu)

end

/-- The types at the position of any selection govern the query. -/
theorem governs_of_mem_everywhere {q : Query} {x : Selection} (hx : x ∈ q.everywhere)
    (ht : x.targetType = some t) {u : String} (hu : u ∈ s.positionTypes t) :
    u ∈ s.governedTypes q :=
  mem_governedTypes.2 (Or.inr (mem_typesBelow q.selections x hx ht u hu))

end Schema

/-- **At an edge to an unknown name** either everything counts as visible, and the filter of the
edge stays as it is, or nothing does. -/
theorem Visibilities.filter_of_unknown (vs : Visibilities) {s : Schema} {x : Selection}
    {t : String} (ht : x.targetType = some t) (hunknown : s.find? t = none) :
    (vs.find? t = some .unrestricted → (vs.restrictOne s x).filter = x.filter) ∧
      (vs.find? t = some .denied → (vs.restrictOne s x).filter = some .nothing) := by
  rw [filter_restrictOne ht, restrictFilter, positionFilter, Schema.positionTypes_of_unknown hunknown]
  constructor
  · intro hfind
    simp [hfind, Visibility.toFilter]
  · intro hfind
    simp [hfind, Visibility.toFilter, Filter.intersect_nothing]

end GraphWarden
