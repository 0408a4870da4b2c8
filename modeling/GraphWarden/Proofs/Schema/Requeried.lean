import GraphWarden.Proofs.Schema.Arrangement
import GraphWarden.Proofs.Schema.Declared

/-!
# Other rules for queries

`SchemaDefinition.Requeried` relates two definitions that may declare other rules for queries,
and are the same otherwise.  Their schemas have the same types (`types_requeried`), so that a
query has the same positions in both (`typesBelow_congr`), and is restricted in the same way
where the same is visible (`restrict_congr`).

**A type is governed by the same rule where nothing that governs it differs**: for queries
when all query rules in the hierarchy of the type are the same (`rule?_requeried`), for
checking a password also when the hierarchy declares a password rule, and then the query rules
do not matter (`passwordRule?_requeried`).
-/

namespace GraphWarden

/-! ### Definitions -/

/-- A type that may have another rule for queries, and is the same otherwise. -/
structure TypeDefinition.Requeried (d d' : TypeDefinition) : Prop where
  name : d'.name = d.name
  kind : d'.kind = d.kind
  interfaces : d'.interfaces = d.interfaces
  members : d'.members = d.members
  declared : ∀ op, op ≠ .query → d'.declared? op = d.declared? op

namespace SchemaDefinition

variable {definition definition' : SchemaDefinition} {name typeName : String} {op : Operation}

/-- The same types, which may have other rules for queries. -/
structure Requeried (definition definition' : SchemaDefinition) : Prop where
  types : List.Forall₂ TypeDefinition.Requeried definition.types definition'.types
  descriptor : definition'.descriptor = definition.descriptor

/-- A type and all that it implements have the same rules for queries in both definitions. -/
def SameQueryRules (definition definition' : SchemaDefinition) (typeName : String) : Prop :=
  ∀ name, definition.AtOrAbove typeName name →
    definition'.declared? name .query = definition.declared? name .query

namespace Requeried

/-- Both have the same hierarchy. -/
theorem hierarchy_eq (h : definition.Requeried definition') :
    Hierarchy.ofDefinitions definition'.types = Hierarchy.ofDefinitions definition.types := by
  have hpass : ∀ {types types' : List TypeDefinition} (start : Kinship),
      List.Forall₂ TypeDefinition.Requeried types types' →
      types'.foldlM Kinship.add start = types.foldlM Kinship.add start := by
    intro types types' start hpaired
    induction hpaired generalizing start with
    | nil => rfl
    | @cons d d' types types' hd _ ih =>
        have hadd : start.add d' = start.add d := by
          rw [Kinship.add, Kinship.add, hd.name, hd.kind, hd.interfaces]
        rw [List.foldlM_cons, List.foldlM_cons, hadd]
        exact bind_congr fun middle => ih middle
  have hkin : Kinship.ofDefinitions definition'.types = Kinship.ofDefinitions definition.types :=
    hpass Keyed.empty h.types
  unfold Hierarchy.ofDefinitions
  rw [hkin]

/-- For other operations both declare the same. -/
theorem declared?_eq (h : definition.Requeried definition') (hop : op ≠ .query) :
    definition'.declared? name op = definition.declared? name op := by
  have hpass : ∀ {types types' : List TypeDefinition},
      List.Forall₂ TypeDefinition.Requeried types types' →
      ((types'.find? fun d => d.name = name).bind fun d => d.declared? op) =
        (types.find? fun d => d.name = name).bind fun d => d.declared? op := by
    intro types types' hpaired
    induction hpaired with
    | nil => rfl
    | @cons d d' types types' hd _ ih =>
        rw [List.find?_cons, List.find?_cons, hd.name]
        by_cases hname : d.name = name
        · simp [hname, hd.declared op hop]
        · simpa [hname] using ih
  exact hpass h.types

end Requeried

end SchemaDefinition

/-! ### Schemas -/

namespace Schema

section Requeried

variable {definition definition' : SchemaDefinition} {s s' : Schema} {hier hier' : Hierarchy}
  {own own' : Keyed (Slots Rule)} {op : Operation} {typeName : String}
  (hsame : definition.Requeried definition')
  (hs : s.CompiledFrom definition.types hier own)
  (hs' : s'.CompiledFrom definition'.types hier' own')

include hsame hs hs'

/-- Definitions that differ in query rules only have the same hierarchy, because rules play no part
in it. -/
theorem hier_requeried : hier' = hier := by
  have hboth := hs'.hierarchy
  rw [hsame.hierarchy_eq, hs.hierarchy] at hboth
  exact (Except.ok.inj hboth).symm

/-- Definitions that differ in query rules only compile to the same types. -/
theorem types_requeried : s'.types = s.types := by
  have hhier := hier_requeried hsame hs hs'
  subst hhier
  have hinfo : ∀ d d' : TypeDefinition, d.Requeried d' →
      (d'.name, typeInfo hier' d') = (d.name, typeInfo hier' d) := by
    intro d d' hd
    rw [typeInfo, typeInfo, hd.name, hd.kind, hd.members]
  rw [hs'.infos, hs.infos, map_eq_of_forall₂ hsame.types hinfo]

/-- A type without effective rules has none in the other schema. -/
theorem rule?_of_undefined (hundefined : ¬ ∃ d ∈ definition.types, d.name = typeName ∧
    d.kind ≠ .union) (op : Operation) :
    s.rule? typeName op = none ∧ s'.rule? typeName op = none := by
  obtain ⟨_, hback⟩ := partners_of_forall₂ hsame.types
  rw [Option.eq_none_iff_forall_not_mem, Option.eq_none_iff_forall_not_mem]
  constructor
  · exact fun rule hrule => hundefined (hs.exists_of_rule? hrule)
  · intro rule hrule
    obtain ⟨d', hd', hname, hkind⟩ := hs'.exists_of_rule? hrule
    obtain ⟨d, hd, hdd'⟩ := hback d' hd'
    rw [hdd'.name] at hname
    rw [hdd'.kind] at hkind
    exact hundefined ⟨d, hd, hname, hkind⟩

/-- The rule for an operation is the same where the hierarchy of the type declares the same. -/
theorem rule?_requeried (hdeclared : ∀ name, definition.AtOrAbove typeName name →
    definition'.declared? name op = definition.declared? name op) :
    s'.rule? typeName op = s.rule? typeName op := by
  have hhier := hier_requeried hsame hs hs'
  subst hhier
  obtain ⟨hforth, _⟩ := partners_of_forall₂ hsame.types
  by_cases hdefined : ∃ d ∈ definition.types, d.name = typeName ∧ d.kind ≠ .union
  · obtain ⟨d, hd, rfl, hkind⟩ := hdefined
    obtain ⟨d', hd', hdd'⟩ := hforth d hd
    have hrule' : s'.rule? d'.name op = conjunction? (declaredRules own' hier' d'.name op) :=
      hs'.rule?_eq hd' (by rw [hdd'.kind]; exact hkind)
    rw [hdd'.name] at hrule'
    rw [hrule', hs.rule?_eq hd hkind]
    refine congrArg conjunction? (List.filterMap_congr fun name hname => ?_)
    have habove := hs.mem_hierarchy_iff.1 hname
    obtain ⟨e, he, rfl, hekind⟩ := hs.defined_of_atOrAbove hd hkind habove
    obtain ⟨e', he', hee'⟩ := hforth e he
    have hown := hs.declared?_eq he hekind op
    have hown' := hs'.declared?_eq he' (by rw [hee'.kind]; exact hekind) op
    rw [hee'.name, hdeclared e.name habove, hown] at hown'
    exact (Option.map_injective (fun _ _ => Except.ok.inj) hown').symm
  · obtain ⟨hnone, hnone'⟩ := rule?_of_undefined hsame hs hs' hdefined op
    rw [hnone, hnone']

/-- A password check is governed by the same rule, when the query rules are the same or the
hierarchy declares a password rule, so that none of them stands in for it. -/
theorem passwordRule?_requeried (hgoverned : definition.SameQueryRules definition' typeName ∨
    definition.Declares typeName .password) :
    s'.passwordRule? typeName = s.passwordRule? typeName := by
  have hpassword : s'.rule? typeName .password = s.rule? typeName .password :=
    rule?_requeried hsame hs hs' fun name _ => hsame.declared?_eq (by simp)
  unfold passwordRule?
  rw [hpassword]
  cases hrule : s.rule? typeName .password with
  | some rule => rfl
  | none =>
      rcases hgoverned with hquery | hdeclares
      · rw [rule?_requeried hsame hs hs' hquery]
      · -- where one is declared only a union has no password rule, and it has no others either
        have hundefined : ¬ ∃ d ∈ definition.types, d.name = typeName ∧ d.kind ≠ .union := by
          rintro ⟨d, hd, rfl, hkind⟩
          have hsome := (hs.isSome_rule?_iff hd hkind .password).2 hdeclares
          simp [hrule] at hsome
        obtain ⟨hnone, hnone'⟩ := rule?_of_undefined hsame hs hs' hundefined .query
        rw [hnone, hnone']

end Requeried

/-! ### Queries -/

variable {s s' : Schema} {q : Query}

/-- Schemas with the same types have the same types at every position. -/
theorem positionTypes_congr (h : ∀ name, s'.find? name = s.find? name) :
    s'.positionTypes = s.positionTypes := by
  funext typeName
  unfold positionTypes
  rw [h]

mutual

/-- The types below some selections depend on the positions only. -/
theorem typesBelow_congr (h : s'.positionTypes = s.positionTypes) :
    (selections : List Selection) → s'.typesBelow selections = s.typesBelow selections
  | [] => by rw [typesBelow, typesBelow]
  | x :: xs => by rw [typesBelow, typesBelow, typesAt_congr h x, typesBelow_congr h xs]

/-- The types at one selection and below it depend on the positions only. -/
theorem typesAt_congr (h : s'.positionTypes = s.positionTypes) :
    (x : Selection) → s'.typesAt x = s.typesAt x
  | ⟨_, _, targetType, _, selections⟩ => by
      simp only [typesAt, typesBelow_congr h selections, h]

end

end Schema

namespace Visibilities

variable {s s' : Schema} {vs vs' root root' : Visibilities} {q : Query}

/-- What is added at a position is the same where the same is visible of its types. -/
theorem restrictFilter_congr (h : s'.positionTypes = s.positionTypes) {typeName : String}
    (hvs : ∀ t ∈ s.positionTypes typeName, vs'.find? t = vs.find? t) (existing : Option Filter) :
    vs'.restrictFilter s' typeName existing = vs.restrictFilter s typeName existing := by
  have hall : (s.positionTypes typeName).all vs'.allVisible =
      (s.positionTypes typeName).all vs.allVisible := by
    rw [Bool.eq_iff_iff, List.all_eq_true, List.all_eq_true]
    refine forall₂_congr fun t ht => ?_
    rw [allVisible, allVisible, hvs t ht]
  have hbranches : (s.positionTypes typeName).flatMap vs'.branch =
      (s.positionTypes typeName).flatMap vs.branch := by
    refine List.flatMap_congr fun t ht => ?_
    rw [branch, branch, hvs t ht]
  have hposition : vs'.positionFilter s' typeName = vs.positionFilter s typeName := by
    simp only [positionFilter, h, hall, hbranches]
    by_cases hown : s.positionTypes typeName = [typeName]
    · rw [if_pos hown, if_pos hown, hvs typeName (by simp [hown])]
    · rw [if_neg hown, if_neg hown]
  unfold restrictFilter
  rw [hposition]

mutual

/-- Selections are restricted in the same way by outcomes that agree on all types below.  This is
shown along the selections, together with the next statement for a single one. -/
theorem restrictAll_congr (h : s'.positionTypes = s.positionTypes) :
    (selections : List Selection) →
    (∀ t ∈ s.typesBelow selections, vs'.find? t = vs.find? t) →
    vs'.restrictAll s' selections = vs.restrictAll s selections
  | [], _ => by rw [restrictAll, restrictAll]
  | x :: xs, hvs => by
      rw [restrictAll, restrictAll,
        restrictOne_congr h x fun t ht => hvs t (by simp [Schema.typesBelow, ht]),
        restrictAll_congr h xs fun t ht => hvs t (by simp [Schema.typesBelow, ht])]

/-- One selection is restricted in the same way when the outcomes agree on the types that stand
there and below. -/
theorem restrictOne_congr (h : s'.positionTypes = s.positionTypes) : (x : Selection) →
    (∀ t ∈ s.typesAt x, vs'.find? t = vs.find? t) → vs'.restrictOne s' x = vs.restrictOne s x
  | ⟨name, label, targetType, filter, selections⟩, hvs => by
      simp only [restrictOne]
      rw [restrictAll_congr h selections fun t ht => hvs t (by simp [Schema.typesAt, ht])]
      cases targetType with
      | none => rfl
      | some target =>
          simp only
          rw [restrictFilter_congr h fun t ht => hvs t (by simp [Schema.typesAt, ht])]

end

/-- **A query is restricted by what is visible at its positions**, and by nothing else. -/
theorem restrict_congr (h : s'.positionTypes = s.positionTypes)
    (hroot : ∀ t ∈ s.positionTypes q.typeName, root'.find? t = root.find? t)
    (hvs : ∀ t ∈ s.typesBelow q.selections, vs'.find? t = vs.find? t) :
    vs'.restrict root' s' q = vs.restrict root s q := by
  unfold restrict
  rw [restrictFilter_congr h hroot, restrictAll_congr h q.selections hvs]

end Visibilities

end GraphWarden
