import Mathlib.Data.Fintype.EquivFin
import GraphWarden.Proofs.Schema.Effective

/-!
# Which hierarchies are accepted

`SchemaDefinition.Hierarchical` says what a list of types has to be for a hierarchy: the names
are distinct, what a type lists are interfaces, and nothing implements itself.  It speaks of
the definition alone, and of each list of names only which names stand in it.

**Exactly these are accepted** (`exists_hierarchy_iff`): the pass over the names fails only on
a name that comes twice, the search for a wrong name finds one whenever there is one, and
peeling does not get stuck where nothing implements itself (`mem_peeled_of_acyclic`), since
implementing is then well-founded on the finitely many types.
-/

namespace GraphWarden

namespace SchemaDefinition

/-- A definition has a type of a name and kind. -/
def Has (definition : SchemaDefinition) (name : String) (kind : TypeKind) : Prop :=
  ∃ d ∈ definition.types, d.name = name ∧ d.kind = kind

/-- What the types of a definition have to be for a hierarchy. -/
structure Hierarchical (definition : SchemaDefinition) : Prop where
  once : (definition.types.map TypeDefinition.name).Nodup
  interfaces : ∀ t i, definition.Lists t i → definition.Has i .interface
  acyclic : ∀ t, ¬ definition.Implements t t

end SchemaDefinition

namespace Kinship

variable {kin : Kinship} {types : List TypeDefinition}

/-- The known names are those of the definitions. -/
theorem mem_keys_iff (hkin : ofDefinitions types = .ok kin) {t : String} :
    t ∈ kin.keys ↔ ∃ d ∈ types, d.name = t := by
  obtain ⟨hdefined, hfound⟩ := find?_of_ofDefinitions hkin
  rw [Keyed.mem_keys_iff, Option.isSome_iff_exists]
  constructor
  · rintro ⟨k, hk⟩
    obtain ⟨d, hd, hname, _⟩ := hfound t k hk
    exact ⟨d, hd, hname⟩
  · rintro ⟨d, hd, rfl⟩
    exact ⟨_, hdefined d hd⟩

/-- Nothing is wrong with the names exactly when all that is listed are interfaces. -/
theorem problem?_eq_none_iff :
    kin.problem? = none ↔ ∀ t, ∀ i ∈ kin.listed t, kin.NamesInterface i := by
  constructor
  · intro hnone t i hi
    cases hfind : kin.find? t with
    | none => simp [listed, hfind] at hi
    | some k => exact namesInterface_of_problem? hnone hfind i (by simpa [listed, hfind] using hi)
  · intro hlisted
    refine List.findSome?_eq_none_iff.2 fun e he => List.findSome?_eq_none_iff.2 fun i hi => ?_
    have hfind := Keyed.find?_eq_some_iff.2 he
    have hinterface : kin.NamesInterface i := hlisted e.1 i (by simpa [listed, hfind] using hi)
    obtain ⟨k, hk, hkind⟩ := Option.map_eq_some_iff.1 hinterface
    simp [interfaceProblem?, hk, hkind]

/-- **Where nothing implements itself peeling takes every type away.** -/
theorem mem_peeled_of_acyclic (hknown : ∀ t, ∀ i ∈ kin.listed t, i ∈ kin.keys)
    (hacyclic : ∀ t, ¬ kin.Implements t t) : ∀ t ∈ kin.keys, t ∈ kin.peeled := by
  let below : { t // t ∈ kin.keys } → { t // t ∈ kin.keys } → Prop :=
    fun i t => kin.Implements t.1 i.1
  have htrans : IsTrans _ below := ⟨fun _ _ _ hij hjk => Relation.TransGen.trans hjk hij⟩
  have hirrefl : Std.Irrefl below := ⟨fun t => hacyclic t.1⟩
  have hwf : WellFounded below := Finite.wellFounded_of_trans_of_irrefl below
  intro t ht
  induction h : (⟨t, ht⟩ : { t // t ∈ kin.keys }) using hwf.induction generalizing t with
  | _ node ih =>
      subst h
      refine mem_peeled_iff.2 ⟨ht, fun i hi => ?_⟩
      exact ih ⟨i, hknown t i hi⟩ (Relation.TransGen.single hi) i (hknown t i hi) rfl

end Kinship

namespace Hierarchy

variable {definition : SchemaDefinition} {h : Hierarchy}

/-- The names have the kinds that their definitions give them. -/
theorem kind_iff {kin : Kinship} (hkin : Kinship.ofDefinitions definition.types = .ok kin)
    {t : String} {kind : TypeKind} :
    (kin.find? t).map Kin.kind = some kind ↔ definition.Has t kind := by
  obtain ⟨hdefined, hfound⟩ := Kinship.find?_of_ofDefinitions hkin
  unfold SchemaDefinition.Has
  rw [Option.map_eq_some_iff]
  constructor
  · rintro ⟨k, hk, hkind⟩
    obtain ⟨d, hd, hname, rfl⟩ := hfound t k hk
    exact ⟨d, hd, hname, hkind⟩
  · rintro ⟨d, hd, rfl, hkind⟩
    exact ⟨_, hdefined d hd, hkind⟩

/-- What is accepted is a hierarchy. -/
theorem hierarchical_of_ofDefinitions (hh : ofDefinitions definition.types = .ok h) :
    definition.Hierarchical := by
  obtain ⟨hkin, hproblem, _⟩ := Schema.parts_of_hierarchy hh
  refine ⟨Kinship.names_nodup hkin, fun t i hlists => ?_, not_implements_self hh⟩
  have hlisted := (listed_iff hkin).2 hlists
  exact (kind_iff hkin).1 (Kinship.problem?_eq_none_iff.1 hproblem t i hlisted)

/-- What is a hierarchy is accepted. -/
theorem exists_of_hierarchical (hd : definition.Hierarchical) :
    ∃ h, ofDefinitions definition.types = .ok h := by
  obtain ⟨kin, hkin⟩ := Kinship.exists_ofDefinitions_iff.2 hd.once
  have hlisted : ∀ t, ∀ i ∈ kin.listed t, kin.NamesInterface i := by
    intro t i hi
    exact (kind_iff hkin).2 (hd.interfaces t i ((listed_iff hkin).1 hi))
  have hproblem : kin.problem? = none := Kinship.problem?_eq_none_iff.2 hlisted
  have hknown : ∀ t, ∀ i ∈ kin.listed t, i ∈ kin.keys := by
    intro t i hi
    obtain ⟨k, hk, _⟩ := Option.map_eq_some_iff.1 (hlisted t i hi)
    exact Keyed.mem_keys_iff.2 (by simp [hk])
  have hacyclic : ∀ t, ¬ kin.Implements t t := by
    intro t hself
    exact hd.acyclic t ((implements_iff hkin).1 hself)
  have hlength : kin.peeled.length = kin.size :=
    Kinship.length_peeled_iff.2 (Kinship.mem_peeled_of_acyclic hknown hacyclic)
  refine ⟨⟨kin, kin.closureAlong kin.peeled⟩, ?_⟩
  simp [ofDefinitions, hkin, hproblem, hlength, bind, Except.bind]

/-- **Exactly the hierarchies are accepted.** -/
theorem exists_hierarchy_iff :
    (∃ h, ofDefinitions definition.types = .ok h) ↔ definition.Hierarchical :=
  ⟨fun ⟨_, hh⟩ => hierarchical_of_ofDefinitions hh, exists_of_hierarchical⟩

end Hierarchy

end GraphWarden
