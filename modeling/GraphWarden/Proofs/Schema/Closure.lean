import Mathlib.Logic.Relation
import GraphWarden.Proofs.Schema.Peeling

/-!
# The closure of the hierarchy

A type implements what it lists, and what that implements: `SchemaDefinition.Implements` is
the transitive closure of listing, read off the definition and nothing else.

Peeling takes the types away in an order in which every type comes after all that it lists
(`Ordered`).  Along such an order one pass finds **everything that a type implements**
(`closed_closureAlong`), and no type implements itself (`Ordered.ne_of_implements`).

So an accepted hierarchy knows of each type what the definition says
(`mem_interfacesOf_iff`), however deep the interfaces are and on however many ways one of
them is reached.
-/

namespace GraphWarden

/-- A type of the definition lists an interface. -/
def SchemaDefinition.Lists (definition : SchemaDefinition) (typeName interface : String) : Prop :=
  ∃ d ∈ definition.types, d.name = typeName ∧ interface ∈ d.interfaces

/-- A type implements an interface, directly or through others. -/
def SchemaDefinition.Implements (definition : SchemaDefinition) : String → String → Prop :=
  Relation.TransGen definition.Lists

namespace Kinship

variable {kin : Kinship}

/-- A type implements an interface, directly or through others. -/
def Implements (kin : Kinship) : String → String → Prop :=
  Relation.TransGen fun t i => i ∈ kin.listed t

/-- What a type implements it lists, or one that it lists implements it. -/
theorem implements_iff {t i : String} :
    kin.Implements t i ↔ ∃ j ∈ kin.listed t, i = j ∨ kin.Implements j i := by
  unfold Implements
  rw [Relation.TransGen.head'_iff]
  refine exists_congr fun j => and_congr_right fun _ => ?_
  rw [Relation.reflTransGen_iff_eq_or_transGen]

/-- Only known types implement anything. -/
theorem mem_keys_of_implements {t i : String} (h : kin.Implements t i) : t ∈ kin.keys := by
  obtain ⟨j, hj, _⟩ := implements_iff.1 h
  cases hfind : kin.find? t with
  | none => simp [listed, hfind] at hj
  | some k => exact Keyed.mem_keys_iff.2 (by simp [hfind])

/-! ### The closure along an order -/

/-- **No type in an order implements itself**: all that it implements is done before. -/
theorem Ordered.ne_of_implements {order : List String} : ∀ {done : List String},
    kin.Ordered done order → (∀ t ∈ done, ∀ i, kin.Implements t i → i ∈ done ∧ i ≠ t) →
      ∀ t ∈ done ++ order, ∀ i, kin.Implements t i → i ≠ t := by
  induction order with
  | nil =>
      intro done _ hdone t ht i hi
      exact (hdone t (by simpa using ht) i hi).2
  | cons u order ih =>
      rintro done ⟨hnew, hlisted, horder⟩ hdone t ht
      have hu : ∀ i, kin.Implements u i → i ∈ done := by
        intro i hi
        obtain ⟨j, hj, rfl | hji⟩ := implements_iff.1 hi
        · exact hlisted i hj
        · exact (hdone j (hlisted j hj) i hji).1
      refine ih horder ?_ t (by simpa using ht)
      intro v hv i hi
      rcases List.mem_append.1 hv with hv | hv
      · obtain ⟨hi', hne⟩ := hdone v hv i hi
        exact ⟨List.mem_append_left _ hi', hne⟩
      · have hvu : v = u := by simpa using hv
        subst hvu
        refine ⟨List.mem_append_left _ (hu i hi), ?_⟩
        rintro rfl
        exact hnew (hu i hi)

/-- A closure is right for some types: it knows them and no others, and of each of them
everything that it implements, in rising order. -/
structure Closed (kin : Kinship) (done : List String) (closure : Keyed (List String)) : Prop where
  known : ∀ t implemented, closure.find? t = some implemented → t ∈ done
  right : ∀ t ∈ done, ∃ implemented, closure.find? t = some implemented ∧
    Names.Rising implemented ∧ ∀ i, i ∈ implemented ↔ kin.Implements t i

/-- One more type, whose interfaces are all done. -/
theorem Closed.put {done : List String} {closure : Keyed (List String)} {t : String}
    (h : kin.Closed done closure) (hlisted : ∀ i ∈ kin.listed t, i ∈ done) :
    kin.Closed (done ++ [t]) (closure.put t
      (Names.sorted ((kin.listed t).flatMap fun i => i :: (closure.find? i).getD []))) := by
  have hbelow : ∀ j ∈ kin.listed t, ∀ i, i ∈ j :: (closure.find? j).getD [] ↔
      i = j ∨ kin.Implements j i := by
    intro j hj i
    obtain ⟨implemented, hfind, _, hright⟩ := h.right j (hlisted j hj)
    rw [hfind, Option.getD_some, List.mem_cons, hright]
  constructor
  · intro u implemented hu
    rw [Keyed.find?_put] at hu
    split at hu
    · next htu => simp [htu]
    · exact List.mem_append_left _ (h.known u implemented hu)
  · intro u hu
    by_cases htu : t = u
    · subst htu
      refine ⟨_, by rw [Keyed.find?_put, if_pos rfl], Names.sorted_rising _, fun i => ?_⟩
      rw [Names.mem_sorted, List.mem_flatMap, implements_iff]
      exact exists_congr fun j => and_congr_right fun hj => hbelow j hj i
    · have hdone : u ∈ done := by
        rcases List.mem_append.1 hu with hu | hu
        · exact hu
        · exact absurd (by simpa using hu : u = t).symm htu
      obtain ⟨implemented, hfind, hrest⟩ := h.right u hdone
      exact ⟨implemented, by rw [Keyed.find?_put, if_neg htu, hfind], hrest⟩

/-- **Along an order** one pass finds everything that a type implements. -/
theorem closed_closureAlong {order : List String} (horder : kin.Ordered [] order) :
    kin.Closed order (kin.closureAlong order) := by
  have hpass : ∀ (order done : List String) (closure : Keyed (List String)),
      kin.Ordered done order → kin.Closed done closure → kin.Closed (done ++ order)
        (order.foldl (fun closure name => closure.put name (Names.sorted
          ((kin.listed name).flatMap fun i => i :: (closure.find? i).getD []))) closure) := by
    intro order
    induction order with
    | nil =>
        intro done closure _ hclosed
        simpa using hclosed
    | cons t order ih =>
        rintro done closure ⟨_, hlisted, horder⟩ hclosed
        have hnext := ih (done ++ [t]) _ horder (hclosed.put hlisted)
        simpa using hnext
  have hempty : kin.Closed [] Keyed.empty := ⟨by simp, by simp⟩
  exact hpass order [] Keyed.empty horder hempty

end Kinship

/-! ### Accepted hierarchies -/

namespace Hierarchy

variable {definition : SchemaDefinition} {h : Hierarchy}

/-- What was accepted was peeled all the way. -/
theorem order_of_ofDefinitions (hh : ofDefinitions definition.types = .ok h) :
    Kinship.ofDefinitions definition.types = .ok h.kinship ∧
      h.kinship.peeled.length = h.kinship.size ∧
      h.closure = h.kinship.closureAlong h.kinship.peeled := by
  unfold ofDefinitions at hh
  cases hkin : Kinship.ofDefinitions definition.types with
  | error problem => simp [hkin, bind, Except.bind] at hh
  | ok kin =>
      simp only [hkin, bind, Except.bind] at hh
      split at hh
      · simp at hh
      · split at hh
        · simp at hh
        · next hlength =>
            cases hh
            exact ⟨rfl, by simpa using hlength, rfl⟩

/-- What a type lists by kinship is what it lists by definition. -/
theorem listed_iff {kin : Kinship} (hkin : Kinship.ofDefinitions definition.types = .ok kin)
    {t i : String} : i ∈ kin.listed t ↔ definition.Lists t i := by
  obtain ⟨hdefined, hfound⟩ := Kinship.find?_of_ofDefinitions hkin
  unfold Kinship.listed SchemaDefinition.Lists
  constructor
  · intro hi
    cases hfind : kin.find? t with
    | none => simp [hfind] at hi
    | some k =>
        obtain ⟨d, hd, hname, rfl⟩ := hfound t k hfind
        exact ⟨d, hd, hname, by simpa [hfind] using hi⟩
  · rintro ⟨d, hd, rfl, hi⟩
    simpa [hdefined d hd] using hi

/-- Implementing is the same by kinship and by definition. -/
theorem implements_iff {kin : Kinship} (hkin : Kinship.ofDefinitions definition.types = .ok kin)
    {t i : String} : kin.Implements t i ↔ definition.Implements t i := by
  have hlists : (fun t i => i ∈ kin.listed t) = definition.Lists := by
    funext t i
    exact propext (listed_iff hkin)
  unfold Kinship.Implements SchemaDefinition.Implements
  rw [hlists]

/-- **An accepted hierarchy holds what each of its types implements**, in rising order. -/
theorem find?_closure_iff (hh : ofDefinitions definition.types = .ok h) {t : String}
    {implemented : List String} : h.closure.find? t = some implemented ↔
      t ∈ h.kinship.keys ∧ Names.Rising implemented ∧
        ∀ i, i ∈ implemented ↔ definition.Implements t i := by
  obtain ⟨hkin, hlength, hclosure⟩ := order_of_ofDefinitions hh
  have hclosed := Kinship.closed_closureAlong (Kinship.ordered_peeled h.kinship)
  rw [← hclosure] at hclosed
  have hright : ∀ t ∈ h.kinship.peeled, ∃ implemented, h.closure.find? t = some implemented ∧
      Names.Rising implemented ∧ ∀ i, i ∈ implemented ↔ definition.Implements t i := by
    intro t ht
    obtain ⟨implemented, hfind, hrising, hmem⟩ := hclosed.right t ht
    exact ⟨implemented, hfind, hrising, fun i => (hmem i).trans (implements_iff hkin)⟩
  constructor
  · intro hfind
    have ht := hclosed.known t implemented hfind
    obtain ⟨_, hfind', hrest⟩ := hright t ht
    rw [hfind] at hfind'
    cases hfind'
    exact ⟨(Kinship.mem_peeled_iff.1 ht).1, hrest⟩
  · rintro ⟨ht, hrising, hmem⟩
    obtain ⟨implemented', hfind, hrising', hmem'⟩ :=
      hright t (Kinship.length_peeled_iff.1 hlength t ht)
    rw [hfind, Names.rising_ext hrising hrising' fun i => (hmem i).trans (hmem' i).symm]

/-- **An accepted hierarchy knows everything that a type implements.** -/
theorem mem_interfacesOf_iff (hh : ofDefinitions definition.types = .ok h) {t i : String} :
    i ∈ h.interfacesOf t ↔ definition.Implements t i := by
  obtain ⟨hkin, hlength, hclosure⟩ := order_of_ofDefinitions hh
  unfold interfacesOf
  cases hfind : h.closure.find? t with
  | some implemented => exact ((find?_closure_iff hh).1 hfind).2.2 i
  | none =>
      have hunknown : t ∉ h.kinship.peeled := by
        intro ht
        have hclosed := Kinship.closed_closureAlong (Kinship.ordered_peeled h.kinship)
        obtain ⟨_, hfind', _⟩ := hclosed.right t ht
        rw [← hclosure, hfind] at hfind'
        simp at hfind'
      have hnone : ¬ definition.Implements t i := by
        intro himplements
        have ht := Kinship.mem_keys_of_implements ((implements_iff hkin).2 himplements)
        exact hunknown (Kinship.length_peeled_iff.1 hlength t ht)
      simp [hnone]

/-- In an accepted hierarchy no type implements itself. -/
theorem not_implements_self (hh : ofDefinitions definition.types = .ok h) (t : String) :
    ¬ definition.Implements t t := by
  obtain ⟨hkin, hlength, _⟩ := order_of_ofDefinitions hh
  intro hself
  rw [← implements_iff hkin] at hself
  have ht := Kinship.length_peeled_iff.1 hlength t (Kinship.mem_keys_of_implements hself)
  exact (Kinship.ordered_peeled h.kinship).ne_of_implements (by simp) t (by simpa using ht) t
    hself rfl

/-- A type and what it implements, each once. -/
theorem nodup_interfacesOf (hh : ofDefinitions definition.types = .ok h) (t : String) :
    (t :: h.interfacesOf t).Nodup := by
  refine List.nodup_cons.2 ⟨fun hself => ?_, ?_⟩
  · exact not_implements_self hh t ((mem_interfacesOf_iff hh).1 hself)
  · unfold interfacesOf
    cases hfind : h.closure.find? t with
    | none => simp
    | some implemented => exact Names.nodup_of_rising ((find?_closure_iff hh).1 hfind).2.1

end Hierarchy

/-! ### Accepted schemas -/

namespace Schema

variable {definition : SchemaDefinition} {catalog : Catalog} {s : Schema} {hier : Hierarchy}
  {own : Keyed (Slots Rule)}

/-- A schema that is put in force is the compiled one, but for its generation. -/
theorem compiledFrom_of_next (h : catalog.next definition = .ok s) :
    ∃ hier own, s.CompiledFrom definition.types hier own := by
  obtain ⟨compiled, hcompiled, rfl⟩ := exists_of_map_eq_ok h
  obtain ⟨hier, own, hfrom⟩ := compiledFrom_of_compile hcompiled
  exact ⟨hier, own, hfrom.hierarchy, hfrom.rules, hfrom.effective, hfrom.infos⟩

namespace CompiledFrom

/-- The hierarchy of a compiled schema has each type with the kind that was declared. -/
theorem kind?_of_mem (h : s.CompiledFrom definition.types hier own) {d : TypeDefinition}
    (hd : d ∈ definition.types) : hier.kind? d.name = some d.kind := by
  obtain ⟨hkin, _⟩ := parts_of_hierarchy h.hierarchy
  obtain ⟨hdefined, _⟩ := Kinship.find?_of_ofDefinitions hkin
  rw [Hierarchy.kind?, hdefined d hd]
  rfl

/-- A defined type is found, with its kind. -/
theorem find?_of_mem (h : s.CompiledFrom definition.types hier own) {d : TypeDefinition}
    (hd : d ∈ definition.types) : ∃ info, s.find? d.name = some info ∧ info.kind = d.kind :=
  h.exists_of_kind? (h.kind?_of_mem hd)

/-- A type of the schema comes from a definition of its kind, and has the interfaces that
the definition implements. -/
theorem info_of_find? (h : s.CompiledFrom definition.types hier own) {t : String} {info : TypeInfo}
    (ht : s.find? t = some info) :
    (∃ d ∈ definition.types, d.name = t ∧ d.kind = info.kind) ∧
      ∀ i, i ∈ info.interfaces ↔ definition.Implements t i := by
  obtain ⟨d, hd, rfl, rfl, _⟩ := h.of_find? ht
  exact ⟨⟨d, hd, rfl, rfl⟩, fun i => Hierarchy.mem_interfacesOf_iff h.hierarchy⟩

/-- **An interface knows the object types that implement it**, directly or through
others. -/
theorem mem_implementers_iff_implements (h : s.CompiledFrom definition.types hier own)
    {d : TypeDefinition} (hd : d ∈ definition.types) (hkind : d.kind = .interface) {t : String} :
    t ∈ s.implementers d.name ↔
      (∃ o ∈ definition.types, o.name = t ∧ o.kind = .object) ∧ definition.Implements t d.name := by
  obtain ⟨info, hinfo, hinterface⟩ := h.find?_of_mem hd
  rw [implementers, hinfo, Option.map_some, Option.getD_some,
    h.mem_implementers_iff hinfo (hinterface.trans hkind)]
  constructor
  · rintro ⟨below, hbelow, hobject, himplements⟩
    obtain ⟨⟨o, ho, hname, hk⟩, hinterfaces⟩ := h.info_of_find? hbelow
    exact ⟨⟨o, ho, hname, hk.trans hobject⟩, (hinterfaces _).1 himplements⟩
  · rintro ⟨⟨o, ho, rfl, hobject⟩, himplements⟩
    obtain ⟨below, hbelow, hk⟩ := h.find?_of_mem ho
    exact ⟨below, hbelow, hk.trans hobject, ((h.info_of_find? hbelow).2 _).2 himplements⟩

end CompiledFrom

end Schema

end GraphWarden
