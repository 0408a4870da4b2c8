import GraphWarden.Proofs.Schema.Acyclic

/-!
# The order of declarations

The types of a definition may be declared in any order, and a type may list its interfaces in
any order and as often as it likes: `SchemaDefinition.Rearranged` relates two definitions that
differ in nothing else.

**They compile to the same schema, or neither is accepted** (`compile_rearranged`).  Peeling
may go other ways for the two, and one of them may be told of another problem; but whether a
hierarchy is accepted is a matter of which names are listed (`exists_hierarchy_iff`), and what
is made of it, from the closure to the effective rules, is looked up by name
(`Hierarchy.Agrees`).
-/

namespace GraphWarden

/-- A list without repeated keys and one with the same entries make the same map. -/
theorem Keyed.ofList_congr {α : Type} {xs ys : Entries α} (hx : (xs.map Prod.fst).Nodup)
    (hy : (ys.map Prod.fst).Nodup) (h : ∀ e, e ∈ xs ↔ e ∈ ys) : ofList xs = ofList ys := by
  refine ext_find? fun key => Option.ext fun value => ?_
  rw [find?_ofList_eq_some_iff hx, find?_ofList_eq_some_iff hy, h]

/-! ### Rearranged definitions -/

/-- A type that lists its interfaces in another way, and is the same otherwise. -/
structure TypeDefinition.Relisted (d d' : TypeDefinition) : Prop where
  name : d'.name = d.name
  kind : d'.kind = d.kind
  members : d'.members = d.members
  rules : d'.rules = d.rules
  mem_iff : ∀ i, i ∈ d'.interfaces ↔ i ∈ d.interfaces

/-- Listing names again is symmetric: it is about which names are listed. -/
theorem TypeDefinition.Relisted.symm {d d' : TypeDefinition} (h : d.Relisted d') :
    d'.Relisted d :=
  ⟨h.name.symm, h.kind.symm, h.members.symm, h.rules.symm, fun i => (h.mem_iff i).symm⟩

namespace SchemaDefinition

variable {definition definition' : SchemaDefinition}

/-- The same types in another order, which may list their interfaces in other ways. -/
structure Rearranged (definition definition' : SchemaDefinition) : Prop where
  types : ∃ types, definition.types.Perm types ∧
    List.Forall₂ TypeDefinition.Relisted types definition'.types
  descriptor : definition'.descriptor = definition.descriptor

/-- Each type of either definition stands in the other as well, which has as many. -/
structure Alike (definition definition' : SchemaDefinition) : Prop where
  names : (definition.types.map TypeDefinition.name).Perm
    (definition'.types.map TypeDefinition.name)
  forth : ∀ d ∈ definition.types, ∃ d' ∈ definition'.types, d.Relisted d'
  back : ∀ d' ∈ definition'.types, ∃ d ∈ definition.types, d.Relisted d'
  descriptor : definition'.descriptor = definition.descriptor

/-- Being alike is symmetric, too. -/
theorem Alike.symm (h : definition.Alike definition') : definition'.Alike definition where
  names := h.names.symm
  forth d' hd' := by
    obtain ⟨d, hd, hrelisted⟩ := h.back d' hd'
    exact ⟨d, hd, hrelisted.symm⟩
  back d hd := by
    obtain ⟨d', hd', hrelisted⟩ := h.forth d hd
    exact ⟨d', hd', hrelisted.symm⟩
  descriptor := h.descriptor.symm

/-- A rearranged definition is alike: the same types are declared, each with the same names listed.
-/
theorem Rearranged.alike (h : definition.Rearranged definition') :
    definition.Alike definition' := by
  obtain ⟨types, hperm, hrelisted⟩ := h.types
  have hnames : definition'.types.map TypeDefinition.name = types.map TypeDefinition.name :=
    map_eq_of_forall₂ hrelisted fun _ _ hd => hd.name
  obtain ⟨hforth, hback⟩ := partners_of_forall₂ hrelisted
  refine ⟨hnames ▸ hperm.map TypeDefinition.name, fun d hd => ?_, fun d' hd' => ?_, h.descriptor⟩
  · exact hforth d (hperm.mem_iff.1 hd)
  · obtain ⟨d, hd, hdd'⟩ := hback d' hd'
    exact ⟨d, hperm.mem_iff.2 hd, hdd'⟩

/-! What a definition says about its hierarchy the other one says too. -/

/-- In alike definitions a type lists the same names. -/
theorem Alike.lists_iff (h : definition.Alike definition') {t i : String} :
    definition'.Lists t i ↔ definition.Lists t i := by
  constructor
  · rintro ⟨d', hd', rfl, hi⟩
    obtain ⟨d, hd, hrelisted⟩ := h.back d' hd'
    exact ⟨d, hd, hrelisted.name.symm, (hrelisted.mem_iff i).1 hi⟩
  · rintro ⟨d, hd, rfl, hi⟩
    obtain ⟨d', hd', hrelisted⟩ := h.forth d hd
    exact ⟨d', hd', hrelisted.name, (hrelisted.mem_iff i).2 hi⟩

/-- It implements the same interfaces, over any number of steps. -/
theorem Alike.implements_iff (h : definition.Alike definition') {t i : String} :
    definition'.Implements t i ↔ definition.Implements t i := by
  have hlists : definition'.Lists = definition.Lists := by
    funext t i
    exact propext h.lists_iff
  unfold Implements
  rw [hlists]

/-- The same types are there, and each of the same kind. -/
theorem Alike.has_iff (h : definition.Alike definition') {name : String} {kind : TypeKind} :
    definition'.Has name kind ↔ definition.Has name kind := by
  constructor
  · rintro ⟨d', hd', rfl, rfl⟩
    obtain ⟨d, hd, hrelisted⟩ := h.back d' hd'
    exact ⟨d, hd, hrelisted.name.symm, hrelisted.kind.symm⟩
  · rintro ⟨d, hd, rfl, rfl⟩
    obtain ⟨d', hd', hrelisted⟩ := h.forth d hd
    exact ⟨d', hd', hrelisted.name, hrelisted.kind⟩

/-- What makes a hierarchy acceptable is said in these terms, so it holds of both definitions. -/
theorem Alike.hierarchical (h : definition.Alike definition') (hd : definition.Hierarchical) :
    definition'.Hierarchical where
  once := h.names.nodup_iff.1 hd.once
  interfaces t i hlists := h.has_iff.2 (hd.interfaces t i (h.lists_iff.1 hlists))
  acyclic t hself := hd.acyclic t (h.implements_iff.1 hself)

end SchemaDefinition

/-! ### Hierarchies that agree -/

/-- Hierarchies that know the same types of the same kinds, and the same above each. -/
structure Hierarchy.Agrees (h h' : Hierarchy) : Prop where
  closure : h'.closure = h.closure
  kind? : h'.kind? = h.kind?

/-- **Rearranged types make a hierarchy that agrees.** -/
theorem SchemaDefinition.Alike.exists_hierarchy {definition definition' : SchemaDefinition}
    {h : Hierarchy} (halike : definition.Alike definition')
    (hh : Hierarchy.ofDefinitions definition.types = .ok h) :
    ∃ h', Hierarchy.ofDefinitions definition'.types = .ok h' ∧ h.Agrees h' := by
  obtain ⟨h', hh'⟩ := Hierarchy.exists_hierarchy_iff.2
    (halike.hierarchical (Hierarchy.exists_hierarchy_iff.1 ⟨h, hh⟩))
  have hkin := (Hierarchy.order_of_ofDefinitions hh).1
  have hkin' := (Hierarchy.order_of_ofDefinitions hh').1
  refine ⟨h', hh', ?_, ?_⟩
  · refine Keyed.ext_find? fun t => Option.ext fun implemented => ?_
    have hkeys : t ∈ h'.kinship.keys ↔ t ∈ h.kinship.keys := by
      have hnames := halike.names.mem_iff (a := t)
      rw [List.mem_map, List.mem_map] at hnames
      rw [Kinship.mem_keys_iff hkin, Kinship.mem_keys_iff hkin', hnames]
    rw [Hierarchy.find?_closure_iff hh, Hierarchy.find?_closure_iff hh', hkeys]
    simp only [halike.implements_iff]
  · funext t
    refine Option.ext fun kind => ?_
    unfold Hierarchy.kind?
    rw [Hierarchy.kind_iff hkin, Hierarchy.kind_iff hkin', halike.has_iff]

namespace Schema

section Agreeing

variable {h h' : Hierarchy} {d d' : TypeDefinition}

/-- Hierarchies that agree have the same interfaces for every type. -/
theorem interfacesOf_agrees (hagrees : h.Agrees h') : h'.interfacesOf = h.interfacesOf := by
  funext t
  rw [Hierarchy.interfacesOf, Hierarchy.interfacesOf, hagrees.closure]

/-- A declared rule is compiled in the same way over both. -/
theorem compileRule_agrees (hagrees : h.Agrees h') : compileRule h' = compileRule h := by
  have hroot : rootProblem? h' = rootProblem? h := by
    funext typeName place root
    rw [rootProblem?, rootProblem?, hagrees.kind?, interfacesOf_agrees hagrees]
  funext typeName op declaration
  unfold compileRule
  rw [hroot]

/-- The rules that one type declares compile alike over hierarchies that agree. -/
theorem ownRules_agrees (hagrees : h.Agrees h') (hd : d.Relisted d') :
    ownRules h' d' = ownRules h d := by
  unfold ownRules
  rw [hd.rules, hd.name, compileRule_agrees hagrees]

/-- A union is refused for the same reason over both. -/
theorem unionProblem?_agrees (hagrees : h.Agrees h') (hd : d.Relisted d') :
    unionProblem? h' d' = unionProblem? h d := by
  unfold unionProblem?
  rw [hd.rules, hd.name, hd.members, hagrees.kind?]

/-- What a schema knows of a type is the same. -/
theorem typeInfo_agrees (hagrees : h.Agrees h') (hd : d.Relisted d') :
    typeInfo h' d' = typeInfo h d := by
  have himplementers : h'.implementersOf = h.implementersOf := by
    funext interface
    rw [Hierarchy.implementersOf, Hierarchy.implementersOf, hagrees.closure, hagrees.kind?]
  unfold typeInfo
  rw [hd.name, hd.kind, hd.members, interfacesOf_agrees hagrees, himplementers]

/-- Effective rules are put together from what stands above a type, which is the same too. -/
theorem effectiveRules_agrees (hagrees : h.Agrees h') (own : Keyed (Slots Rule)) :
    effectiveRules own h' = effectiveRules own h := by
  funext typeName
  unfold effectiveRules declaredRules
  rw [interfacesOf_agrees hagrees]

end Agreeing

/-! ### Rules of their own -/

section Own

variable {h : Hierarchy} {types : List TypeDefinition} {own : Keyed (Slots Rule)}

/-- What a type declares is right: a union has object types as members and no rules, and the
rules of any other type compile. -/
def DeclaredRight (h : Hierarchy) (d : TypeDefinition) : Prop :=
  if d.kind = .union then unionProblem? h d = none else ∃ rules, ownRules h d = .ok rules

/-- What a type declares is right exactly when its rules can be added to others. -/
theorem exists_ownRulesStep_iff {d : TypeDefinition} :
    (∃ own', ownRulesStep h own d = .ok own') ↔ DeclaredRight h d := by
  unfold DeclaredRight
  by_cases hunion : d.kind = .union
  · simp [ownRulesStep_of_union hunion, hunion]
  · simp only [ownRulesStep_of_type hunion, if_neg hunion]
    constructor
    · rintro ⟨_, rules, hrules, _⟩
      exact ⟨rules, hrules⟩
    · rintro ⟨rules, hrules⟩
      exact ⟨_, rules, hrules, rfl⟩

/-- The rules of all types compile exactly when what each type declares is right, whatever the
order. -/
theorem exists_allOwnRules_iff :
    (∃ own, allOwnRules h types = .ok own) ↔ ∀ d ∈ types, DeclaredRight h d := by
  rw [allOwnRules_eq]
  constructor
  · rintro ⟨own, hown⟩ d hd
    obtain ⟨before, after, hstep⟩ := exists_of_foldlM hown d hd
    exact exists_ownRulesStep_iff.1 ⟨after, hstep⟩
  · generalize Keyed.empty = start
    induction types generalizing start with
    | nil =>
        intro _
        exact ⟨start, rfl⟩
    | cons d types ih =>
        intro hright
        obtain ⟨middle, hstep⟩ : ∃ middle, ownRulesStep h start d = .ok middle :=
          exists_ownRulesStep_iff.2 (hright d List.mem_cons_self)
        obtain ⟨own, hown⟩ := ih middle fun e he => hright e (List.mem_cons_of_mem _ he)
        exact ⟨own, by rw [List.foldlM_cons, hstep]; exact hown⟩

/-- Under a name stand the rules of the type that has it, when it is no union. -/
theorem find?_allOwnRules_iff (hown : allOwnRules h types = .ok own)
    (hnodup : (types.map TypeDefinition.name).Nodup) {name : String} {rules : Slots Rule} :
    own.find? name = some rules ↔
      ∃ d ∈ types, d.name = name ∧ d.kind ≠ .union ∧ ownRules h d = .ok rules := by
  constructor
  · rw [allOwnRules_eq] at hown
    revert name rules
    refine foldlM_keeps (P := fun own : Keyed (Slots Rule) => ∀ {name rules},
      own.find? name = some rules →
        ∃ d ∈ types, d.name = name ∧ d.kind ≠ .union ∧ ownRules h d = .ok rules)
      (fun d hd own own' hkept hstep => ?_) (by simp) hown
    intro name rules hfind
    by_cases hunion : d.kind = .union
    · rw [((ownRulesStep_of_union hunion).1 hstep).2] at hfind
      exact hkept hfind
    · obtain ⟨added, hadded, rfl⟩ := (ownRulesStep_of_type hunion).1 hstep
      rw [Keyed.find?_put] at hfind
      split at hfind
      · next hname =>
          cases hfind
          exact ⟨d, hd, hname, hunion, hadded⟩
      · exact hkept hfind
  · rintro ⟨d, hd, rfl, hunion, hrules⟩
    obtain ⟨rules', hrules', hfind⟩ := find?_of_allOwnRules hown hnodup hd hunion
    rw [hrules] at hrules'
    rw [hfind, Except.ok.inj hrules']

end Own

/-! ### Compiled schemas -/

variable {definition definition' : SchemaDefinition} {s : Schema} {h h' : Hierarchy}
  {own : Keyed (Slots Rule)}

/-- A schema is compiled from its definition, and counts no activation yet. -/
theorem compile_eq_ok_iff : compile definition = .ok s ↔ ∃ h own,
    s.CompiledFrom definition.types h own ∧ s.descriptor = definition.descriptor ∧
      s.generation = 0 := by
  unfold compile
  constructor
  · intro hs
    cases hh : Hierarchy.ofDefinitions definition.types with
    | error problem => simp [hh, bind, Except.bind] at hs
    | ok h =>
        cases hown : allOwnRules h definition.types with
        | error problem => simp [hh, hown, bind, Except.bind] at hs
        | ok own =>
            simp only [hh, hown, bind, Except.bind, Except.ok.injEq] at hs
            subst hs
            exact ⟨h, own, ⟨hh, hown, rfl, rfl⟩, rfl, rfl⟩
  · rintro ⟨h, own, hfrom, hdescriptor, hgeneration⟩
    simp only [hfrom.hierarchy, hfrom.rules, bind, Except.bind, ← hfrom.infos, ← hfrom.effective,
      ← hdescriptor, ← hgeneration]

/-- Rearranged types have the same rules of their own.  Each type is declared right over both
hierarchies, so there is a map of rules for the rearranged types too, and it answers every look-up
alike. -/
theorem allOwnRules_of_alike (halike : definition.Alike definition') (hagrees : h.Agrees h')
    (hnodup : (definition.types.map TypeDefinition.name).Nodup)
    (hown : allOwnRules h definition.types = .ok own) :
    allOwnRules h' definition'.types = .ok own := by
  have hright : ∀ d' ∈ definition'.types, DeclaredRight h' d' := by
    intro d' hd'
    obtain ⟨d, hd, hrelisted⟩ := halike.back d' hd'
    have hdeclared := exists_allOwnRules_iff.1 ⟨own, hown⟩ d hd
    unfold DeclaredRight at hdeclared ⊢
    rw [hrelisted.kind, unionProblem?_agrees hagrees hrelisted, ownRules_agrees hagrees hrelisted]
    exact hdeclared
  obtain ⟨own', hown'⟩ := exists_allOwnRules_iff.2 hright
  have hnodup' := halike.names.nodup_iff.1 hnodup
  have hsame : own' = own := by
    refine Keyed.ext_find? fun name => Option.ext fun rules => ?_
    rw [find?_allOwnRules_iff hown hnodup, find?_allOwnRules_iff hown' hnodup']
    constructor
    · rintro ⟨d', hd', rfl, hunion, hrules⟩
      obtain ⟨d, hd, hrelisted⟩ := halike.back d' hd'
      rw [hrelisted.kind] at hunion
      rw [ownRules_agrees hagrees hrelisted] at hrules
      exact ⟨d, hd, hrelisted.name.symm, hunion, hrules⟩
    · rintro ⟨d, hd, rfl, hunion, hrules⟩
      obtain ⟨d', hd', hrelisted⟩ := halike.forth d hd
      rw [← hrelisted.kind] at hunion
      rw [← ownRules_agrees hagrees hrelisted] at hrules
      exact ⟨d', hd', hrelisted.name, hunion, hrules⟩
  rw [hown', hsame]

/-- A map over the types is the same for rearranged types, when its entries are. -/
theorem ofList_types_congr {α : Type} {f f' : TypeDefinition → α} (keep : TypeKind → Bool)
    (halike : definition.Alike definition')
    (hnodup : (definition.types.map TypeDefinition.name).Nodup)
    (hf : ∀ d d', d.Relisted d' → f' d' = f d) :
    Keyed.ofList ((definition'.types.filter fun d => keep d.kind).map fun d => (d.name, f' d)) =
      Keyed.ofList ((definition.types.filter fun d => keep d.kind).map fun d => (d.name, f d)) := by
  have hdistinct : ∀ {types : List TypeDefinition} (g : TypeDefinition → α),
      (types.map TypeDefinition.name).Nodup →
        (((types.filter fun d => keep d.kind).map fun d => (d.name, g d)).map Prod.fst).Nodup := by
    intro types g hnodup
    rw [List.map_map]
    exact hnodup.sublist (List.filter_sublist.map TypeDefinition.name)
  refine Keyed.ofList_congr (hdistinct f' (halike.names.nodup_iff.1 hnodup)) (hdistinct f hnodup)
    fun e => ?_
  simp only [List.mem_map, List.mem_filter]
  constructor
  · rintro ⟨d', ⟨hd', hkeep⟩, rfl⟩
    obtain ⟨d, hd, hrelisted⟩ := halike.back d' hd'
    rw [hrelisted.kind] at hkeep
    exact ⟨d, ⟨hd, hkeep⟩, by rw [hrelisted.name, hf d d' hrelisted]⟩
  · rintro ⟨d, ⟨hd, hkeep⟩, rfl⟩
    obtain ⟨d', hd', hrelisted⟩ := halike.forth d hd
    rw [← hrelisted.kind] at hkeep
    exact ⟨d', ⟨hd', hkeep⟩, by rw [hrelisted.name, hf d d' hrelisted]⟩

/-- What one of two definitions with the same types compiles to the other does too. -/
theorem compile_of_alike (halike : definition.Alike definition') (hs : compile definition = .ok s) :
    compile definition' = .ok s := by
  obtain ⟨h, own, hfrom, hdescriptor, hgeneration⟩ := compile_eq_ok_iff.1 hs
  obtain ⟨h', hh', hagrees⟩ := halike.exists_hierarchy hfrom.hierarchy
  have hnodup := (Hierarchy.hierarchical_of_ofDefinitions hfrom.hierarchy).once
  refine compile_eq_ok_iff.2 ⟨h', own, ⟨hh', ?_, ?_, ?_⟩, ?_, hgeneration⟩
  · exact allOwnRules_of_alike halike hagrees hnodup hfrom.rules
  · rw [hfrom.effective]
    exact (ofList_types_congr (fun kind => kind ≠ .union) halike hnodup
      fun d d' hd => by rw [effectiveRules_agrees hagrees, hd.name]).symm
  · have hinfos := ofList_types_congr (fun _ => true) halike hnodup
      fun d d' hd => typeInfo_agrees hagrees hd
    rw [hfrom.infos]
    simpa using hinfos.symm
  · rw [hdescriptor, halike.descriptor]

/-- **The order of declarations does not matter.**  Definitions that differ only in the order
of their types, and in the order and repetition of the names that a type lists, are accepted
both or neither, and make the same schema. -/
theorem compile_rearranged (h : definition.Rearranged definition') (s : Schema) :
    compile definition = .ok s ↔ compile definition' = .ok s :=
  ⟨compile_of_alike h.alike, compile_of_alike h.alike.symm⟩

/-- The drafts again, last type first, and a draft names the item twice. -/
def draftsBackwards : SchemaDefinition where
  types := [
    TypeDefinition.withRule
      { name := "Draft", kind := .object, interfaces := ["Item", "Record", "Item"] } .delete
      (.rule "\x7b queryDraft \x7b owner \x7d \x7d"),
    { name := "Record", kind := .interface, interfaces := ["Entry", "Entry"] },
    TypeDefinition.withRule { name := "Item", kind := .interface, interfaces := ["Entry"] } .delete
      (.rule "\x7b queryItem \x7b archived \x7d \x7d"),
    TypeDefinition.withRule { name := "Entry", kind := .interface } .delete
      (.rule "\x7b $ROLE: \x7b eq: \"ADMIN\" \x7d \x7d")]

/-- The drafts make one schema, whichever way round they are declared. -/
theorem drafts_rearranged :
    drafts.Rearranged draftsBackwards ∧
      ∃ s, compile drafts = .ok s ∧ compile draftsBackwards = .ok s := by
  have hrearranged : drafts.Rearranged draftsBackwards := by
    have hdraft : ∀ i, i ∈ ["Item", "Record", "Item"] ↔ i ∈ ["Record", "Item"] := by
      intro i
      simp only [List.mem_cons, List.not_mem_nil, or_false]
      tauto
    have hrecord : ∀ i, i ∈ ["Entry", "Entry"] ↔ i ∈ ["Entry"] := by simp
    refine ⟨⟨drafts.types.reverse, (List.reverse_perm _).symm, ?_⟩, rfl⟩
    exact .cons ⟨rfl, rfl, rfl, rfl, hdraft⟩ (.cons ⟨rfl, rfl, rfl, rfl, hrecord⟩
      (.cons ⟨rfl, rfl, rfl, rfl, fun _ => Iff.rfl⟩
        (.cons ⟨rfl, rfl, rfl, rfl, fun _ => Iff.rfl⟩ .nil)))
  have haccepted : (compile drafts).toOption.isSome = true := by decide +kernel
  obtain ⟨s, hs⟩ := Option.isSome_iff_exists.1 haccepted
  rw [toOption_eq_some_iff] at hs
  exact ⟨hrearranged, s, hs, (compile_rearranged hrearranged s).1 hs⟩

end Schema

end GraphWarden
