import GraphWarden.Proofs.Rule.Parts
import GraphWarden.Schema.Catalog

/-!
# Accepted schemas

A schema that was accepted hangs together.  What a type implements are interfaces
(`interfaces_known`), an interface knows the object types that implement it
(`mem_implementers_iff`), the members of a union are object types (`members_known`), and
every negation in a rule has something to negate (`rules_negate`), so that on a store that
evaluates negated filters a rule always leaves something definite visible.

These are the facts of `Schema.Sound`; `Accepted.sound` is the theorem of this file.  They
come from the invariants of the three passes of compilation: over the names, over the
closure of the interfaces, and over the declared rules.
-/

namespace GraphWarden

/-! ### Passes that may fail, and maps of lists -/

/-- A pass that succeeds succeeds at its first step, and goes on from there. -/
theorem foldlM_cons_eq_ok_iff {ε α β : Type} {step : β → α → Except ε β} {x : α} {xs : List α}
    {start stop : β} : (x :: xs).foldlM step start = .ok stop ↔
      ∃ middle, step start x = .ok middle ∧ xs.foldlM step middle = .ok stop := by
  rw [List.foldlM_cons]
  cases step start x with
  | error problem => simp [bind, Except.bind]
  | ok middle => simp [bind, Except.bind]

/-- What holds at the start of a pass and is kept by each of its steps holds at its end.  Each step
may count on the element it is for. -/
theorem foldlM_keeps {ε α β : Type} {step : β → α → Except ε β} {P : β → Prop} :
    ∀ {xs : List α} {start stop : β}, (∀ x ∈ xs, ∀ b b', P b → step b x = .ok b' → P b') →
      P start → xs.foldlM step start = .ok stop → P stop := by
  intro xs
  induction xs with
  | nil =>
      intro start stop _ hstart h
      cases h
      exact hstart
  | cons x xs ih =>
      intro start stop hstep hstart h
      obtain ⟨middle, hx, hrest⟩ := foldlM_cons_eq_ok_iff.1 h
      exact ih (fun y hy => hstep y (List.mem_cons_of_mem _ hy))
        (hstep x List.mem_cons_self _ _ hstart hx) hrest

/-- A pass that succeeds succeeds at each step. -/
theorem exists_of_foldlM {ε α β : Type} {step : β → α → Except ε β} :
    ∀ {xs : List α} {start stop : β}, xs.foldlM step start = .ok stop →
      ∀ x ∈ xs, ∃ b b', step b x = .ok b' := by
  intro xs
  induction xs with
  | nil => simp
  | cons y xs ih =>
      intro start stop h x hx
      obtain ⟨middle, hy, hrest⟩ := foldlM_cons_eq_ok_iff.1 h
      rcases List.mem_cons.1 hx with rfl | hx
      · exact ⟨start, middle, hy⟩
      · exact ih hrest x hx

namespace Keyed

variable {α : Type}

/-- What the map of a list holds stands in the list. -/
theorem mem_of_find?_ofList {pairs : Entries α} {key : String} {value : α}
    (h : (ofList pairs).find? key = some value) : (key, value) ∈ pairs := by
  have hlast : Entries.find? key pairs.reverse = some value :=
    (Entries.find?_ofList key pairs).symm.trans h
  exact List.mem_reverse.1 (Entries.mem_of_find?_eq_some hlast)

/-- What stands in a list is held by its map, if not with this value. -/
theorem isSome_find?_ofList {pairs : Entries α} {key : String} {value : α}
    (h : (key, value) ∈ pairs) : ((ofList pairs).find? key).isSome := by
  have hlast := Entries.isSome_find?_of_mem (List.mem_reverse.2 h)
  rwa [← Entries.find?_ofList] at hlast

end Keyed

namespace Kinship

/-- Whether a name is the name of an interface. -/
def NamesInterface (kin : Kinship) (name : String) : Prop :=
  (kin.find? name).map Kin.kind = some .interface

/-- Adding a definition, whose name must be new. -/
def add (kin : Kinship) (d : TypeDefinition) : Except SchemaProblem Kinship :=
  if kin.contains d.name then .error (.duplicateType d.name)
  else .ok (kin.put d.name ⟨d.kind, d.interfaces⟩)

theorem ofDefinitions_eq (types : List TypeDefinition) :
    ofDefinitions types = types.foldlM add Keyed.empty := rfl

/-- A type is added when its name is new, and then it stands under its name with its kind and its
interfaces. -/
theorem add_eq_ok_iff {kin kin' : Kinship} {d : TypeDefinition} : kin.add d = .ok kin' ↔
    kin.find? d.name = none ∧ kin' = kin.put d.name ⟨d.kind, d.interfaces⟩ := by
  unfold add Keyed.contains
  cases kin.find? d.name with
  | none => simp [eq_comm]
  | some k => simp

/-- Adding definitions keeps what is there, adds each under its name, and nothing else.  No
definition that is added hides one that was there, because a name that is taken is refused. -/
theorem find?_of_foldlM {types : List TypeDefinition} : ∀ {start kin : Kinship},
    types.foldlM add start = .ok kin →
    (∀ name k, start.find? name = some k → kin.find? name = some k) ∧
    (∀ d ∈ types, kin.find? d.name = some ⟨d.kind, d.interfaces⟩) ∧
    ∀ name k, kin.find? name = some k →
      start.find? name = some k ∨ ∃ d ∈ types, d.name = name ∧ k = ⟨d.kind, d.interfaces⟩ := by
  induction types with
  | nil =>
      intro start kin h
      cases h
      exact ⟨fun _ _ h => h, by simp, fun _ _ h => Or.inl h⟩
  | cons d types ih =>
      intro start kin h
      obtain ⟨middle, hstep, hrest⟩ := foldlM_cons_eq_ok_iff.1 h
      obtain ⟨hnew, rfl⟩ := add_eq_ok_iff.1 hstep
      obtain ⟨hkept, hdefined, hfound⟩ := ih hrest
      refine ⟨fun name k hname => hkept name k ?_, ?_, fun name k hname => ?_⟩
      · rw [Keyed.find?_put, if_neg]
        · exact hname
        · rintro rfl
          simp [hnew] at hname
      · intro d' hd'
        rcases List.mem_cons.1 hd' with rfl | hd'
        · exact hkept _ _ (by simp [Keyed.find?_put])
        · exact hdefined d' hd'
      · rcases hfound name k hname with h | ⟨d', hd', hdefines⟩
        · rw [Keyed.find?_put] at h
          split at h
          · next hd => exact Or.inr ⟨d, List.mem_cons_self, hd, (Option.some.inj h).symm⟩
          · exact Or.inl h
        · exact Or.inr ⟨d', List.mem_cons_of_mem _ hd', hdefines⟩

/-- Every definition is found under its name, and nothing else is. -/
theorem find?_of_ofDefinitions {types : List TypeDefinition} {kin : Kinship}
    (h : ofDefinitions types = .ok kin) :
    (∀ d ∈ types, kin.find? d.name = some ⟨d.kind, d.interfaces⟩) ∧
      ∀ name k, kin.find? name = some k →
        ∃ d ∈ types, d.name = name ∧ k = ⟨d.kind, d.interfaces⟩ := by
  obtain ⟨_, hdefined, hfound⟩ := find?_of_foldlM h
  refine ⟨hdefined, fun name k hname => ?_⟩
  rcases hfound name k hname with h | h
  · simp at h
  · exact h

/-- When nothing is wrong with the names, what a type names are interfaces. -/
theorem namesInterface_of_problem? {kin : Kinship} (h : kin.problem? = none) {name : String}
    {k : Kin} (hname : kin.find? name = some k) : ∀ i ∈ k.interfaces, kin.NamesInterface i := by
  intro i hi
  have hmem := Keyed.find?_eq_some_iff.1 hname
  have hnone := List.findSome?_eq_none_iff.1 (List.findSome?_eq_none_iff.1 h _ hmem) i hi
  unfold interfaceProblem? at hnone
  unfold NamesInterface
  split at hnone
  · simp at hnone
  · next k' hk' =>
      by_cases hkind : k'.kind = .interface
      · simp [hk', hkind]
      · simp [hkind] at hnone

/-- What a type implements, directly or through others, are interfaces. -/
theorem namesInterface_of_closure {kin : Kinship} (h : kin.problem? = none) {order : List String}
    {name : String} {implemented : List String}
    (hname : (kin.closureAlong order).find? name = some implemented) :
    ∀ i ∈ implemented, kin.NamesInterface i := by
  refine List.foldlRecOn order _ (motive := fun closure => ∀ name implemented,
    Keyed.find? closure name = some implemented → ∀ i ∈ implemented, kin.NamesInterface i)
    (by simp) ?_ name implemented hname
  intro closure hclosure next _ name implemented hfind i hi
  simp only [Keyed.find?_put] at hfind
  split at hfind
  · cases hfind
    obtain ⟨j, hj, hij⟩ := List.mem_flatMap.1 (Names.mem_sorted.1 hi)
    have hjs : kin.NamesInterface j := by
      cases hnext : kin.find? next with
      | none => simp [hnext] at hj
      | some k => exact namesInterface_of_problem? h hnext j (by simpa [hnext] using hj)
    rcases List.mem_cons.1 hij with rfl | hij
    · exact hjs
    · cases hfound : closure.find? j with
      | none => simp [hfound] at hij
      | some above => exact hclosure j above hfound i (by simpa [hfound] using hij)
  · exact hclosure name implemented hfind i hi

end Kinship

/-- The implementers of an interface are the object types that have it. -/
theorem Hierarchy.mem_implementersOf_iff_kind (h : Hierarchy) {i t : String} :
    t ∈ h.implementersOf i ↔ h.kind? t = some .object ∧ i ∈ h.interfacesOf t := by
  unfold implementersOf
  rw [List.mem_map]
  constructor
  · rintro ⟨⟨t, implemented⟩, he, rfl⟩
    obtain ⟨hentry, hselected⟩ := List.mem_filter.1 he
    have hfind : h.closure.find? t = some implemented := Keyed.find?_eq_some_iff.2 hentry
    rw [Bool.and_eq_true, List.contains_iff_mem, decide_eq_true_eq] at hselected
    exact ⟨hselected.2, by simpa [interfacesOf, hfind] using hselected.1⟩
  · rintro ⟨hkind, himplements⟩
    cases hfind : h.closure.find? t with
    | none => simp [interfacesOf, hfind] at himplements
    | some implemented =>
        refine ⟨(t, implemented), List.mem_filter.2 ⟨Keyed.find?_eq_some_iff.1 hfind, ?_⟩, rfl⟩
        rw [Bool.and_eq_true, List.contains_iff_mem, decide_eq_true_eq]
        exact ⟨by simpa [interfacesOf, hfind] using himplements, hkind⟩

namespace Schema

/-- The facts about a schema that requests rely on. -/
structure Sound (s : Schema) : Prop where
  /-- What a type implements are interfaces. -/
  interfaces_known : ∀ t info, s.find? t = some info → ∀ i ∈ info.interfaces,
    ∃ above, s.find? i = some above ∧ above.kind = .interface
  /-- An interface knows the object types that implement it. -/
  mem_implementers_iff : ∀ i info, s.find? i = some info → info.kind = .interface → ∀ t,
    t ∈ info.implementers ↔
      ∃ below, s.find? t = some below ∧ below.kind = .object ∧ i ∈ below.interfaces
  /-- The members of a union are object types. -/
  members_known : ∀ u info, s.find? u = some info → info.kind = .union → ∀ t ∈ info.members,
    ∃ member, s.find? t = some member ∧ member.kind = .object
  /-- Every negation in a rule has something to negate. -/
  rules_negate : ∀ t op rule, s.rule? t op = some rule → rule.Negates
  /-- Only types of the schema have rules. -/
  rules_known : ∀ t op rule, s.rule? t op = some rule → ∃ info, s.find? t = some info

/-- A schema that a definition may put in force. -/
def Accepted (s : Schema) : Prop :=
  ∃ (catalog : Catalog) (definition : SchemaDefinition), catalog.next definition = .ok s

/-- Rules for operations that were compiled from declarations on a type. -/
def CompiledOn (h : Hierarchy) (typeName : String) (rules : Slots Rule) : Prop :=
  ∀ op rule, rules.get? op = some rule →
    ∃ declaration, compileRule h typeName op declaration = .ok rule

/-- A rule on a type is what its declaration makes, and nothing is wrong with the types that
its graph rules select from. -/
theorem compileRule_eq_ok_iff {h : Hierarchy} {typeName : String} {op : Operation}
    {declaration : Rule.Declaration} {rule : Rule} :
    compileRule h typeName op declaration = .ok rule ↔
      Rule.compile declaration = .ok rule ∧ ∀ part ∈ rule.graphRules,
        rootProblem? h typeName (typeName ++ "." ++ op.name) part.rootType = none := by
  unfold compileRule
  simp only
  cases Rule.compile declaration with
  | error flaw => simp
  | ok compiled =>
      simp only [Except.ok.injEq]
      split
      · next problem hproblem =>
          obtain ⟨root, hroot, hproblem⟩ := List.exists_of_findSome?_eq_some hproblem
          obtain ⟨part, hpart, rfl⟩ := List.mem_map.1 hroot
          simp only [reduceCtorEq, false_iff]
          rintro ⟨rfl, hall⟩
          simp [hall part hpart] at hproblem
      · next hnone =>
          simp only [Except.ok.injEq]
          constructor
          · rintro rfl
            exact ⟨rfl, fun part hpart =>
              List.findSome?_eq_none_iff.1 hnone _ (List.mem_map_of_mem hpart)⟩
          · exact And.left

/-- The rules that a type declares are compiled over the hierarchy, each as it was declared for its
operation. -/
theorem compiledOn_of_ownRules {h : Hierarchy} {d : TypeDefinition} {rules : Slots Rule}
    (hrules : ownRules h d = .ok rules) : CompiledOn h d.name rules := by
  unfold ownRules at hrules
  split at hrules
  · cases hrules
    exact fun op rule hrule => by simp at hrule
  · next declared _ =>
      refine foldlM_keeps (P := CompiledOn h d.name) (fun op _ rules rules' hkept hstep => ?_)
        (fun op rule hrule => by simp at hrule) hrules
      split at hstep
      · cases hstep
        exact hkept
      · next declaration _ =>
          obtain ⟨added, hadded, rfl⟩ := exists_of_map_eq_ok hstep
          intro op' rule hrule
          rw [Slots.get?_put] at hrule
          split at hrule
          · next hop =>
              subst hop
              cases hrule
              exact ⟨declaration, hadded⟩
          · exact hkept op' rule hrule

/-- All own rules of an accepted schema were compiled from declarations on their types. -/
theorem compiledOn_of_allOwnRules {h : Hierarchy} {types : List TypeDefinition}
    {own : Keyed (Slots Rule)} (hown : allOwnRules h types = .ok own) :
    ∀ name rules, own.find? name = some rules → CompiledOn h name rules := by
  refine foldlM_keeps (P := fun own : Keyed (Slots Rule) =>
    ∀ name rules, own.find? name = some rules → CompiledOn h name rules)
    (fun d _ own own' hkept hstep => ?_) (by simp) hown
  split at hstep
  · split at hstep
    · simp at hstep
    · cases hstep
      exact hkept
  · obtain ⟨rules, hrules, rfl⟩ := exists_of_map_eq_ok hstep
    intro name rules' hname
    rw [Keyed.find?_put] at hname
    split at hname
    · next hd =>
        subst hd
        cases hname
        exact compiledOn_of_ownRules hrules
    · exact hkept name rules' hname

/-- A conjunction negates something when its parts do. -/
theorem negates_of_conjunction? {rules : List Rule} {rule : Rule} (h : conjunction? rules = some rule)
    (hrules : ∀ r ∈ rules, r.Negates) : rule.Negates := by
  unfold conjunction? at h
  split at h
  · simp at h
  · cases h
    exact hrules _ List.mem_cons_self
  · cases h
    simpa [Rule.Negates] using Rule.allNegate_iff.2 hrules

/-- Nothing is wrong with a union exactly when it declares no rules and its members are object
types. -/
theorem unionProblem?_eq_none_iff {h : Hierarchy} {d : TypeDefinition} :
    unionProblem? h d = none ↔ d.rules = none ∧ ∀ m ∈ d.members, h.kind? m = some .object := by
  unfold unionProblem?
  cases d.rules with
  | none => simp
  | some rules => simp

/-- When the rules of all types were compiled, no union was found to be at fault on the way. -/
theorem unionProblem?_of_allOwnRules {h : Hierarchy} {types : List TypeDefinition}
    {own : Keyed (Slots Rule)} (hown : allOwnRules h types = .ok own) {d : TypeDefinition}
    (hd : d ∈ types) (hunion : d.kind = .union) : unionProblem? h d = none := by
  obtain ⟨before, after, hstep⟩ := exists_of_foldlM hown d hd
  rw [if_pos hunion] at hstep
  cases hproblem : unionProblem? h d with
  | none => rfl
  | some problem =>
      rw [hproblem] at hstep
      simp at hstep

/-- What compiling puts into a schema. -/
structure CompiledFrom (s : Schema) (types : List TypeDefinition) (hier : Hierarchy)
    (own : Keyed (Slots Rule)) : Prop where
  hierarchy : Hierarchy.ofDefinitions types = .ok hier
  rules : allOwnRules hier types = .ok own
  effective : s.effective = Keyed.ofList ((types.filter fun d => d.kind ≠ .union).map fun d =>
    (d.name, effectiveRules own hier d.name))
  infos : s.types = Keyed.ofList (types.map fun d => (d.name, typeInfo hier d))

/-- An accepted schema comes from a hierarchy and from the rules of its types.  Everything that is
proved of accepted schemas starts here. -/
theorem compiledFrom_of_compile {definition : SchemaDefinition} {s : Schema}
    (h : compile definition = .ok s) :
    ∃ hier own, s.CompiledFrom definition.types hier own := by
  unfold compile at h
  cases hhier : Hierarchy.ofDefinitions definition.types with
  | error problem => simp [hhier, bind, Except.bind] at h
  | ok hier =>
      cases hown : allOwnRules hier definition.types with
      | error problem => simp [hhier, hown, bind, Except.bind] at h
      | ok own =>
          simp only [hhier, hown, bind, Except.bind, Except.ok.injEq] at h
          subst h
          exact ⟨hier, own, hhier, hown, rfl, rfl⟩

/-- What an accepted hierarchy was made of. -/
theorem parts_of_hierarchy {types : List TypeDefinition} {h : Hierarchy}
    (hh : Hierarchy.ofDefinitions types = .ok h) :
    Kinship.ofDefinitions types = .ok h.kinship ∧ h.kinship.problem? = none ∧
      ∃ order, h.closure = h.kinship.closureAlong order := by
  unfold Hierarchy.ofDefinitions at hh
  cases hkin : Kinship.ofDefinitions types with
  | error problem => simp [hkin, bind, Except.bind] at hh
  | ok kin =>
      simp only [hkin, bind, Except.bind] at hh
      split at hh
      · simp at hh
      · next hproblem =>
          split at hh
          · simp at hh
          · cases hh
            exact ⟨rfl, hproblem, kin.peeled, rfl⟩

namespace CompiledFrom

variable {s : Schema} {types : List TypeDefinition} {hier : Hierarchy}
  {own : Keyed (Slots Rule)}

/-- A type of the schema comes from the definition that gives the hierarchy its kind. -/
theorem of_find? (h : s.CompiledFrom types hier own) {t : String} {info : TypeInfo}
    (ht : s.find? t = some info) :
    ∃ d ∈ types, d.name = t ∧ info = typeInfo hier d ∧ hier.kind? t = some d.kind := by
  obtain ⟨hkin, _⟩ := parts_of_hierarchy h.hierarchy
  obtain ⟨hdefined, _⟩ := Kinship.find?_of_ofDefinitions hkin
  rw [find?, h.infos] at ht
  obtain ⟨d, hd, heq⟩ := List.mem_map.1 (Keyed.mem_of_find?_ofList ht)
  cases heq
  exact ⟨d, hd, rfl, rfl, by rw [Hierarchy.kind?, hdefined d hd]; rfl⟩

/-- What the hierarchy knows the schema knows. -/
theorem exists_of_kind? (h : s.CompiledFrom types hier own) {t : String} {kind : TypeKind}
    (hkind : hier.kind? t = some kind) : ∃ info, s.find? t = some info ∧ info.kind = kind := by
  obtain ⟨hkin, _⟩ := parts_of_hierarchy h.hierarchy
  obtain ⟨_, hfound⟩ := Kinship.find?_of_ofDefinitions hkin
  obtain ⟨k, hk, rfl⟩ := Option.map_eq_some_iff.1 hkind
  obtain ⟨d, hd, rfl, rfl⟩ := hfound t k hk
  have hmem : (d.name, typeInfo hier d) ∈ types.map fun d => (d.name, typeInfo hier d) :=
    List.mem_map_of_mem hd
  obtain ⟨info, hs⟩ := Option.isSome_iff_exists.1 (Keyed.isSome_find?_ofList hmem)
  rw [← h.infos] at hs
  obtain ⟨d', _, _, rfl, hkind'⟩ := h.of_find? hs
  exact ⟨_, hs, Option.some.inj (hkind'.symm.trans hkind)⟩

/-- What a type of a schema implements is in the schema, and is an interface. -/
theorem interfaces_known (h : s.CompiledFrom types hier own) {t : String} {info : TypeInfo}
    (ht : s.find? t = some info) {i : String} (hi : i ∈ info.interfaces) :
    ∃ above, s.find? i = some above ∧ above.kind = .interface := by
  obtain ⟨_, hproblem, order, hclosure⟩ := parts_of_hierarchy h.hierarchy
  obtain ⟨d, _, rfl, rfl, _⟩ := h.of_find? ht
  have hi' : i ∈ (hier.closure.find? d.name).getD [] := hi
  cases himplemented : hier.closure.find? d.name with
  | none => simp [himplemented] at hi'
  | some implemented =>
      have halong : (hier.kinship.closureAlong order).find? d.name = some implemented :=
        hclosure ▸ himplemented
      refine h.exists_of_kind? (Kinship.namesInterface_of_closure hproblem halong i ?_)
      simpa [himplemented] using hi'

/-- An interface lists the object types that implement it, and these are all of them. -/
theorem mem_implementers_iff (h : s.CompiledFrom types hier own) {i : String} {info : TypeInfo}
    (hi : s.find? i = some info) (hkind : info.kind = .interface) {t : String} :
    t ∈ info.implementers ↔
      ∃ below, s.find? t = some below ∧ below.kind = .object ∧ i ∈ below.interfaces := by
  obtain ⟨d, _, rfl, rfl, _⟩ := h.of_find? hi
  have hkind' : d.kind = .interface := hkind
  have himplementers : (typeInfo hier d).implementers = hier.implementersOf d.name := by
    rw [typeInfo, if_pos hkind']
  rw [himplementers, hier.mem_implementersOf_iff_kind]
  constructor
  · rintro ⟨hobject, himplements⟩
    obtain ⟨below, hbelow, hbelowObject⟩ := h.exists_of_kind? hobject
    obtain ⟨e, _, rfl, rfl, _⟩ := h.of_find? hbelow
    exact ⟨_, hbelow, hbelowObject, himplements⟩
  · rintro ⟨below, hbelow, hobject, himplements⟩
    obtain ⟨e, _, rfl, rfl, hknown⟩ := h.of_find? hbelow
    exact ⟨hknown.trans (congrArg some hobject), himplements⟩

/-- The members of a union are object types of the schema. -/
theorem members_known (h : s.CompiledFrom types hier own) {u : String} {info : TypeInfo}
    (hu : s.find? u = some info) (hkind : info.kind = .union) {t : String}
    (ht : t ∈ info.members) : ∃ member, s.find? t = some member ∧ member.kind = .object := by
  obtain ⟨d, hd, rfl, rfl, _⟩ := h.of_find? hu
  have hmembers := (unionProblem?_eq_none_iff.1 (unionProblem?_of_allOwnRules h.rules hd hkind)).2
  exact h.exists_of_kind? (hmembers t ht)

/-- Every negation in an effective rule has a rule to negate. -/
theorem rules_negate (h : s.CompiledFrom types hier own) {t : String} {op : Operation}
    {rule : Rule} (hrule : s.rule? t op = some rule) : rule.Negates := by
  obtain ⟨rules, hrules, hget⟩ := Option.bind_eq_some_iff.1 hrule
  rw [h.effective] at hrules
  obtain ⟨d, _, heq⟩ := List.mem_map.1 (Keyed.mem_of_find?_ofList hrules)
  cases heq
  rw [effectiveRules, Slots.get?_ofFunction] at hget
  refine negates_of_conjunction? hget fun r hr => ?_
  obtain ⟨name, _, hname⟩ := List.mem_filterMap.1 hr
  obtain ⟨declared, hdeclared, hr⟩ := Option.bind_eq_some_iff.1 hname
  obtain ⟨declaration, hcompiled⟩ :=
    compiledOn_of_allOwnRules h.rules name declared hdeclared op r hr
  exact Rule.negates_of_compile (compileRule_eq_ok_iff.1 hcompiled).1

/-- Only types that are defined, and no unions, have rules. -/
theorem exists_of_rule? (h : s.CompiledFrom types hier own) {t : String} {op : Operation}
    {rule : Rule} (hrule : s.rule? t op = some rule) :
    ∃ d ∈ types, d.name = t ∧ d.kind ≠ .union := by
  obtain ⟨rules, hrules, _⟩ := Option.bind_eq_some_iff.1 hrule
  rw [h.effective] at hrules
  obtain ⟨d, hd, heq⟩ := List.mem_map.1 (Keyed.mem_of_find?_ofList hrules)
  obtain ⟨hd, hkind⟩ := List.mem_filter.1 hd
  exact ⟨d, hd, congrArg Prod.fst heq, by simpa using hkind⟩

/-- Rules are only ever kept for types that the schema knows. -/
theorem rules_known (h : s.CompiledFrom types hier own) {t : String} {op : Operation}
    {rule : Rule} (hrule : s.rule? t op = some rule) : ∃ info, s.find? t = some info := by
  obtain ⟨d, hd, rfl, _⟩ := h.exists_of_rule? hrule
  have hmem : (d.name, typeInfo hier d) ∈ types.map fun d => (d.name, typeInfo hier d) :=
    List.mem_map_of_mem hd
  rw [find?, h.infos]
  exact Option.isSome_iff_exists.1 (Keyed.isSome_find?_ofList hmem)

/-- **A schema that compiles hangs together.** -/
theorem sound (h : s.CompiledFrom types hier own) : s.Sound where
  interfaces_known _ _ ht _ hi := h.interfaces_known ht hi
  mem_implementers_iff _ _ hi hkind _ := h.mem_implementers_iff hi hkind
  members_known _ _ hu hkind _ ht := h.members_known hu hkind ht
  rules_negate _ _ _ hrule := h.rules_negate hrule
  rules_known _ _ _ hrule := h.rules_known hrule

end CompiledFrom

/-- **An accepted schema hangs together.** -/
theorem Accepted.sound {s : Schema} (h : s.Accepted) : s.Sound := by
  obtain ⟨catalog, definition, hnext⟩ := h
  obtain ⟨compiled, hcompiled, rfl⟩ := exists_of_map_eq_ok hnext
  obtain ⟨hier, own, hfrom⟩ := compiledFrom_of_compile hcompiled
  have hsound := hfrom.sound
  exact ⟨hsound.interfaces_known, hsound.mem_implementers_iff, hsound.members_known,
    hsound.rules_negate, hsound.rules_known⟩

end Schema

/-- Whether each node has an object type of the schema, and lists what that type
implements. -/
def Graph.Fits (g : Graph) (s : Schema) : Prop :=
  ∀ n ∈ g.toList, ∃ info, s.find? n.typeName = some info ∧ info.kind = .object ∧
    ∀ i, i ∈ n.interfaces ↔ i ∈ info.interfaces

/-- A graph fits a schema when each of its nodes is of an object type and bears that type's
interfaces, which can be checked node by node. -/
theorem Graph.fits_of_all {g : Graph} {s : Schema}
    (h : (g.toList.all fun n => (s.find? n.typeName).any fun info =>
      info.kind = .object ∧ info.interfaces = n.interfaces) = true) : g.Fits s := by
  intro n hn
  obtain ⟨info, hinfo, hobject⟩ := (Option.any_eq_true _ _).1 (List.all_eq_true.1 h n hn)
  simp only [decide_eq_true_eq] at hobject
  exact ⟨info, hinfo, hobject.1, fun i => by rw [hobject.2]⟩

namespace Schema

variable {s : Schema} {g : Graph} {typeName : String} {n : Node}

/-- A node is of an object type only by its own type. -/
theorem isA_iff_of_object (hs : s.Sound) (hfits : g.Fits s) (hn : n ∈ g.toList) {info : TypeInfo}
    (ht : s.find? typeName = some info) (hkind : info.kind ≠ .interface) :
    n.isA typeName = true ↔ n.typeName = typeName := by
  obtain ⟨own, hown, _, hlists⟩ := hfits n hn
  unfold Node.isA
  simp only [Bool.or_eq_true, decide_eq_true_eq, List.contains_eq_mem, or_iff_left_iff_imp]
  intro hmem
  obtain ⟨above, habove, hinterface⟩ := hs.interfaces_known _ own hown typeName ((hlists _).1 hmem)
  rw [ht] at habove
  exact absurd (Option.some.inj habove ▸ hinterface) hkind

end Schema

/-- The first schema in force is an accepted one. -/
theorem Catalog.accepted_of_load {definition : SchemaDefinition} {s : Schema}
    (h : (empty.load definition).2.current = some s) : s.Accepted := by
  unfold load at h
  cases hnext : empty.next definition with
  | error problem =>
      rw [hnext] at h
      simp [empty] at h
  | ok schema =>
      rw [hnext] at h
      exact ⟨empty, definition, Option.some.inj h ▸ hnext⟩

end GraphWarden
