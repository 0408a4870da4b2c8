import Mathlib.Data.List.Forall2
import Mathlib.Data.List.Nodup
import GraphWarden.Proofs.Rule.Conjunction
import GraphWarden.Proofs.Schema.Closure

/-!
# Effective rules

The effective rule of a type is put together from what the type and everything above it
declare.  `Effective` says so in terms of the definition alone: the names that declare a rule
are listed once each, however many ways lead to one of them, and beside each name stands the
rule that its declaration makes.

An accepted schema has such rules (`effective_of_compile`), and the **main statement**,
`effective_rule_conjoins`, adds what they mean: there is no rule exactly when nothing in the
hierarchy declares one, and otherwise the effective rule selects a node, and lets a candidate
pass, exactly when each of the declared rules does when it is asked alone.
-/

namespace GraphWarden

/-- A pass whose steps each touch one key leaves alone what is under other keys, and under
the key of a step, which comes once, what the step put there. -/
theorem foldlM_touches {ε α β κ γ : Type} {step : β → α → Except ε β} {key : α → κ}
    {look : β → κ → γ}
    (hother : ∀ b x b', step b x = .ok b' → ∀ k, k ≠ key x → look b' k = look b k) {xs : List α} :
    ∀ {start stop : β}, xs.foldlM step start = .ok stop → (xs.map key).Nodup →
      (∀ k ∉ xs.map key, look stop k = look start k) ∧
        ∀ x ∈ xs, ∃ b b', step b x = .ok b' ∧ look b (key x) = look start (key x) ∧
          look stop (key x) = look b' (key x) := by
  induction xs with
  | nil =>
      intro start stop h _
      cases h
      simp
  | cons x xs ih =>
      intro start stop h hnodup
      obtain ⟨middle, hx, hstop⟩ := foldlM_cons_eq_ok_iff.1 h
      obtain ⟨hnew, hrest⟩ := List.nodup_cons.1 hnodup
      obtain ⟨hkept, hput⟩ := ih hstop hrest
      refine ⟨fun k hk => ?_, fun y hy => ?_⟩
      · have hkx : k ≠ key x := fun hkx => hk (by simp [hkx])
        have hkxs : k ∉ xs.map key := fun hkxs => hk (List.mem_cons_of_mem _ hkxs)
        rw [hkept k hkxs, hother start x middle hx k hkx]
      · rcases List.mem_cons.1 hy with rfl | hy
        · exact ⟨start, middle, hx, rfl, hkept _ hnew⟩
        · obtain ⟨b, b', hstep, hbefore, hafter⟩ := hput y hy
          have hyx : key y ≠ key x := by
            intro hyx
            exact hnew (hyx ▸ List.mem_map_of_mem hy)
          exact ⟨b, b', hstep, hbefore.trans (hother start x middle hx _ hyx), hafter⟩

/-- In related lists every element of either has a partner in the other. -/
theorem partners_of_forall₂ {α β : Type} {R : α → β → Prop} {xs : List α} {ys : List β}
    (h : List.Forall₂ R xs ys) :
    (∀ x ∈ xs, ∃ y ∈ ys, R x y) ∧ ∀ y ∈ ys, ∃ x ∈ xs, R x y := by
  induction h with
  | nil => simp
  | cons hxy _ ih =>
      obtain ⟨hforth, hback⟩ := ih
      constructor
      · intro z hz
        rcases List.mem_cons.1 hz with rfl | hz
        · exact ⟨_, List.mem_cons_self, hxy⟩
        · obtain ⟨y, hy, hzy⟩ := hforth z hz
          exact ⟨y, List.mem_cons_of_mem _ hy, hzy⟩
      · intro z hz
        rcases List.mem_cons.1 hz with rfl | hz
        · exact ⟨_, List.mem_cons_self, hxy⟩
        · obtain ⟨x, hx, hxz⟩ := hback z hz
          exact ⟨x, List.mem_cons_of_mem _ hx, hxz⟩

/-- Related lists whose related elements have the same image are mapped to the same list. -/
theorem map_eq_of_forall₂ {α β γ : Type} {R : α → β → Prop} {f : α → γ} {g : β → γ}
    {xs : List α} {ys : List β} (h : List.Forall₂ R xs ys) (hfg : ∀ x y, R x y → g y = f x) :
    ys.map g = xs.map f := by
  have hequal : List.Forall₂ (· = ·) (xs.map f) (ys.map g) :=
    List.forall₂_map_left_iff.2 (List.forall₂_map_right_iff.2
      (h.imp fun x y hxy => (hfg x y hxy).symm))
  rw [List.forall₂_eq_eq_eq] at hequal
  exact hequal.symm

/-! ### What a definition declares -/

/-- The rule that a type declares for an operation. -/
def TypeDefinition.declared? (d : TypeDefinition) (op : Operation) : Option Rule.Declaration :=
  d.rules.bind fun rules => rules.get? op

/-- The rule that the type of a name declares for an operation. -/
def SchemaDefinition.declared? (definition : SchemaDefinition) (name : String) (op : Operation) :
    Option Rule.Declaration :=
  (definition.types.find? fun d => d.name = name).bind fun d => d.declared? op

/-- A name is the name of a type, or of an interface that the type implements. -/
def SchemaDefinition.AtOrAbove (definition : SchemaDefinition) (typeName name : String) : Prop :=
  name = typeName ∨ definition.Implements typeName name

/-- The rules that hold together for a type and an operation: those that the type and what it
implements declare, each once, beside the names that declare them. -/
structure SchemaDefinition.Effective (definition : SchemaDefinition) (typeName : String)
    (op : Operation) (names : List String) (rules : List Rule) : Prop where
  once : names.Nodup
  mem_iff : ∀ name, name ∈ names ↔
    definition.AtOrAbove typeName name ∧ (definition.declared? name op).isSome
  compiled : List.Forall₂ (fun name rule =>
    (definition.declared? name op).map Rule.compile = some (.ok rule)) names rules

/-- Definitions can be added exactly when their names are new and distinct: the first one adds its
name, so that no later one may have it. -/
theorem Kinship.exists_foldlM_iff {types : List TypeDefinition} : ∀ {start : Kinship},
    (∃ kin, types.foldlM Kinship.add start = .ok kin) ↔
      (types.map TypeDefinition.name).Nodup ∧ ∀ d ∈ types, start.find? d.name = none := by
  induction types with
  | nil =>
      intro start
      exact iff_of_true ⟨start, rfl⟩ (by simp)
  | cons d types ih =>
      intro start
      have hput : (∀ e ∈ types, (start.put d.name ⟨d.kind, d.interfaces⟩).find? e.name = none) ↔
          d.name ∉ types.map TypeDefinition.name ∧ ∀ e ∈ types, start.find? e.name = none := by
        rw [List.mem_map, not_exists, ← forall_and]
        refine forall_congr' fun e => ?_
        rw [Keyed.find?_put]
        by_cases hname : d.name = e.name
        · simp [hname]
          exact fun hnot he => absurd he hnot
        · simp [hname, Ne.symm hname]
      calc (∃ kin, (d :: types).foldlM Kinship.add start = .ok kin)
          ↔ start.find? d.name = none ∧
              ∃ kin, types.foldlM Kinship.add (start.put d.name ⟨d.kind, d.interfaces⟩) =
                .ok kin := by
            simp only [foldlM_cons_eq_ok_iff, Kinship.add_eq_ok_iff]
            constructor
            · rintro ⟨kin, _, ⟨hnew, rfl⟩, hkin⟩
              exact ⟨hnew, kin, hkin⟩
            · rintro ⟨hnew, kin, hkin⟩
              exact ⟨kin, _, ⟨hnew, rfl⟩, hkin⟩
        _ ↔ start.find? d.name = none ∧ (types.map TypeDefinition.name).Nodup ∧
              d.name ∉ types.map TypeDefinition.name ∧ ∀ e ∈ types, start.find? e.name = none := by
            rw [ih, hput]
        _ ↔ _ := by
            rw [List.map_cons, List.nodup_cons, List.forall_mem_cons]
            tauto

/-- There is a map of the definitions exactly when their names are distinct. -/
theorem Kinship.exists_ofDefinitions_iff {types : List TypeDefinition} :
    (∃ kin, Kinship.ofDefinitions types = .ok kin) ↔ (types.map TypeDefinition.name).Nodup := by
  rw [Kinship.ofDefinitions_eq, Kinship.exists_foldlM_iff]
  simp

/-- Types that make up a kinship have different names, since a name that is declared twice is
refused. -/
theorem Kinship.names_nodup {types : List TypeDefinition} {kin : Kinship}
    (h : Kinship.ofDefinitions types = .ok kin) : (types.map TypeDefinition.name).Nodup :=
  Kinship.exists_ofDefinitions_iff.1 ⟨kin, h⟩

/-- Where the names are distinct, a type declares what its definition does. -/
theorem SchemaDefinition.declared?_of_mem {definition : SchemaDefinition}
    (hnodup : (definition.types.map TypeDefinition.name).Nodup) {d : TypeDefinition}
    (hd : d ∈ definition.types) (op : Operation) :
    definition.declared? d.name op = d.declared? op := by
  have hfind : definition.types.find? (fun d' => d'.name = d.name) = some d := by
    cases hfound : definition.types.find? fun d' => d'.name = d.name with
    | none =>
        have hnone := List.find?_eq_none.1 hfound d hd
        simp at hnone
    | some d' =>
        have hname : d'.name = d.name := by simpa using List.find?_some hfound
        rw [List.inj_on_of_nodup_map hnodup (List.mem_of_find?_eq_some hfound) hd hname]
  rw [SchemaDefinition.declared?, hfind, Option.bind_some]

/-! ### What compiling makes of it -/

namespace Schema

variable {hier : Hierarchy} {own : Keyed (Slots Rule)}

/-- Compiling one of the rules that a type declares. -/
def ownRuleStep (h : Hierarchy) (typeName : String) (declared : Slots Rule.Declaration)
    (rules : Slots Rule) (op : Operation) : Except SchemaProblem (Slots Rule) :=
  match declared.get? op with
  | none => .ok rules
  | some declaration => (compileRule h typeName op declaration).map (rules.put op)

/-- Compiling the rules of one type. -/
def ownRulesStep (h : Hierarchy) (own : Keyed (Slots Rule)) (d : TypeDefinition) :
    Except SchemaProblem (Keyed (Slots Rule)) :=
  if d.kind = .union then
    match unionProblem? h d with
    | some problem => .error problem
    | none => .ok own
  else (ownRules h d).map (own.put d.name)

/-- The own rules of a type are put together operation by operation. -/
theorem ownRules_eq {d : TypeDefinition} {declared : Slots Rule.Declaration}
    (h : d.rules = some declared) :
    ownRules hier d = Operation.every.foldlM (ownRuleStep hier d.name declared) Slots.empty := by
  unfold ownRules
  rw [h]
  rfl

/-- The own rules of all types are put together type by type.  The steps are named here, because
the induction over the types goes by them. -/
theorem allOwnRules_eq (types : List TypeDefinition) :
    allOwnRules hier types = types.foldlM (ownRulesStep hier) Keyed.empty := rfl

/-- A union passes this step when it has no rules and only object types as members, and then
nothing is put in for it. -/
theorem ownRulesStep_of_union {d : TypeDefinition} (hunion : d.kind = .union)
    {own own' : Keyed (Slots Rule)} :
    ownRulesStep hier own d = .ok own' ↔ unionProblem? hier d = none ∧ own' = own := by
  unfold ownRulesStep
  rw [if_pos hunion]
  cases unionProblem? hier d with
  | none => simp [eq_comm]
  | some problem => simp

/-- Any other type passes it when each of its rules compiles, and then its rules are put in under
its name. -/
theorem ownRulesStep_of_type {d : TypeDefinition} (hunion : d.kind ≠ .union)
    {own own' : Keyed (Slots Rule)} :
    ownRulesStep hier own d = .ok own' ↔
      ∃ rules, ownRules hier d = .ok rules ∧ own' = own.put d.name rules := by
  unfold ownRulesStep
  rw [if_neg hunion]
  cases ownRules hier d with
  | error problem => simp [Except.map]
  | ok rules => simp [Except.map, eq_comm]

/-- A type has the rules that its declarations make.  Each operation is put in by one step, and no
other step touches its slot. -/
theorem get?_of_ownRules {d : TypeDefinition} {rules : Slots Rule}
    (h : ownRules hier d = .ok rules) (op : Operation) :
    (d.declared? op).map Rule.compile = (rules.get? op).map .ok := by
  cases hrules : d.rules with
  | none =>
      rw [ownRules, hrules] at h
      cases h
      simp [TypeDefinition.declared?, hrules]
  | some declared =>
      rw [ownRules_eq hrules] at h
      have hevery : (Operation.every.map id).Nodup := by decide
      have hother : ∀ (rules : Slots Rule) (op : Operation) (rules' : Slots Rule),
          ownRuleStep hier d.name declared rules op = .ok rules' →
          ∀ o, o ≠ id op → rules'.get? o = rules.get? o := by
        intro rules op rules' hstep o ho
        unfold ownRuleStep at hstep
        split at hstep
        · cases hstep
          rfl
        · obtain ⟨rule, _, rfl⟩ := exists_of_map_eq_ok hstep
          rw [Slots.get?_put, if_neg fun h => ho h.symm]
      obtain ⟨_, htouched⟩ := foldlM_touches hother h hevery
      obtain ⟨before, after, hstep, hbefore, hafter⟩ := htouched op (Operation.mem_every op)
      rw [TypeDefinition.declared?, hrules, Option.bind_some]
      simp only [id_eq] at hbefore hafter
      rw [hafter]
      unfold ownRuleStep at hstep
      split at hstep
      · next hnone =>
          cases hstep
          simp [hnone, hbefore]
      · next declaration hdeclaration =>
          obtain ⟨rule, hrule, rfl⟩ := exists_of_map_eq_ok hstep
          rw [Slots.get?_put, if_pos rfl, hdeclaration, Option.map_some, Option.map_some,
            (compileRule_eq_ok_iff.1 hrule).1]

/-- The own rules of a type are found under its name. -/
theorem find?_of_allOwnRules {types : List TypeDefinition} (hown : allOwnRules hier types = .ok own)
    (hnodup : (types.map TypeDefinition.name).Nodup) {d : TypeDefinition} (hd : d ∈ types)
    (hkind : d.kind ≠ .union) :
    ∃ rules, ownRules hier d = .ok rules ∧ own.find? d.name = some rules := by
  have hother : ∀ (own : Keyed (Slots Rule)) (d : TypeDefinition) (own' : Keyed (Slots Rule)),
      ownRulesStep hier own d = .ok own' →
      ∀ name, name ≠ d.name → own'.find? name = own.find? name := by
    intro own d own' hstep name hname
    by_cases hunion : d.kind = .union
    · rw [((ownRulesStep_of_union hunion).1 hstep).2]
    · obtain ⟨rules, _, rfl⟩ := (ownRulesStep_of_type hunion).1 hstep
      rw [Keyed.find?_put, if_neg fun h => hname h.symm]
  rw [allOwnRules_eq] at hown
  obtain ⟨_, htouched⟩ := foldlM_touches hother hown hnodup
  obtain ⟨before, after, hstep, _, hafter⟩ := htouched d hd
  obtain ⟨rules, hrules, rfl⟩ := (ownRulesStep_of_type hkind).1 hstep
  exact ⟨rules, hrules, by rw [hafter, Keyed.find?_put, if_pos rfl]⟩

/-- Of names that each declare nothing or a rule that compiles, those that declare one stand
beside what it makes. -/
theorem forall₂_of_declared {declared : String → Option Rule.Declaration}
    {found : String → Option Rule} {names : List String}
    (h : ∀ name ∈ names, (declared name).map Rule.compile = (found name).map .ok) :
    List.Forall₂ (fun name rule => (declared name).map Rule.compile = some (.ok rule))
      (names.filter fun name => (declared name).isSome) (names.filterMap found) := by
  induction names with
  | nil => exact List.Forall₂.nil
  | cons name names ih =>
      have hrest := ih fun name hname => h name (List.mem_cons_of_mem _ hname)
      have hname := h name List.mem_cons_self
      cases hfound : found name with
      | none =>
          have hnone : declared name = none := by simpa [hfound] using hname
          rw [List.filterMap_cons_none hfound, List.filter_cons, if_neg (by simp [hnone])]
          exact hrest
      | some rule =>
          rw [hfound, Option.map_some] at hname
          have hsome : (declared name).isSome = true := by
            cases hdeclared : declared name with
            | none => simp [hdeclared] at hname
            | some declaration => rfl
          rw [List.filterMap_cons_some hfound, List.filter_cons, if_pos hsome]
          exact List.Forall₂.cons hname hrest

namespace CompiledFrom

variable {s : Schema} {definition : SchemaDefinition} {d : TypeDefinition} {op : Operation}

/-- The effective rule of a defined type. -/
theorem rule?_eq (h : s.CompiledFrom definition.types hier own) (hd : d ∈ definition.types)
    (hkind : d.kind ≠ .union) :
    s.rule? d.name op = conjunction? (declaredRules own hier d.name op) := by
  have hmem : (d.name, effectiveRules own hier d.name) ∈
      (definition.types.filter fun d => d.kind ≠ .union).map fun d =>
        (d.name, effectiveRules own hier d.name) :=
    List.mem_map.2 ⟨d, List.mem_filter.2 ⟨hd, by simpa using hkind⟩, rfl⟩
  obtain ⟨rules, hrules⟩ := Option.isSome_iff_exists.1 (Keyed.isSome_find?_ofList hmem)
  obtain ⟨d', _, heq⟩ := List.mem_map.1 (Keyed.mem_of_find?_ofList hrules)
  rw [← h.effective] at hrules
  obtain ⟨hname, rfl⟩ := Prod.ext_iff.1 heq
  rw [rule?, hrules, Option.bind_some]
  simp only at hname ⊢
  rw [hname, effectiveRules, Slots.get?_ofFunction]

/-- What a type is at or above is defined, and not a union. -/
theorem defined_of_atOrAbove (h : s.CompiledFrom definition.types hier own)
    (hd : d ∈ definition.types) (hkind : d.kind ≠ .union) {name : String}
    (hname : definition.AtOrAbove d.name name) :
    ∃ e ∈ definition.types, e.name = name ∧ e.kind ≠ .union := by
  rcases hname with rfl | himplements
  · exact ⟨d, hd, rfl, hkind⟩
  · obtain ⟨info, hinfo, _⟩ := h.find?_of_mem hd
    obtain ⟨above, habove, hinterface⟩ :=
      h.interfaces_known hinfo (((h.info_of_find? hinfo).2 name).2 himplements)
    obtain ⟨⟨e, he, hename, hekind⟩, _⟩ := h.info_of_find? habove
    exact ⟨e, he, hename, by simp [hekind, hinterface]⟩

/-- What a type declares for an operation is what its own rule for it was compiled from. -/
theorem declared?_eq (h : s.CompiledFrom definition.types hier own) (hd : d ∈ definition.types)
    (hkind : d.kind ≠ .union) (op : Operation) :
    (definition.declared? d.name op).map Rule.compile =
      ((own.find? d.name).bind fun rules => rules.get? op).map .ok := by
  obtain ⟨hkin, _⟩ := parts_of_hierarchy h.hierarchy
  have hnodup := Kinship.names_nodup hkin
  obtain ⟨rules, hrules, hfind⟩ := find?_of_allOwnRules h.rules hnodup hd hkind
  rw [SchemaDefinition.declared?_of_mem hnodup hd, get?_of_ownRules hrules, hfind,
    Option.bind_some]

/-- The names that an effective rule is put together for are those at or above the type. -/
theorem mem_hierarchy_iff (h : s.CompiledFrom definition.types hier own) {typeName name : String} :
    name ∈ typeName :: hier.interfacesOf typeName ↔ definition.AtOrAbove typeName name := by
  rw [List.mem_cons, Hierarchy.mem_interfacesOf_iff h.hierarchy]
  rfl

/-- **The effective rules of a type** are made of the rules that hold for it. -/
theorem effective_rules (h : s.CompiledFrom definition.types hier own) (hd : d ∈ definition.types)
    (hkind : d.kind ≠ .union) (op : Operation) :
    ∃ names rules, definition.Effective d.name op names rules ∧
      s.rule? d.name op = conjunction? rules := by
  refine ⟨(d.name :: hier.interfacesOf d.name).filter fun name =>
    (definition.declared? name op).isSome, declaredRules own hier d.name op, ?_, h.rule?_eq hd hkind⟩
  constructor
  · exact (Hierarchy.nodup_interfacesOf h.hierarchy d.name).filter _
  · intro name
    rw [List.mem_filter, h.mem_hierarchy_iff]
  · refine forall₂_of_declared fun name hname => ?_
    obtain ⟨e, he, rfl, hekind⟩ := h.defined_of_atOrAbove hd hkind (h.mem_hierarchy_iff.1 hname)
    exact h.declared?_eq he hekind op

end CompiledFrom

/-- Only of no rules at all is no rule put together. -/
theorem conjunction?_eq_none_iff {rules : List Rule} : conjunction? rules = none ↔ rules = [] := by
  unfold conjunction?
  split <;> simp_all

variable {s : Schema} {definition : SchemaDefinition}

/-- **Effective rules are conjunctions over the hierarchy.**  A type has no rule for an
operation exactly when neither it nor anything that it implements declares one.  Otherwise
its rule is the conjunction of the declared rules, each once; it selects a node exactly when
each of them selects it, and lets a candidate pass exactly when each of them lets it pass,
where each of them can be asked alone. -/
theorem effective_rule_conjoins (hs : compile definition = .ok s) {d : TypeDefinition}
    (hd : d ∈ definition.types) (hkind : d.kind ≠ .union) (op : Operation) :
    (s.rule? d.name op = none ↔
      ∀ name, definition.AtOrAbove d.name name → definition.declared? name op = none) ∧
    ∃ names rules, definition.Effective d.name op names rules ∧
      s.rule? d.name op = conjunction? rules ∧
      ∀ rule, s.rule? d.name op = some rule →
        (∀ (g : Graph) (claims : Claims) (n : Node),
          (∀ r ∈ rules, (r.selects? g claims n).isSome) →
          rule.selects? g claims n =
            some (rules.all fun r => r.selects? g claims n = some true)) ∧
        ∀ (c : Client) (l : Line) (ids : List String), l.faults = [] →
          (∀ r ∈ rules, ∃ alone, ((r.passing c d.name ids).run l).1 = .ok alone) →
          ∃ passed, ((rule.passing c d.name ids).run l).1 = .ok passed ∧
            ∀ id, id ∈ passed ↔
              ∀ r ∈ rules, ∃ alone, ((r.passing c d.name ids).run l).1 = .ok alone ∧ id ∈ alone := by
  obtain ⟨hier, own, hfrom⟩ := compiledFrom_of_compile hs
  obtain ⟨names, rules, heffective, hrule⟩ := hfrom.effective_rules hd hkind op
  refine ⟨?_, names, rules, heffective, hrule, ?_⟩
  · rw [hrule, conjunction?_eq_none_iff]
    constructor
    · rintro rfl name hname
      have hnone : names = [] := by simpa using heffective.compiled
      rw [← Option.not_isSome_iff_eq_none]
      intro hdeclared
      have hmem := (heffective.mem_iff name).2 ⟨hname, hdeclared⟩
      simp [hnone] at hmem
    · intro hnone
      have hnames : names = [] := by
        rw [List.eq_nil_iff_forall_not_mem]
        intro name hname
        obtain ⟨habove, hdeclared⟩ := (heffective.mem_iff name).1 hname
        simp [hnone name habove] at hdeclared
      have hcompiled := heffective.compiled
      rw [hnames] at hcompiled
      exact List.forall₂_nil_left_iff.1 hcompiled
  · intro rule hsome
    have hconjunction : conjunction? rules = some rule := hrule.symm.trans hsome
    exact ⟨fun g claims n hreadable => Rule.selects?_conjunction hconjunction hreadable,
      fun c l ids hl hparts => Rule.passed_conjunction hconjunction hl hparts⟩

/-- Drafts are items and records, and both of these are entries: an entry may be deleted by
administrators, an item once it is archived, and a draft by its owner. -/
def drafts : SchemaDefinition where
  types := [
    TypeDefinition.withRule { name := "Entry", kind := .interface } .delete
      (.rule "\x7b $ROLE: \x7b eq: \"ADMIN\" \x7d \x7d"),
    TypeDefinition.withRule { name := "Item", kind := .interface, interfaces := ["Entry"] } .delete
      (.rule "\x7b queryItem \x7b archived \x7d \x7d"),
    { name := "Record", kind := .interface, interfaces := ["Entry"] },
    TypeDefinition.withRule
      { name := "Draft", kind := .object, interfaces := ["Record", "Item"] } .delete
      (.rule "\x7b queryDraft \x7b owner \x7d \x7d")]

/-- The rules that a rule joins. -/
def joined : Rule → List Rule
  | .combine _ rules => rules
  | .role _ => []
  | .graph _ => []

/-- An archived draft without an owner. -/
def draft : Node :=
  ⟨"d1", "Draft", ["Entry", "Item", "Record"], .ofList [("archived", .scalar (.flag true))]⟩

/-- An archived draft that has one. -/
def ownedDraft : Node :=
  ⟨"d2", "Draft", ["Entry", "Item", "Record"],
    .ofList [("archived", .scalar (.flag true)), ("owner", .scalar (.text "amy"))]⟩

/-- An administrator at a desk with both of them. -/
def draftClerk : Client where
  store := { graph := .ofList [draft, ownedDraft] }
  request := { claims := Claims.none.claiming "ROLE" (.text "ADMIN") }

/-- The parts of a conjunction are the rule itself or stand in it. -/
theorem mem_joined_of_conjunction? {rules : List Rule} {rule r : Rule}
    (h : conjunction? rules = some rule) (hr : r ∈ rules) : r ∈ rule :: joined rule := by
  unfold conjunction? at h
  split at h
  · simp at h
  · cases h
    exact List.mem_cons.2 (Or.inl (by simpa using hr))
  · cases h
    exact List.mem_cons_of_mem _ hr

/-- Nobody selects the draft without an owner.  The owned one passes for an administrator, each of
the three rules lets it pass, and of the other draft one of them does not. -/
theorem draft_rule_conjoins :
    ∃ s names rules rule, compile drafts = .ok s ∧
      drafts.Effective "Draft" .delete names rules ∧ conjunction? rules = some rule ∧
      s.rule? "Draft" .delete = some rule ∧
      rule.selects? (.ofList [draft]) Claims.none draft =
        some (rules.all fun r => r.selects? (.ofList [draft]) Claims.none draft = some true) ∧
      ((rule.passing draftClerk "Draft" ["d1", "d2"]).run {}).1 = .ok ["d2"] ∧
      (∀ r ∈ rules, ∃ alone,
        ((r.passing draftClerk "Draft" ["d1", "d2"]).run {}).1 = .ok alone ∧ "d2" ∈ alone) ∧
      ¬ ∀ r ∈ rules, ∃ alone,
        ((r.passing draftClerk "Draft" ["d1", "d2"]).run {}).1 = .ok alone ∧ "d1" ∈ alone := by
  have hreadable : ((compile drafts).toOption.bind fun s => s.rule? "Draft" .delete).any
      (fun rule => (rule :: joined rule).all (fun r =>
          (r.selects? (.ofList [draft]) Claims.none draft).isSome &&
            ((r.passing draftClerk "Draft" ["d1", "d2"]).run {}).1.isOk) &&
        decide (((rule.passing draftClerk "Draft" ["d1", "d2"]).run {}).1.toOption =
          some ["d2"])) = true := by
    decide +kernel
  obtain ⟨rule, hrule, hsome⟩ := (Option.any_eq_true _ _).1 hreadable
  obtain ⟨s, hs, hrule⟩ := Option.bind_eq_some_iff.1 hrule
  simp only [Bool.and_eq_true, List.all_eq_true, decide_eq_true_eq, toOption_eq_some_iff]
    at hs hsome
  obtain ⟨heach, hpassed⟩ := hsome
  have hd : drafts.types[3] ∈ drafts.types := List.getElem_mem _
  obtain ⟨_, names, rules, heffective, heq, hmeaning⟩ :=
    effective_rule_conjoins hs hd (by simp [drafts, TypeDefinition.withRule]) .delete
  have hconjunction : conjunction? rules = some rule := heq.symm.trans hrule
  obtain ⟨hselects, hpasses⟩ := hmeaning rule hrule
  obtain ⟨passed, hrun, hmem⟩ := hpasses draftClerk {} ["d1", "d2"] rfl fun r hr =>
    exists_of_isOk (heach r (mem_joined_of_conjunction? hconjunction hr)).2
  obtain rfl : passed = ["d2"] := Except.ok.inj (hrun.symm.trans hpassed)
  refine ⟨s, names, rules, rule, hs, heffective, hconjunction, hrule,
    hselects _ _ _ fun r hr => (heach r (mem_joined_of_conjunction? hconjunction hr)).1, hpassed,
    (hmem "d2").1 (by simp), fun hall => ?_⟩
  exact absurd ((hmem "d1").2 hall) (by decide)

end Schema

end GraphWarden
