import GraphWarden.Proofs.Schema.Acyclic
import GraphWarden.Proofs.Schema.Effective

/-!
# What the evaluators rely on

The evaluators of rules take much for granted.  A check asks for the nodes of a type `t`,
whatever type the graph rules in its rule select from; a negation is evaluated through its
first rule; and filters are bound to the variables that a graph rule declares.

Each rule is checked on its own, on the type that declares it (`compileRule_eq_ok_iff`), but it
also governs every type below.  There it still suits (`SchemaDefinition.Suits`), since
implementing is transitive (`AtOrAbove.trans`), and what is put together of such rules does
(`compiled_or_joined`).  **All rules of an accepted schema suit the types that they govern, and
its unions are plain** (`compile_well_formed`).
-/

namespace GraphWarden

namespace SchemaDefinition

variable {definition : SchemaDefinition} {t u v : String}

/-- The type that a graph rule selects from is the type that it governs, or an interface that
the latter implements, directly or through others. -/
def Roots (definition : SchemaDefinition) (typeName : String) (rule : GraphRule) : Prop :=
  rule.rootType = typeName ∨
    (definition.Implements typeName rule.rootType ∧ definition.Has rule.rootType .interface)

/-- What a part of a rule that governs a type has to be. -/
structure Suits (definition : SchemaDefinition) (typeName : String) (part : Rule) : Prop where
  formed : part.Formed
  rooted : ∀ rule, part = .graph rule → definition.Roots typeName rule

/-- To be or to stand above is transitive. -/
theorem AtOrAbove.trans (htu : definition.AtOrAbove t u) (huv : definition.AtOrAbove u v) :
    definition.AtOrAbove t v := by
  rcases htu with rfl | htu
  · exact huv
  · rcases huv with rfl | huv
    · exact Or.inr htu
    · exact Or.inr (Relation.TransGen.trans htu huv)

/-- What a type of a hierarchy implements are interfaces. -/
theorem Hierarchical.has_of_implements (h : definition.Hierarchical)
    (himplements : definition.Implements t u) : definition.Has u .interface := by
  cases himplements with
  | single hlists => exact h.interfaces _ _ hlists
  | tail _ hlists => exact h.interfaces _ _ hlists

/-- A rule that selects from a type, or from what stands above the type, has a proper root there,
because only interfaces stand above anything. -/
theorem Hierarchical.roots_of_atOrAbove (h : definition.Hierarchical) {rule : GraphRule}
    (habove : definition.AtOrAbove t rule.rootType) : definition.Roots t rule := by
  rcases habove with hself | himplements
  · exact Or.inl hself
  · exact Or.inr ⟨himplements, h.has_of_implements himplements⟩

end SchemaDefinition

namespace Schema

variable {s : Schema} {definition : SchemaDefinition} {hier : Hierarchy}
  {own : Keyed (Slots Rule)} {t : String} {op : Operation} {rule part : Rule}

/-- A part of a conjunction is a part of one of its rules, or the conjunction itself, which is
not empty. -/
theorem part_of_conjunction {rules : List Rule} (h : conjunction? rules = some rule)
    (hpart : Rule.Within part rule) :
    (∃ r ∈ rules, Rule.Within part r) ∨ (part = .combine .all rules ∧ rules ≠ []) := by
  unfold conjunction? at h
  split at h
  · simp at h
  · cases h
    exact Or.inl ⟨_, List.mem_cons_self, hpart⟩
  · next hnone _ =>
      cases h
      cases hpart with
      | self => exact Or.inr ⟨rfl, hnone⟩
      | joined hr hpart => exact Or.inl ⟨_, hr, hpart⟩

/-- The types that a compiled rule selects from are at or above the type that declares it. -/
theorem atOrAbove_of_compileRule (hh : Hierarchy.ofDefinitions definition.types = .ok hier)
    {declaration : Rule.Declaration} (h : compileRule hier t op declaration = .ok rule)
    {graph : GraphRule} (hgraph : graph ∈ rule.graphRules) :
    definition.AtOrAbove t graph.rootType := by
  have hroot := (compileRule_eq_ok_iff.1 h).2 graph hgraph
  unfold rootProblem? at hroot
  split at hroot
  · simp at hroot
  · split at hroot
    · next hfound =>
        rw [Bool.or_eq_true, decide_eq_true_eq, List.contains_iff_mem,
          Hierarchy.mem_interfacesOf_iff hh] at hfound
        exact hfound
    · simp at hroot

namespace CompiledFrom

/-- A part of the rule of a type is a part of a rule that was compiled on the type or on
something above it, or the conjunction that was put around such rules. -/
theorem compiled_or_joined (h : s.CompiledFrom definition.types hier own)
    (hrule : s.rule? t op = some rule) (hpart : Rule.Within part rule) :
    (∃ name declaration compiled, definition.AtOrAbove t name ∧
        compileRule hier name op declaration = .ok compiled ∧ Rule.Within part compiled) ∨
      ∃ rules, part = .combine .all rules ∧ rules ≠ [] := by
  obtain ⟨d, hd, rfl, hkind⟩ := h.exists_of_rule? hrule
  rw [h.rule?_eq hd hkind] at hrule
  rcases part_of_conjunction hrule hpart with ⟨r, hr, hpart⟩ | ⟨hpart, hsome⟩
  · obtain ⟨name, hname, hown⟩ := List.mem_filterMap.1 hr
    obtain ⟨rules, hrules, hget⟩ := Option.bind_eq_some_iff.1 hown
    obtain ⟨declaration, hcompiled⟩ :=
      compiledOn_of_allOwnRules h.rules name rules hrules op r hget
    exact Or.inl ⟨name, declaration, r, h.mem_hierarchy_iff.1 hname, hcompiled, hpart⟩
  · exact Or.inr ⟨_, hpart, hsome⟩

/-- **Every part of a type's rule suits the type.** -/
theorem suits (h : s.CompiledFrom definition.types hier own) (hrule : s.rule? t op = some rule)
    (hpart : Rule.Within part rule) : definition.Suits t part := by
  rcases h.compiled_or_joined hrule hpart with
    ⟨name, declaration, compiled, habove, hcompiled, hpart⟩ | ⟨rules, rfl, hsome⟩
  · refine ⟨Rule.formed_of_compile _ _ (compileRule_eq_ok_iff.1 hcompiled).1 part hpart, ?_⟩
    rintro graph rfl
    have hroot := atOrAbove_of_compileRule h.hierarchy hcompiled
      (Rule.mem_graphRules_iff.2 hpart)
    exact (Hierarchy.hierarchical_of_ofDefinitions h.hierarchy).roots_of_atOrAbove
      (habove.trans hroot)
  · refine ⟨hsome, ?_⟩
    rintro graph heq
    simp at heq

/-- A node is of the types at or above its own. -/
theorem isA_iff_atOrAbove (h : s.CompiledFrom definition.types hier own) {g : Graph}
    (hfits : g.Fits s) {n : Node} (hn : n ∈ g.toList) :
    n.isA t = true ↔ definition.AtOrAbove n.typeName t := by
  obtain ⟨info, hinfo, _, hlists⟩ := hfits n hn
  unfold Node.isA SchemaDefinition.AtOrAbove
  rw [Bool.or_eq_true, List.contains_iff_mem, hlists, (h.info_of_find? hinfo).2]
  simp [eq_comm]

/-- An accepted union has no rules and joins only object types. -/
theorem plain_of_union (h : s.CompiledFrom definition.types hier own) {d : TypeDefinition}
    (hd : d ∈ definition.types) (hunion : d.kind = .union) :
    d.rules = none ∧ ∀ m ∈ d.members, definition.Has m .object := by
  obtain ⟨hrules, hmembers⟩ :=
    unionProblem?_eq_none_iff.1 (unionProblem?_of_allOwnRules h.rules hd hunion)
  obtain ⟨hkin, _⟩ := parts_of_hierarchy h.hierarchy
  exact ⟨hrules, fun m hm => (Hierarchy.kind_iff hkin).1 (hmembers m hm)⟩

end CompiledFrom

/-- **Accepted schemas are well formed for the evaluators.**  Every part of the rule of a type
suits the type: a graph rule selects from the type itself or an interface that it implements,
and declares the variables of its filter; a negation has one rule under it, and the other
connectives have some.  So every stored node of the type is a node of the types that the graph
rules select from.  A union declares no rules, and its members are object types. -/
theorem compile_well_formed (hs : compile definition = .ok s) :
    (∀ t op rule, s.rule? t op = some rule → ∀ part, Rule.Within part rule →
      definition.Suits t part) ∧
    (∀ t op rule, s.rule? t op = some rule → ∀ graph, Rule.Within (.graph graph) rule →
      ∀ g : Graph, g.Fits s → ∀ n ∈ g.toList, n.isA t = true → n.isA graph.rootType = true) ∧
    ∀ d ∈ definition.types, d.kind = .union →
      d.rules = none ∧ ∀ m ∈ d.members, definition.Has m .object := by
  obtain ⟨hier, own, hfrom⟩ := compiledFrom_of_compile hs
  refine ⟨fun t op rule hrule part hpart => hfrom.suits hrule hpart, ?_,
    fun d hd hunion => hfrom.plain_of_union hd hunion⟩
  intro t op rule hrule graph hgraph g hfits n hn hisA
  rw [hfrom.isA_iff_atOrAbove hfits hn] at hisA ⊢
  refine hisA.trans ?_
  rcases (hfrom.suits hrule hgraph).rooted graph rfl with hself | ⟨himplements, _⟩
  · exact Or.inl hself
  · exact Or.inr himplements

/-- What is found are notes, which are items and so have an owner; only the owner of an item, who
asks under the name of the claim `USER`, may delete it unless it is kept. -/
def finds : SchemaDefinition where
  types := [
    { name := "Owned", kind := .interface },
    TypeDefinition.withRule { name := "Item", kind := .interface, interfaces := ["Owned"] } .delete
      (.all [
        .rule "query($USER: String) \x7b queryOwned(filter: \x7b owner: \x7b eq: $USER \x7d \x7d) \x7b id \x7d \x7d",
        .not (.rule "\x7b queryItem \x7b kept \x7d \x7d")]),
    { name := "Note", kind := .object, interfaces := ["Item"] },
    { name := "Found", kind := .union, members := ["Note"] }]

/-- The rule on items asks for nodes of the interface above, and governs the notes below. -/
theorem finds_well_formed :
    ∃ s rule graph, compile finds = .ok s ∧ s.rule? "Note" .delete = some rule ∧
      Rule.Within (.graph graph) rule ∧ graph.rootType = "Owned" ∧ graph.declared = ["USER"] ∧
      finds.Suits "Note" (.graph graph) := by
  have hrooted : ((compile finds).toOption.bind fun s => s.rule? "Note" .delete).any
      (fun rule => rule.graphRules.any fun graph =>
        graph.rootType = "Owned" ∧ graph.declared = ["USER"]) = true := by
    decide +kernel
  obtain ⟨rule, hrule, hrooted⟩ := (Option.any_eq_true _ _).1 hrooted
  obtain ⟨s, hs, hrule⟩ := Option.bind_eq_some_iff.1 hrule
  rw [toOption_eq_some_iff] at hs
  obtain ⟨graph, hgraph, hrooted⟩ := List.any_eq_true.1 hrooted
  obtain ⟨hroot, hdeclared⟩ := of_decide_eq_true hrooted
  have hwithin := Rule.mem_graphRules_iff.1 hgraph
  exact ⟨s, rule, graph, hs, hrule, hwithin, hroot, hdeclared,
    (compile_well_formed hs).1 _ _ _ hrule _ hwithin⟩

end Schema

end GraphWarden
