import GraphWarden.Proofs.Position.Answer
import GraphWarden.Proofs.Schema.Effective

/-!
# What declared rules allow

Whether an operation is allowed on a node can be read off the definition: every rule that the
node's type or anything above it declares for the operation has to hold for the node
(`SchemaDefinition.HoldsFor`), and checking a password falls back on the rules for queries
where nothing in the hierarchy declares a password rule (`SchemaDefinition.LetsCheck`).

The compiled schema puts effective rules in the place of declared ones and decides by the one
that governs the operation.  **It allows the same** (`allows_query_iff`,
`allows_password_iff`).
-/

namespace GraphWarden

namespace SchemaDefinition

/-- Something at or above a type declares a rule for an operation. -/
def Declares (definition : SchemaDefinition) (typeName : String) (op : Operation) : Prop :=
  ∃ name, definition.AtOrAbove typeName name ∧ (definition.declared? name op).isSome = true

/-- Every rule holds for a node that its type or anything above it declares for an
operation. -/
def HoldsFor (definition : SchemaDefinition) (g : Graph) (claims : Claims) (op : Operation)
    (n : Node) : Prop :=
  ∀ name declaration rule, definition.AtOrAbove n.typeName name →
    definition.declared? name op = some declaration → Rule.compile declaration = .ok rule →
      rule.holdsWith claims (GraphRule.covers g claims n) = true

/-- The password rules of the hierarchy hold for a node, or its query rules where the hierarchy
declares no password rule. -/
def LetsCheck (definition : SchemaDefinition) (g : Graph) (claims : Claims) (n : Node) : Prop :=
  (definition.Declares n.typeName .password ∧ definition.HoldsFor g claims .password n) ∨
    (¬ definition.Declares n.typeName .password ∧ definition.HoldsFor g claims .query n)

variable {definition : SchemaDefinition} {op : Operation} {typeName : String}
  {names : List String} {rules : List Rule}

/-- A rule is among those that hold together exactly when a name at or above the type declares
it. -/
theorem Effective.mem_rules_iff (h : definition.Effective typeName op names rules) {rule : Rule} :
    rule ∈ rules ↔ ∃ name declaration, definition.AtOrAbove typeName name ∧
      definition.declared? name op = some declaration ∧ Rule.compile declaration = .ok rule := by
  constructor
  · intro hrule
    obtain ⟨name, hname, hcompiled⟩ := (partners_of_forall₂ h.compiled).2 rule hrule
    obtain ⟨declaration, hdeclared, hcompile⟩ := Option.map_eq_some_iff.1 hcompiled
    exact ⟨name, declaration, ((h.mem_iff name).1 hname).1, hdeclared, hcompile⟩
  · rintro ⟨name, declaration, hname, hdeclared, hcompile⟩
    have hmem : name ∈ names := (h.mem_iff name).2 ⟨hname, by simp [hdeclared]⟩
    obtain ⟨r, hr, hcompiled⟩ := (partners_of_forall₂ h.compiled).1 name hmem
    rw [hdeclared, Option.map_some, Option.some.injEq, hcompile] at hcompiled
    exact Except.ok.inj hcompiled ▸ hr

/-- An operation is declared somewhere in the hierarchy of a type just when there are effective
rules for it. -/
theorem Effective.declares_iff (h : definition.Effective typeName op names rules) :
    definition.Declares typeName op ↔ rules ≠ [] := by
  constructor
  · rintro ⟨name, habove, hdeclared⟩ hnone
    have hcompiled := h.compiled
    rw [hnone, List.forall₂_nil_right_iff] at hcompiled
    have hmem := (h.mem_iff name).2 ⟨habove, hdeclared⟩
    simp [hcompiled] at hmem
  · intro hsome
    obtain ⟨rule, hrule⟩ := List.exists_mem_of_ne_nil rules hsome
    obtain ⟨name, declaration, habove, hdeclared, _⟩ := h.mem_rules_iff.1 hrule
    exact ⟨name, habove, by simp [hdeclared]⟩

end SchemaDefinition

namespace Schema

namespace CompiledFrom

variable {s : Schema} {definition : SchemaDefinition} {hier : Hierarchy}
  {own : Keyed (Slots Rule)} {d : TypeDefinition} {n : Node}

/-- A type has an effective rule exactly when something in its hierarchy declares one. -/
theorem isSome_rule?_iff (h : s.CompiledFrom definition.types hier own)
    (hd : d ∈ definition.types) (hkind : d.kind ≠ .union) (op : Operation) :
    (s.rule? d.name op).isSome = true ↔ definition.Declares d.name op := by
  obtain ⟨names, rules, heffective, hrule⟩ := h.effective_rules hd hkind op
  rw [heffective.declares_iff, hrule, Option.isSome_iff_ne_none, Ne, conjunction?_eq_none_iff]

/-- The effective rule of a node's type, if there is one, holds for the node exactly when every
declared rule does. -/
theorem rule?_holds_iff (h : s.CompiledFrom definition.types hier own)
    (hd : d ∈ definition.types) (hkind : d.kind ≠ .union) (hname : d.name = n.typeName)
    (g : Graph) (claims : Claims) (op : Operation) :
    ((s.rule? n.typeName op).all fun rule =>
      rule.holdsWith claims (GraphRule.covers g claims n)) = true ↔
      definition.HoldsFor g claims op n := by
  obtain ⟨names, rules, heffective, hrule⟩ := h.effective_rules hd hkind op
  rw [hname] at heffective hrule
  have hparts : definition.HoldsFor g claims op n ↔
      ∀ r ∈ rules, r.holdsWith claims (GraphRule.covers g claims n) = true := by
    constructor
    · intro hholds r hr
      obtain ⟨name, declaration, habove, hdeclared, hcompile⟩ := heffective.mem_rules_iff.1 hr
      exact hholds name declaration r habove hdeclared hcompile
    · intro hall name declaration r habove hdeclared hcompile
      exact hall r (heffective.mem_rules_iff.2 ⟨name, declaration, habove, hdeclared, hcompile⟩)
  rw [hparts, hrule]
  cases hconjunction : conjunction? rules with
  | none =>
      rw [conjunction?_eq_none_iff.1 hconjunction]
      simp
  | some rule => exact Rule.holdsWith_conjunction hconjunction

end CompiledFrom

variable {s : Schema} {definition : SchemaDefinition} {catalog : Catalog} {g : Graph}
  {claims : Claims} {n : Node}

/-- The type of a stored node is defined, as an object type. -/
theorem exists_definition (hnext : catalog.next definition = .ok s) (hfits : g.Fits s)
    (hn : n ∈ g.toList) : ∃ hier own, s.CompiledFrom definition.types hier own ∧
      ∃ d ∈ definition.types, d.name = n.typeName ∧ d.kind ≠ .union := by
  obtain ⟨hier, own, hfrom⟩ := compiledFrom_of_next hnext
  obtain ⟨info, hinfo, hobject, _⟩ := hfits n hn
  obtain ⟨⟨d, hd, hname, hkind⟩, _⟩ := hfrom.info_of_find? hinfo
  exact ⟨hier, own, hfrom, d, hd, hname, by simp [hkind, hobject]⟩

/-- **A stored node may be seen exactly when every declared query rule holds for it.** -/
theorem allows_query_iff (hnext : catalog.next definition = .ok s) (hfits : g.Fits s)
    (hn : n ∈ g.toList) :
    s.allows g claims .query n = true ↔ definition.HoldsFor g claims .query n := by
  obtain ⟨hier, own, hfrom, d, hd, hname, hkind⟩ := exists_definition hnext hfits hn
  unfold allows
  rw [governingRule?_query]
  exact hfrom.rule?_holds_iff hd hkind hname g claims .query

/-- **A password may be checked on a stored node exactly when every declared password rule
holds for it**, or every query rule where no password rule is declared. -/
theorem allows_password_iff (hnext : catalog.next definition = .ok s) (hfits : g.Fits s)
    (hn : n ∈ g.toList) :
    s.allows g claims .password n = true ↔ definition.LetsCheck g claims n := by
  obtain ⟨hier, own, hfrom, d, hd, hname, hkind⟩ := exists_definition hnext hfits hn
  have hdeclares := hfrom.isSome_rule?_iff hd hkind .password
  rw [hname] at hdeclares
  have hpassword := hfrom.rule?_holds_iff hd hkind hname g claims .password
  have hquery := hfrom.rule?_holds_iff hd hkind hname g claims .query
  unfold SchemaDefinition.LetsCheck
  rw [← hdeclares, ← hpassword, ← hquery]
  unfold allows governingRule? passwordRule?
  cases s.rule? n.typeName .password with
  | none => simp
  | some rule => simp

end Schema

end GraphWarden
