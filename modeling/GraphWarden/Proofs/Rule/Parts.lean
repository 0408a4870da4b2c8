import GraphWarden.Proofs.Rule.Definite

/-!
# The parts of rules

What evaluating a rule relies on can be said of each part of it alone (`Rule.Formed`): a
negation has one rule under it and the other connectives have at least one, and a graph rule
uses no variable that it does not declare.  **Every part of a declared rule is such**
(`formed_of_compile`), by induction on the declaration; in particular such a rule has
something to negate wherever it negates (`negates_of_compile`).
-/

namespace GraphWarden

/-- Every variable of the rule's filter is among those that the rule declares. -/
def GraphRule.Closed (rule : GraphRule) : Prop :=
  ∀ filter, rule.filter = some filter → ∀ name ∈ filter.occurrences, name ∈ rule.declared

namespace Rule

/-- A part of a rule: the rule itself, or a part of a rule that it combines. -/
inductive Within (part : Rule) : Rule → Prop where
  | self : Within part part
  | joined {op : Connective} {rules : List Rule} {rule : Rule} :
      rule ∈ rules → Within part rule → Within part (.combine op rules)

/-- What each part of a rule has to be, whatever stands under it. -/
def Formed : Rule → Prop
  | .graph rule => rule.Closed
  | .role _ => True
  | .combine .not rules => rules.length = 1
  | .combine .all rules => rules ≠ []
  | .combine .any rules => rules ≠ []

/-- The graph rules of several rules are those of each of them. -/
theorem mem_graphRulesOf_iff {part : GraphRule} {rules : List Rule} :
    part ∈ graphRulesOf rules ↔ ∃ rule ∈ rules, part ∈ rule.graphRules := by
  induction rules with
  | nil => simp [graphRulesOf]
  | cons r rules ih => simp [graphRulesOf, ih]

/-- A graph rule that is a part of a rule is collected from it. -/
theorem Within.mem_graphRules {part : GraphRule} {rule : Rule} (h : Within (.graph part) rule) :
    part ∈ rule.graphRules := by
  induction h with
  | self => simp [graphRules]
  | joined hrule _ ih =>
      rw [graphRules, mem_graphRulesOf_iff]
      exact ⟨_, hrule, ih⟩

/-- Whatever graph rule is collected from a rule is a part of it.  By recursion on the rule, since
the way down to a part is not kept when graph rules are collected. -/
theorem within_of_mem_graphRules {part : GraphRule} : (rule : Rule) → part ∈ rule.graphRules →
    Within (.graph part) rule
  | .graph _, h => by
      obtain rfl := List.mem_singleton.1 (by simpa [graphRules] using h)
      exact .self
  | .role _, h => by simp [graphRules] at h
  | .combine op rules, h => by
      rw [graphRules, mem_graphRulesOf_iff] at h
      obtain ⟨rule, hrule, hpart⟩ := h
      exact .joined hrule (within_of_mem_graphRules rule hpart)

/-- The graph rules among the parts of a rule are those that are collected from it. -/
theorem mem_graphRules_iff {part : GraphRule} {rule : Rule} :
    part ∈ rule.graphRules ↔ Within (.graph part) rule :=
  ⟨within_of_mem_graphRules rule, Within.mem_graphRules⟩

/-- A rule whose negations each have one rule under them negates something. -/
theorem negates_of_formed : (rule : Rule) → (∀ part, Within part rule → part.Formed) →
    rule.Negates
  | .graph _, _ => by simp [Negates]
  | .role _, _ => by simp [Negates]
  | .combine op rules, h => by
      have hrules : ∀ rule ∈ rules, rule.Negates := fun rule hrule =>
        negates_of_formed rule fun part hpart => h part (.joined hrule hpart)
      have hself : (combine op rules).Formed := h _ .self
      cases op with
      | all => simpa [Negates] using allNegate_iff.2 hrules
      | any => simpa [Negates] using allNegate_iff.2 hrules
      | not =>
          obtain ⟨rule, rfl⟩ := List.length_eq_one_iff.1 hself
          simpa [Negates] using allNegate_iff.2 hrules

/-! ### Declared rules -/

/-- A text is no rule when its query uses a variable that it does not declare. -/
theorem closed_of_graphOfText {cs : List Char} {rule : GraphRule} (h : graphOfText cs = .ok rule) :
    rule.Closed := by
  unfold graphOfText at h
  simp only at h
  split at h
  · simp at h
  · next definitions _ =>
      cases hquery : queryOf definitions with
      | error flaw => simp [hquery, bind, Except.bind] at h
      | ok query =>
          cases htemplate : templateOf query.2 with
          | error flaw => simp [hquery, htemplate, bind, Except.bind] at h
          | ok template =>
              simp only [hquery, htemplate, bind, Except.bind] at h
              split at h
              · simp at h
              · next hdeclared =>
                  cases h
                  intro filter hfilter name hname
                  have hnames : template.variableNames = filter.variableNames := by
                    rw [Template.variableNames, show template.lowered = some filter from hfilter]
                    rfl
                  have hmem : name ∈ template.variableNames := by
                    rw [hnames, Filter.variableNames, Names.mem_distinct]
                    exact hname
                  simpa using List.find?_eq_none.1 hdeclared name hmem

/-- A rule that was read from a text has one part, which is a role rule or a graph rule without
undeclared variables. -/
theorem formed_of_ofText {s : String} {rule : Rule} (h : ofText s = .ok rule) :
    ∀ part, Within part rule → part.Formed := by
  intro part hpart
  unfold ofText at h
  simp only at h
  split at h
  · simp at h
  · split at h
    · obtain ⟨role, _, rfl⟩ := exists_of_map_eq_ok h
      cases hpart
      trivial
    · obtain ⟨graph, hgraph, rfl⟩ := exists_of_map_eq_ok h
      cases hpart
      exact closed_of_graphOfText hgraph

/-- Several declarations compile when each one does, to the rules that they make one by one. -/
theorem compileAll_cons_eq_ok_iff {d : Declaration} {ds : List Declaration} {rules : List Rule} :
    compileAll (d :: ds) = .ok rules ↔
      ∃ rule rest, compile d = .ok rule ∧ compileAll ds = .ok rest ∧ rules = rule :: rest := by
  rw [compileAll]
  cases compile d with
  | error flaw => simp [bind, Except.bind]
  | ok rule =>
      cases compileAll ds with
      | error flaw => simp [bind, Except.bind]
      | ok rest => simp [bind, Except.bind, eq_comm]

/-- The parts of a combination are formed when the combination is and those of its rules
are. -/
theorem formed_combine {op : Connective} {rules : List Rule} (hself : (combine op rules).Formed)
    (hrules : ∀ rule ∈ rules, ∀ part, Within part rule → part.Formed) :
    ∀ part, Within part (.combine op rules) → part.Formed := by
  intro part hpart
  cases hpart with
  | self => exact hself
  | joined hrule hpart => exact hrules _ hrule part hpart

mutual

/-- **Every part of a declared rule is formed.**  A connective over no declarations is refused, and
so is a text in which a variable is used that it does not declare. -/
theorem formed_of_compile : (d : Declaration) → (rule : Rule) → compile d = .ok rule →
    ∀ part, Within part rule → part.Formed
  | .rule text, rule, h => by
      rw [compile] at h
      exact formed_of_ofText h
  | .all [], rule, h => by simp [compile] at h
  | .any [], rule, h => by simp [compile] at h
  | .all (d :: ds), rule, h => by
      rw [compile] at h
      · obtain ⟨rules, hrules, rfl⟩ := exists_of_map_eq_ok h
        obtain ⟨first, rest, _, _, hcons⟩ := compileAll_cons_eq_ok_iff.1 hrules
        have hself : (combine .all rules).Formed := by simp [Formed, hcons]
        exact formed_combine hself (formed_of_compileAll (d :: ds) rules hrules)
      · simp
  | .any (d :: ds), rule, h => by
      rw [compile] at h
      · obtain ⟨rules, hrules, rfl⟩ := exists_of_map_eq_ok h
        obtain ⟨first, rest, _, _, hcons⟩ := compileAll_cons_eq_ok_iff.1 hrules
        have hself : (combine .any rules).Formed := by simp [Formed, hcons]
        exact formed_combine hself (formed_of_compileAll (d :: ds) rules hrules)
      · simp
  | .not d, rule, h => by
      rw [compile] at h
      obtain ⟨inner, hinner, rfl⟩ := exists_of_map_eq_ok h
      have hself : (combine .not [inner]).Formed := rfl
      refine formed_combine hself fun r hr => ?_
      obtain rfl := List.mem_singleton.1 hr
      exact formed_of_compile d r hinner

/-- Every part of a rule that is compiled among others is formed, as `formed_of_compile` says of a
single rule. -/
theorem formed_of_compileAll : (ds : List Declaration) → (rules : List Rule) →
    compileAll ds = .ok rules → ∀ rule ∈ rules, ∀ part, Within part rule → part.Formed
  | [], rules, h => by
      rw [compileAll] at h
      cases h
      simp
  | d :: ds, rules, h => by
      obtain ⟨first, rest, hfirst, hrest, rfl⟩ := compileAll_cons_eq_ok_iff.1 h
      intro rule hrule
      rcases List.mem_cons.1 hrule with rfl | hrule
      · exact formed_of_compile d rule hfirst
      · exact formed_of_compileAll ds rest hrest rule hrule

end

mutual

/-- Each graph rule in a declared rule is what a text writes.  By recursion over the declaration,
where only a text makes a graph rule and the connectives pass on what stands below them. -/
theorem exists_text_of_compile {part : GraphRule} : (d : Declaration) → (rule : Rule) →
    compile d = .ok rule → part ∈ rule.graphRules → ∃ s, ofText s = .ok (.graph part)
  | .rule text, rule, h, hpart => by
      rw [compile] at h
      cases rule with
      | graph graph =>
          obtain rfl := List.mem_singleton.1 (by simpa [graphRules] using hpart)
          exact ⟨text, h⟩
      | role role => simp [graphRules] at hpart
      | combine op rules =>
          unfold ofText at h
          simp only at h
          split at h
          · simp at h
          · split at h
            · obtain ⟨_, _, hrole⟩ := exists_of_map_eq_ok h
              simp at hrole
            · obtain ⟨_, _, hgraph⟩ := exists_of_map_eq_ok h
              simp at hgraph
  | .all [], rule, h, _ => by simp [compile] at h
  | .any [], rule, h, _ => by simp [compile] at h
  | .all (d :: ds), rule, h, hpart => by
      rw [compile] at h
      · obtain ⟨rules, hrules, rfl⟩ := exists_of_map_eq_ok h
        exact exists_text_of_compileAll (d :: ds) rules hrules (by simpa [graphRules] using hpart)
      · simp
  | .any (d :: ds), rule, h, hpart => by
      rw [compile] at h
      · obtain ⟨rules, hrules, rfl⟩ := exists_of_map_eq_ok h
        exact exists_text_of_compileAll (d :: ds) rules hrules (by simpa [graphRules] using hpart)
      · simp
  | .not d, rule, h, hpart => by
      rw [compile] at h
      obtain ⟨inner, hinner, rfl⟩ := exists_of_map_eq_ok h
      exact exists_text_of_compile d inner hinner (by simpa [graphRules, graphRulesOf] using hpart)

/-- A graph rule under several declared rules was read from a text that one of them declares. -/
theorem exists_text_of_compileAll {part : GraphRule} : (ds : List Declaration) →
    (rules : List Rule) → compileAll ds = .ok rules → part ∈ graphRulesOf rules →
    ∃ s, ofText s = .ok (.graph part)
  | [], rules, h, hpart => by
      rw [compileAll] at h
      cases h
      simp [graphRulesOf] at hpart
  | d :: ds, rules, h, hpart => by
      obtain ⟨first, rest, hfirst, hrest, rfl⟩ := compileAll_cons_eq_ok_iff.1 h
      rw [graphRulesOf] at hpart
      rcases List.mem_append.1 hpart with hpart | hpart
      · exact exists_text_of_compile d first hfirst hpart
      · exact exists_text_of_compileAll ds rest hrest hpart

end

/-- A rule that was declared negates something wherever it negates. -/
theorem negates_of_compile {d : Declaration} {rule : Rule} (h : compile d = .ok rule) :
    rule.Negates :=
  negates_of_formed rule (formed_of_compile d rule h)

end Rule

end GraphWarden
