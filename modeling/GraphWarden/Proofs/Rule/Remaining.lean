import GraphWarden.Proofs.Filter.Negation
import GraphWarden.Proofs.Rule.Cascade
import GraphWarden.Proofs.Rule.Reached

/-!
# Negations that remain

A negation is written in two ways: as a connective over rules, or in the filter of a graph rule.
Only the first is refused by a store that does not evaluate negated filters.  The second is lowered
with the rest of its rule, and whatever is put together from such a filter holds the negation too.

So without complements, a filter that is left for the store holds a negation **exactly when a graph
rule that goes into it writes one** (`negation_remains_iff`).  A graph rule goes into it
(`Rule.Contributes`) when it leaves a restriction, and so does every rule above it; all of these are
then joined, and none is dropped.
-/

namespace GraphWarden

/-! ### Templates -/

namespace Filter

/-- Asking for something along an edge makes a filter that is solid when the inner one is, and that
holds a negation just when the inner one does.  Without an inner filter it only asks for an edge.
-/
theorem solid_along (name : String) {inner : Option Filter} (h : ∀ f ∈ inner, f.Solid) :
    (along name inner).Solid ∧ (along name inner).holdsNegation = inner.any holdsNegation := by
  cases inner with
  | none => simp [along, Solid, holdsNegation]
  | some f => simpa [along, Solid, holdsNegation] using h f rfl

end Filter

namespace Pick

mutual

/-- What a selected field asks for holds the negations that are written behind it, and no part of
it is `nothing`, so that nothing is lost when the parts are joined. -/
theorem condition_of_solid : (p : Pick) → (∀ q ∈ p.everyAt, ∀ f ∈ q.filter, f.Solid) →
    (∀ f ∈ p.condition, f.Solid) ∧
      p.condition.any Filter.holdsNegation =
        p.everyAt.any fun q => q.filter.any Filter.holdsNegation
  | .field name filter picks, h => by
      by_cases hplain : (picks.isEmpty && filter.isNone) = true
      · obtain ⟨hpicks, hfilter⟩ := (Bool.and_eq_true _ _).mp hplain
        obtain rfl := List.isEmpty_iff.1 hpicks
        obtain rfl := Option.isNone_iff_eq_none.1 hfilter
        rw [condition_of_plain hplain]
        by_cases hid : name = "id"
        · simp [hid, everyAt, everyOf, Pick.filter]
        · simp [hid, everyAt, everyOf, Pick.filter, Filter.Solid, Filter.holdsNegation]
      · have hbelow : ∀ q ∈ everyOf picks, ∀ f ∈ q.filter, f.Solid :=
          fun q hq => h q (by simp [everyAt, hq])
        have hhere : ∀ f ∈ filter, f.Solid := h (.field name filter picks) (by simp [everyAt])
        obtain ⟨hpicks, hnegations⟩ := conditions_of_solid picks hbelow
        have hparts : ∀ f ∈ filter.toList ++ conditions picks, f.Solid := by
          intro f hf
          rcases List.mem_append.1 hf with hf | hf
          · exact hhere f (by simpa using hf)
          · exact hpicks f hf
        obtain ⟨hinner, hnegation⟩ := Filter.conjunction?_of_solid hparts
        obtain ⟨hwhole, hkept⟩ := Filter.solid_along name hinner
        rw [condition_of_asked hplain]
        refine ⟨by simpa [inner] using hwhole, ?_⟩
        rw [Option.any_some, inner, hkept, hnegation, List.any_append, hnegations, everyAt,
          List.any_cons]
        cases filter <;> simp [Pick.filter]

/-- The conditions of selected fields hold the negations that are written behind any of them. -/
theorem conditions_of_solid : (ps : List Pick) → (∀ q ∈ everyOf ps, ∀ f ∈ q.filter, f.Solid) →
    (∀ f ∈ conditions ps, f.Solid) ∧
      (conditions ps).any Filter.holdsNegation =
        (everyOf ps).any fun q => q.filter.any Filter.holdsNegation
  | [], _ => by simp [conditions, everyOf]
  | p :: ps, h => by
      obtain ⟨hhead, hnegation⟩ := condition_of_solid p fun q hq => h q (by simp [everyOf, hq])
      obtain ⟨htail, hnegations⟩ := conditions_of_solid ps fun q hq => h q (by simp [everyOf, hq])
      rw [conditions, everyOf]
      refine ⟨?_, ?_⟩
      · intro f hf
        rcases List.mem_append.1 hf with hf | hf
        · exact hhead f (by simpa using hf)
        · exact htail f hf
      · rw [List.any_append, List.any_append, hnegations, ← hnegation]
        cases p.condition <;> simp

end

end Pick

/-- **Lowering a template keeps the negations that are written in it.** -/
theorem Template.lowered_of_solid {t : Template} (h : ∀ f ∈ t.filters, f.Solid) :
    (∀ f ∈ t.lowered, f.Solid) ∧
      t.lowered.any Filter.holdsNegation = t.filters.any Filter.holdsNegation := by
  have hbelow : ∀ q ∈ Pick.everyOf t.picks, ∀ f ∈ q.filter, f.Solid := by
    intro q hq f hf
    refine h f (List.mem_append_right _ (List.mem_flatMap.2 ⟨q, hq, ?_⟩))
    simpa using hf
  obtain ⟨hpicks, hnegations⟩ := Pick.conditions_of_solid t.picks hbelow
  have hparts : ∀ f ∈ t.filter.toList ++ Pick.conditions t.picks, f.Solid := by
    intro f hf
    rcases List.mem_append.1 hf with hf | hf
    · exact h f (List.mem_append_left _ hf)
    · exact hpicks f hf
  obtain ⟨hwhole, hnegation⟩ := Filter.conjunction?_of_solid hparts
  refine ⟨hwhole, hnegation.trans ?_⟩
  have hwritten : ((Pick.everyOf t.picks).flatMap fun p => p.filter.toList).any
      Filter.holdsNegation = (Pick.everyOf t.picks).any fun q =>
        q.filter.any Filter.holdsNegation := by
    rw [List.any_flatMap]
    congr 1
    funext q
    cases q.filter <;> simp
  rw [List.any_append, hnegations, filters, List.any_append, everywhere, hwritten]

namespace Rule

/-! ### Texts -/

/-- A filter that is read from arguments is solid.  Arguments that are no filter leave what was
read before them. -/
theorem solid_of_filterOf {field : String} : (arguments : List (String × Value)) →
    (before after : Option Filter) → filterOf field before arguments = .ok after →
    (∀ f ∈ before, f.Solid) → ∀ f ∈ after, f.Solid
  | [], before, after, h, hbefore => by
      rw [filterOf] at h
      cases h
      exact hbefore
  | (name, v) :: rest, before, after, h, _ => by
      rw [filterOf] at h
      split at h
      · split at h
        · next filter hfilter =>
            exact solid_of_filterOf rest filter after h (Filter.solid_of_ofArgument hfilter)
        · simp at h
      · simp at h

mutual

/-- Every filter that was picked up in a selected field, or anywhere behind it, is solid. -/
theorem solid_of_pick : (s : Graphql.Selected) → (p : Pick) → pick s = .ok p →
    ∀ q ∈ p.everyAt, ∀ f ∈ q.filter, f.Solid
  | .field name arguments selections, p, h => by
      rw [pick] at h
      obtain ⟨filter, hfilter, h⟩ := exists_of_bind_eq_ok h
      obtain ⟨picks, hpicks, h⟩ := exists_of_bind_eq_ok h
      cases h
      intro q hq
      rw [Pick.everyAt] at hq
      rcases List.mem_cons.1 hq with rfl | hq
      · exact solid_of_filterOf arguments none filter hfilter (by simp)
      · exact solid_of_picksOf selections picks hpicks q hq
  | .fragment, p, h => by simp [pick] at h

/-- Every filter that was picked up in a list of selections is solid. -/
theorem solid_of_picksOf : (ss : List Graphql.Selected) → (ps : List Pick) →
    picksOf ss = .ok ps → ∀ q ∈ Pick.everyOf ps, ∀ f ∈ q.filter, f.Solid
  | [], ps, h => by
      rw [picksOf] at h
      cases h
      simp [Pick.everyOf]
  | s :: ss, ps, h => by
      rw [picksOf] at h
      obtain ⟨p, hp, h⟩ := exists_of_bind_eq_ok h
      obtain ⟨rest, hrest, h⟩ := exists_of_bind_eq_ok h
      cases h
      intro q hq
      rw [Pick.everyOf] at hq
      rcases List.mem_append.1 hq with hq | hq
      · exact solid_of_pick s p hp q hq
      · exact solid_of_picksOf ss rest hrest q hq

end

/-- The filters that are written in the template of a rule are solid. -/
theorem solid_of_templateOf {ss : List Graphql.Selected} {t : Template}
    (h : templateOf ss = .ok t) : ∀ f ∈ t.filters, f.Solid := by
  unfold templateOf at h
  split at h
  · next name arguments selections =>
    split at h
    · obtain ⟨filter, hfilter, h⟩ := exists_of_bind_eq_ok h
      obtain ⟨picks, hpicks, h⟩ := exists_of_bind_eq_ok h
      cases h
      intro f hf
      rcases List.mem_append.1 hf with hf | hf
      · exact solid_of_filterOf arguments none filter hfilter (by simp) f (by simpa using hf)
      · obtain ⟨q, hq, hin⟩ := List.mem_flatMap.1 hf
        exact solid_of_picksOf selections picks hpicks q hq f (by simpa using hin)
    · simp at h
  · simp at h

/-- **The filters that a rule's text writes are solid.** -/
theorem solid_of_ofText {s : String} {rule : GraphRule} (h : ofText s = .ok (.graph rule)) :
    ∀ f ∈ rule.template.filters, f.Solid := by
  unfold ofText at h
  simp only at h
  split at h
  · simp at h
  · split at h
    · obtain ⟨_, _, hrole⟩ := exists_of_map_eq_ok h
      simp at hrole
    · obtain ⟨graph, hgraph, hsame⟩ := exists_of_map_eq_ok h
      cases hsame
      unfold graphOfText at hgraph
      simp only at hgraph
      split at hgraph
      · simp at hgraph
      · obtain ⟨query, _, hgraph⟩ := exists_of_bind_eq_ok hgraph
        obtain ⟨template, htemplate, hgraph⟩ := exists_of_bind_eq_ok hgraph
        split at hgraph
        · simp at hgraph
        · cases hgraph
          exact solid_of_templateOf htemplate

/-! ### What is left for the store -/

variable {claims : Claims} {op : Connective} {part : GraphRule} {rule : Rule} {rules : List Rule}
  {f : Filter}

/-- A graph rule whose filter is joined to what a rule leaves for a store without complements: it
leaves a restriction, and so does every rule around it. -/
inductive Contributes (claims : Claims) (part : GraphRule) : Rule → Prop where
  | self {f : Filter} : part.visibility claims = .restricted f →
      Contributes claims part (.graph part)
  | joined {op : Connective} {rules : List Rule} {rule : Rule} {f : Filter} :
      (combine op rules).visibility false claims = .ok (.restricted f) → rule ∈ rules →
      Contributes claims part rule → Contributes claims part (.combine op rules)

theorem mem_restrictions_iff {v : Visibility} : f ∈ v.restrictions ↔ v = .restricted f := by
  cases v <;> simp [Visibility.restrictions, eq_comm]

/-- What holds of some filter of an outcome, when there is an outcome, holds of the filter of a
restriction. -/
theorem exists_of_any_restrictions {x : Except AccessProblem Visibility} {p : Filter → Bool}
    (h : (x.toOption.any fun v => v.restrictions.any p) = true) :
    ∃ f, x = .ok (.restricted f) ∧ p f = true := by
  obtain ⟨v, hv, h⟩ := (Option.any_eq_true _ _).1 h
  obtain ⟨f, hf, hp⟩ := List.any_eq_true.1 h
  exact ⟨f, (toOption_eq_some_iff.1 hv).trans (by rw [mem_restrictions_iff.1 hf]), hp⟩

/-- A part that goes into a rule leaves a restriction of the whole, and that also on a store that
does not evaluate negated filters.  So there is a filter that holds what the part wrote. -/
theorem Contributes.restricted (h : Contributes claims part rule) :
    ∃ f, rule.visibility false claims = .ok (.restricted f) := by
  cases h with
  | self h => exact ⟨_, by rw [visibility, h]⟩
  | joined h _ _ => exact ⟨_, h⟩

/-- Rules under a connective leave a restriction that holds the negations of all restrictions that
they leave one by one: none of them is passed over. -/
theorem jointly_of_solid {parts : List Filter}
    (h : jointly false claims op parts rules = .ok (.restricted f))
    (hparts : ∀ g ∈ parts, g.Solid)
    (hrules : ∀ r ∈ rules, ∀ g, r.visibility false claims = .ok (.restricted g) → g.Solid) :
    f.Solid ∧ (f.holdsNegation = true ↔
      (∃ g ∈ parts, g.holdsNegation = true) ∨
        ∃ r ∈ rules, ∃ g, r.visibility false claims = .ok (.restricted g) ∧
          g.holdsNegation = true) := by
  induction rules generalizing parts with
  | nil =>
      have hne : parts ≠ [] := by
        rintro rfl
        cases op <;> simp [jointly, allVisible, anyVisible, Visibility.ofAll, Visibility.ofAny] at h
      obtain ⟨first, rest, rfl⟩ := List.exists_cons_of_ne_nil hne
      cases op with
      | any =>
          simp only [jointly, anyVisible, Visibility.ofAny, Except.ok.injEq,
            Visibility.restricted.injEq] at h
          obtain ⟨hsolid, hnegation⟩ := Filter.orAll_of_solid hne hparts
          subst h
          exact ⟨hsolid, by rw [hnegation]; simp⟩
      | all | not =>
          simp only [jointly, allVisible, Visibility.ofAll, Except.ok.injEq,
            Visibility.restricted.injEq] at h
          obtain ⟨hsolid, hnegation⟩ := Filter.andAll_of_solid hne hparts
          subst h
          exact ⟨hsolid, by rw [hnegation]; simp⟩
  | cons r rules ih =>
      cases hr : r.visibility false claims with
      | error problem =>
          rw [jointly_cons_of_error hr] at h
          simp at h
      | ok v =>
          have hv : v ≠ op.decisive := by
            rintro rfl
            rw [jointly_cons_of_decisive hr] at h
            cases op <;> simp [Connective.decisive] at h
          rw [jointly_cons_of_ok hr hv] at h
          have hmore : ∀ g ∈ parts ++ v.restrictions, g.Solid := by
            intro g hg
            rcases List.mem_append.1 hg with hg | hg
            · exact hparts g hg
            · exact hrules r List.mem_cons_self g (hr.trans (by rw [mem_restrictions_iff.1 hg]))
          obtain ⟨hsolid, hnegation⟩ :=
            ih h hmore fun r' hr' => hrules r' (List.mem_cons_of_mem _ hr')
          refine ⟨hsolid, hnegation.trans ?_⟩
          have hhead : (∃ g ∈ parts ++ v.restrictions, g.holdsNegation = true) ↔
              (∃ g ∈ parts, g.holdsNegation = true) ∨
                ∃ g, r.visibility false claims = .ok (.restricted g) ∧
                  g.holdsNegation = true := by
            simp only [List.mem_append, mem_restrictions_iff, or_and_right, exists_or, hr,
              Except.ok.injEq]
          rw [hhead, or_assoc]
          simp only [List.mem_cons, exists_eq_or_imp]

/-- A negation leaves no restriction to a store without complements. -/
theorem not_visibility_ne_restricted :
    (combine .not rules).visibility false claims ≠ .ok (.restricted f) := by
  intro h
  cases rules with
  | nil => simp [visibility] at h
  | cons rule rest =>
      rw [visibility] at h
      cases hrule : rule.visibility false claims with
      | error problem => simp [hrule, bind, Except.bind] at h
      | ok v => cases v <;> simp [hrule, Visibility.negated, bind, Except.bind] at h

/-- What a graph rule leaves holds the negations that its template writes. -/
theorem graph_visibility_of_solid (hsolid : ∀ written ∈ part.template.filters, written.Solid)
    (h : part.visibility claims = .restricted f) :
    f.Solid ∧ f.holdsNegation = part.template.filters.any Filter.holdsNegation := by
  obtain ⟨hlowered, hnegation⟩ := Template.lowered_of_solid hsolid
  unfold GraphRule.visibility GraphRule.bind? at h
  split at h
  · simp at h
  · simp at h
  · next bound hbound =>
    obtain rfl := Visibility.restricted.inj h
    split at hbound
    · split at hbound
      · simp at hbound
      · next lowered hfilter =>
        obtain ⟨g, hg, hsame⟩ := Option.map_eq_some_iff.1 hbound
        obtain rfl := Option.some.inj hsame
        have hwhole : part.template.lowered = some lowered := hfilter
        rw [hwhole] at hlowered hnegation
        obtain ⟨hgSolid, hgNegation⟩ := Filter.bind?_of_solid lowered g hg (hlowered lowered rfl)
        exact ⟨hgSolid, hgNegation.trans (by simpa using hnegation)⟩
    · simp at hbound

/-- A rule of solid filters leaves a restriction that holds a negation exactly when a contributing
graph rule writes one. -/
theorem visibility_of_solid : (rule : Rule) →
    (∀ part ∈ rule.graphRules, ∀ written ∈ part.template.filters, written.Solid) →
    ∀ f, rule.visibility false claims = .ok (.restricted f) →
      f.Solid ∧ (f.holdsNegation = true ↔ ∃ part, Contributes claims part rule ∧
        ∃ written ∈ part.template.filters, written.holdsNegation = true)
  | .role rule, _, f, h => by
      rw [visibility] at h
      split at h <;> simp at h
  | .graph part, hsolid, f, h => by
      rw [visibility] at h
      have hleft := Except.ok.inj h
      obtain ⟨hf, hnegation⟩ :=
        graph_visibility_of_solid (hsolid part (by simp [graphRules])) hleft
      refine ⟨hf, ?_⟩
      rw [hnegation, List.any_eq_true]
      constructor
      · intro hwritten
        exact ⟨part, .self hleft, hwritten⟩
      · rintro ⟨_, hpart, hwritten⟩
        cases hpart
        exact hwritten
  | .combine op rules, hsolid, f, h => by
      by_cases hop : op = .not
      · subst hop
        exact absurd h not_visibility_ne_restricted
      · have hrules : ∀ r ∈ rules, ∀ g, r.visibility false claims = .ok (.restricted g) →
            g.Solid ∧ (g.holdsNegation = true ↔ ∃ part, Contributes claims part r ∧
              ∃ written ∈ part.template.filters, written.holdsNegation = true) := by
          intro r hr g hg
          refine visibility_of_solid r (fun part hpart => hsolid part ?_) g hg
          rw [graphRules]
          exact mem_graphRulesOf_iff.2 ⟨r, hr, hpart⟩
        have hjoint := h
        rw [visibility_combine hop] at hjoint
        obtain ⟨hf, hnegation⟩ :=
          jointly_of_solid hjoint (by simp) fun r hr g hg => (hrules r hr g hg).1
        refine ⟨hf, hnegation.trans ?_⟩
        constructor
        · rintro (⟨g, hg, _⟩ | ⟨r, hr, g, hg, hneg⟩)
          · simp at hg
          · obtain ⟨part, hpart, hwritten⟩ := (hrules r hr g hg).2.1 hneg
            exact ⟨part, .joined h hr hpart, hwritten⟩
        · rintro ⟨part, hpart, hwritten⟩
          cases hpart with
          | joined _ hr hpart =>
              obtain ⟨g, hg⟩ := hpart.restricted
              exact Or.inr ⟨_, hr, g, hg, (hrules _ hr g hg).2.2 ⟨part, hpart, hwritten⟩⟩

/-- **What is left for a store without complements holds a negation exactly when a graph rule that
contributes to it writes one.**  The negations of rules never remain. -/
theorem negation_remains_iff {d : Declaration} (h : compile d = .ok rule)
    (hleft : rule.visibility false claims = .ok (.restricted f)) :
    f.holdsNegation = true ↔ ∃ part, Contributes claims part rule ∧
      ∃ written ∈ part.template.filters, written.holdsNegation = true := by
  refine (visibility_of_solid rule ?_ f hleft).2
  intro part hpart
  obtain ⟨s, hs⟩ := exists_text_of_compile d rule h hpart
  exact solid_of_ofText hs

/-- The tasks that are not done. -/
def undone : Declaration :=
  .rule ("query \x7b queryTask(filter: \x7b not: \x7b done: \x7b eq: true \x7d \x7d \x7d) " ++
    "\x7b id \x7d \x7d")

/-- A negation in a filter is left for a store that does not evaluate negations. -/
theorem undone_leaves_negation :
    ∃ rule f, compile undone = .ok rule ∧
      rule.visibility false Claims.none = .ok (.restricted f) ∧ f.holdsNegation = true := by
  have hcheck : ((compile undone).toOption.any fun rule =>
      (rule.visibility false Claims.none).toOption.any fun v =>
        v.restrictions.any Filter.holdsNegation) = true := by
    decide +kernel
  obtain ⟨rule, hrule, hcheck⟩ := (Option.any_eq_true _ _).1 hcheck
  obtain ⟨f, hf, hnegation⟩ := exists_of_any_restrictions hcheck
  exact ⟨rule, f, toOption_eq_some_iff.1 hrule, hf, hnegation⟩

/-- The tasks that somebody else owns, and those that are done. -/
def foreignOrDone : Declaration :=
  .any [.rule ("query($ME: ID) \x7b queryTask(filter: \x7b not: \x7b owner: \x7b eq: $ME \x7d " ++
      "\x7d \x7d) \x7b id \x7d \x7d"),
    .rule "query \x7b queryTask(filter: \x7b done: \x7b eq: true \x7d \x7d) \x7b id \x7d \x7d"]

def ofAmy : Claims :=
  Claims.none.claiming "ME" (.text "amy")

/-- The negation contributes when its variable is claimed; otherwise its rule leaves nothing. -/
theorem foreignOrDone_negation_of_amy :
    ∃ rule, compile foreignOrDone = .ok rule ∧
      (∃ part, Contributes ofAmy part rule ∧
        ∃ written ∈ part.template.filters, written.holdsNegation = true) ∧
      ¬ ∃ part, Contributes Claims.none part rule ∧
        ∃ written ∈ part.template.filters, written.holdsNegation = true := by
  have hcheck : ((compile foreignOrDone).toOption.any fun rule =>
      ((rule.visibility false ofAmy).toOption.any fun v =>
          v.restrictions.any Filter.holdsNegation) &&
        (rule.visibility false Claims.none).toOption.any fun v =>
          v.restrictions.any fun f => !f.holdsNegation) = true := by
    decide +kernel
  obtain ⟨rule, hrule, hcheck⟩ := (Option.any_eq_true _ _).1 hcheck
  rw [toOption_eq_some_iff] at hrule
  obtain ⟨hamy, hothers⟩ := (Bool.and_eq_true _ _).mp hcheck
  obtain ⟨f, hf, hnegation⟩ := exists_of_any_restrictions hamy
  obtain ⟨g, hg, hnone⟩ := exists_of_any_restrictions hothers
  refine ⟨rule, hrule, (negation_remains_iff hrule hf).1 hnegation, ?_⟩
  intro hwritten
  have hsome := (negation_remains_iff hrule hg).2 hwritten
  simp [hsome] at hnone

end Rule

end GraphWarden
