import GraphWarden.Proofs.Rule.Answered

/-!
# Rules that are asked unbound

For a node that is not there yet a rule is asked as it stands.  Its graph rules are then
questions about the whole graph: one is met when some stored node, of the type that the rule
itself selects from, is what it asks for (`GraphRule.isMet`).  `Rule.value` is the rule read with
that, as a combination of truth values and nothing more.

The gate does not work this value out.  It asks the rules of a connective one after the other
and stops when it knows enough; a probe stops at the first node; a rule without a condition
is asked as one for its type, and one that lacks a claim not at all.  All the same **what the
gate says is the value** (`yields_holds`), at whatever depth of negations, and where nothing
stands in its way it does say something (`prompt_holds`).
-/

namespace GraphWarden

/-- A limit leaves some elements of a list that has some, because it leaves one at least. -/
theorem isEmpty_upTo {β : Type} (limit : Option Nat) (bs : List β) :
    (upTo limit bs).isEmpty = bs.isEmpty := by
  cases limit with
  | none => rfl
  | some n =>
      have hpositive : max n 1 ≠ 0 := by omega
      rw [upTo, Bool.eq_iff_iff, List.isEmpty_iff, List.isEmpty_iff, List.take_eq_nil_iff]
      simp [hpositive]

namespace GraphRule

/-- Whether a graph rule is met for some claims: all variables that it declares have claims, and
some stored node of the type that it selects from meets its filter with the claims in it. -/
def isMet (g : Graph) (claims : Claims) (rule : GraphRule) : Bool :=
  rule.declared.all claims.has && g.toList.any fun n =>
    n.isA rule.rootType && rule.filter.all fun f => (f.bind? claims).any fun bound => bound.meets g n

variable {g : Graph} {claims : Claims} {rule : GraphRule}

/-- A rule whose filter cannot be put together is not met. -/
theorem isMet_of_bind?_eq_none (h : rule.bind? claims = none) : rule.isMet g claims = false := by
  unfold isMet
  unfold bind? at h
  by_cases hdeclared : rule.declared.all claims.has = true
  · rw [if_pos hdeclared] at h
    cases hfilter : rule.filter with
    | none => simp [hfilter] at h
    | some f =>
        rw [hfilter] at h
        have hnone : f.bind? claims = none := Option.map_eq_none_iff.1 h
        simp [hnone]
  · rw [Bool.eq_false_iff.2 hdeclared, Bool.false_and]

/-- Any other is met when some node is of the type and meets that filter. -/
theorem isMet_of_bind? {filter : Option Filter} (h : rule.bind? claims = some filter) :
    rule.isMet g claims = g.toList.any fun n =>
      n.isA rule.rootType && (filter.getD (.isType rule.rootType)).meets g n := by
  unfold isMet
  unfold bind? at h
  by_cases hdeclared : rule.declared.all claims.has = true
  · rw [if_pos hdeclared] at h
    rw [hdeclared, Bool.true_and]
    cases hfilter : rule.filter with
    | none =>
        rw [hfilter] at h
        cases h
        simp [Filter.meets]
    | some f =>
        rw [hfilter] at h
        obtain ⟨bound, hbound, rfl⟩ := Option.map_eq_some_iff.1 h
        simp [hbound]
  · rw [if_neg hdeclared] at h
    cases h

end GraphRule

namespace Rule

/-- What a rule comes to for a request, as a combination of truth values: a role rule is true
when the claims satisfy it, and a graph rule when it is met. -/
def value (g : Graph) (claims : Claims) (rule : Rule) : Bool :=
  rule.holdsWith claims (GraphRule.isMet g claims)

/-- Whether the store can say of every stored node of the type that a graph rule selects from
whether the rule covers it. -/
def DecidedAtRoots (g : Graph) (claims : Claims) (rule : Rule) : Prop :=
  ∀ part ∈ rule.graphRules, ∀ n ∈ g.toList, n.isA part.rootType = true → part.Decided g claims n

variable {t : Nat} {c : Client}

/-! ### What the gate says -/

/-- The one node that a probe looks for is there exactly when the graph rule is met. -/
theorem yields_graphHolds (rule : GraphRule) :
    (graphHolds c rule).Yields (· = rule.isMet c.store.graph c.request.claims) := by
  unfold graphHolds
  cases hbind : rule.bind? c.request.claims with
  | none => exact Job.yields_pure (GraphRule.isMet_of_bind?_eq_none hbind).symm
  | some filter =>
      refine Job.Yields.bind Client.yields_call fun hits hhits => Job.yields_pure ?_
      have hids := Graph.probe_eq (Store.of_online hhits)
      rw [hids, isEmpty_upTo, GraphRule.isMet_of_bind? hbind, Bool.eq_iff_iff]
      simp

mutual

/-- **What the gate says is the value of the rule.** -/
theorem yields_holds : (rule : Rule) →
    (rule.holds c).Yields (· = rule.value c.store.graph c.request.claims)
  | .role rule => by
      unfold holds value holdsWith
      exact Job.yields_pure rfl
  | .graph rule => by
      unfold holds value holdsWith
      exact yields_graphHolds rule
  | .combine .all rules => by
      unfold holds value holdsWith
      exact yields_holdsAll rules
  | .combine .any rules => by
      unfold holds value holdsWith
      exact yields_holdsAny rules
  | .combine .not [] => by
      unfold holds
      exact Job.yields_fail
  | .combine .not (rule :: _) => by
      unfold holds value holdsWith
      exact (yields_holds rule).bind fun b hb => Job.yields_pure (congrArg Bool.not hb)

/-- The first rule that does not hold decides. -/
theorem yields_holdsAll : (rules : List Rule) → (holdsAll c rules).Yields
    (· = allHoldWith c.request.claims (GraphRule.isMet c.store.graph c.request.claims) rules)
  | [] => by
      unfold holdsAll allHoldWith
      exact Job.yields_pure rfl
  | rule :: rules => by
      unfold holdsAll allHoldWith
      refine (yields_holds rule).bind fun b hb => ?_
      have hvalue : rule.holdsWith c.request.claims _ = b := hb.symm
      rw [hvalue]
      cases b with
      | true => exact yields_holdsAll rules
      | false => exact Job.yields_pure rfl

/-- The first rule that holds decides. -/
theorem yields_holdsAny : (rules : List Rule) → (holdsAny c rules).Yields
    (· = anyHoldsWith c.request.claims (GraphRule.isMet c.store.graph c.request.claims) rules)
  | [] => by
      unfold holdsAny anyHoldsWith
      exact Job.yields_pure rfl
  | rule :: rules => by
      unfold holdsAny anyHoldsWith
      refine (yields_holds rule).bind fun b hb => ?_
      have hvalue : rule.holdsWith c.request.claims _ = b := hb.symm
      rw [hvalue]
      cases b with
      | true => exact Job.yields_pure rfl
      | false => exact yields_holdsAny rules

end

/-! ### When the gate says something -/

/-- Where a graph rule is decided on the nodes that it selects from, its probe is answered. -/
theorem answers_graphHolds {rule : GraphRule} (honline : c.store.offline = false)
    (hlive : c.request.isLive t = true)
    (hdecided : ∀ n ∈ c.store.graph.toList, n.isA rule.rootType = true →
      rule.Decided c.store.graph c.request.claims n) : (graphHolds c rule).Answers t := by
  unfold graphHolds
  cases hbind : rule.bind? c.request.claims with
  | none => exact Job.answers_pure false
  | some filter =>
      obtain ⟨hits, hhits⟩ := answers_probe (c := c) (t := t)
        (p := ⟨rule.rootType, filter.getD (.isType rule.rootType), none, some 1⟩)
        honline hlive fun n hn hisA =>
          exists_accepts_of_decided (hdecided n hn hisA) hbind rule.rootType
      exact hhits.answers_bind (Job.answers_pure _)

mutual

/-- The gate says something when each of its probes is answered. -/
theorem answers_holds_of_probes : (rule : Rule) → rule.Negates →
    (∀ part ∈ rule.graphRules, (graphHolds c part).Answers t) → (rule.holds c).Answers t
  | .role rule, _, _ => by
      unfold holds
      exact Job.answers_pure _
  | .graph rule, _, hparts => by
      unfold holds
      exact hparts rule (by simp [graphRules])
  | .combine .all rules, hnegates, hparts => by
      unfold holds
      exact (answers_holdsAllAny_of_probes rules (by simpa [Negates] using hnegates)
        (by simpa [graphRules] using hparts)).1
  | .combine .any rules, hnegates, hparts => by
      unfold holds
      exact (answers_holdsAllAny_of_probes rules (by simpa [Negates] using hnegates)
        (by simpa [graphRules] using hparts)).2
  | .combine .not [], hnegates, _ => by simp [Negates] at hnegates
  | .combine .not (rule :: rules), hnegates, hparts => by
      unfold holds
      have hrule : rule.Negates := by
        simp only [Negates, AllNegate] at hnegates
        exact hnegates.1
      obtain ⟨b, hb⟩ := answers_holds_of_probes rule hrule fun part hpart =>
        hparts part (by simp [graphRules, graphRulesOf, hpart])
      exact hb.answers_bind (Job.answers_pure _)

/-- Joined rules are answered when every probe of a graph rule in them is.  Both connectives are
taken together, since each may stand under the other. -/
theorem answers_holdsAllAny_of_probes : (rules : List Rule) → AllNegate rules →
    (∀ part ∈ graphRulesOf rules, (graphHolds c part).Answers t) →
    (holdsAll c rules).Answers t ∧ (holdsAny c rules).Answers t
  | [], _, _ => by
      unfold holdsAll holdsAny
      exact ⟨Job.answers_pure true, Job.answers_pure false⟩
  | rule :: rules, hnegates, hparts => by
      unfold holdsAll holdsAny
      obtain ⟨b, hb⟩ := answers_holds_of_probes rule hnegates.1 fun part hpart =>
        hparts part (by simp [graphRulesOf, hpart])
      obtain ⟨hall, hany⟩ := answers_holdsAllAny_of_probes rules hnegates.2 fun part hpart =>
        hparts part (by simp [graphRulesOf, hpart])
      cases b with
      | true => exact ⟨hb.answers_bind hall, hb.answers_bind (Job.answers_pure true)⟩
      | false => exact ⟨hb.answers_bind (Job.answers_pure false), hb.answers_bind hany⟩

end

/-- **The gate says the value at once**, where the store works, the request is live and every
graph rule is decided on the nodes that it selects from. -/
theorem prompt_holds {rule : Rule} (hnegates : rule.Negates) (honline : c.store.offline = false)
    (hlive : c.request.isLive t = true)
    (hdecided : rule.DecidedAtRoots c.store.graph c.request.claims) :
    (rule.holds c).Prompt t (· = rule.value c.store.graph c.request.claims) := by
  obtain ⟨b, hb⟩ := answers_holds_of_probes rule hnegates fun part hpart =>
    answers_graphHolds honline hlive (hdecided part hpart)
  have hvalue := (yields_holds rule).of_prompt hb
  exact hvalue ▸ hb

end Rule

end GraphWarden
