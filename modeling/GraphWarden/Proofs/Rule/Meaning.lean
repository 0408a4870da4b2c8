import GraphWarden.Proofs.Filter.Verdict
import GraphWarden.Visibility

/-!
# What a rule means for a node

A rule is a Boolean combination of role rules, which the claims decide, and graph
rules, which select nodes.  `Rule.holdsWith` is that combination and nothing more:
it asks a given predicate about the graph rules and looks at neither filters nor
stores.

What a rule leaves visible is worked out quite differently: branches are dropped as
soon as claims decide them, and the filters of the rest are put together into one.
The outcome is right all the same, under every reading of filters under which the
filters of the single graph rules do not fail (`visibility_read`).  In particular

* `meets_of_visibility` — the outcome holds for exactly the nodes for which the rule
  holds;
* `verdict_of_visibility` — a store that can evaluate the filter of each graph rule
  by itself can evaluate the outcome.
-/

namespace GraphWarden

/-- What a reading says of a visibility. -/
def Visibility.read (v : Filter → Option Bool) : Visibility → Option Bool
  | unrestricted => some true
  | denied => some false
  | restricted f => v f

/-- Whether a node is visible. -/
def Visibility.meets (g : Graph) (n : Node) (v : Visibility) : Bool :=
  v.toFilter.all fun f => f.meets g n

/-- Read by the filters that a node meets, an outcome says whether the node meets it. -/
theorem Visibility.read_meets (g : Graph) (n : Node) (v : Visibility) :
    v.read (fun f => some (f.meets g n)) = some (v.meets g n) := by
  cases v <;> simp [read, Visibility.meets, toFilter, Filter.meets]

namespace GraphRule

/-- What a reading says of a graph rule for some claims; a rule that lacks a claim or
that fails says no. -/
def read (v : Filter → Option Bool) (claims : Claims) (rule : GraphRule) : Bool :=
  (rule.bind? claims).any fun f => f.all fun f => (v f).getD false

/-- Whether a graph rule covers a node: each variable that it declares has a claim, and
the node meets its filter. -/
def covers (g : Graph) (claims : Claims) (n : Node) (rule : GraphRule) : Bool :=
  (rule.bind? claims).any fun f => f.all fun f => f.meets g n

/-- Whether the store can say of a node whether the rule covers it. -/
def Decided (g : Graph) (claims : Claims) (n : Node) (rule : GraphRule) : Prop :=
  ∀ f, rule.bind? claims = some (some f) → ∃ b, f.accepts g n = .ok b

/-- Where every filter that a rule may be bound to can be evaluated on a node, the rule is decided
there. -/
theorem decided_of_all {g : Graph} {claims : Claims} {n : Node} {rule : GraphRule}
    (h : ((rule.bind? claims).all fun f => f.all fun f => (f.accepts g n).isOk) = true) :
    rule.Decided g claims n := by
  intro f hf
  rw [hf] at h
  exact exists_of_isOk h

/-- For a decided rule, the filter it is bound to has a verdict. -/
theorem Decided.isSome {g : Graph} {claims : Claims} {n : Node} {rule : GraphRule}
    (h : rule.Decided g claims n) {f : Filter} (hf : rule.bind? claims = some (some f)) :
    (Filter.verdict g n f).isSome := by
  obtain ⟨b, hb⟩ := h f hf
  simp [Filter.verdict, hb, Except.toOption]

/-- The verdict on a decided rule is whether the rule covers the node.  Without claims to bind it,
it covers nothing, and without a filter everything. -/
theorem read_verdict {g : Graph} {claims : Claims} {n : Node} {rule : GraphRule}
    (h : rule.Decided g claims n) :
    rule.read (Filter.verdict g n) claims = rule.covers g claims n := by
  unfold read covers
  cases hbind : rule.bind? claims with
  | none => rfl
  | some filter =>
      cases filter with
      | none => rfl
      | some f =>
          obtain ⟨b, hb⟩ := Option.isSome_iff_exists.1 (h.isSome hbind)
          simp [hb, Filter.meets_of_verdict hb]

end GraphRule

namespace Rule

mutual

/-- Whether a rule holds, where `leaf` tells which graph rules do.  A negation of
nothing does not hold. -/
def holdsWith (claims : Claims) (leaf : GraphRule → Bool) : Rule → Bool
  | .role rule => rule.holds claims
  | .graph rule => leaf rule
  | .combine .all rules => allHoldWith claims leaf rules
  | .combine .any rules => anyHoldsWith claims leaf rules
  | .combine .not [] => false
  | .combine .not (rule :: _) => !holdsWith claims leaf rule

def allHoldWith (claims : Claims) (leaf : GraphRule → Bool) : List Rule → Bool
  | [] => true
  | r :: rs => holdsWith claims leaf r && allHoldWith claims leaf rs

def anyHoldsWith (claims : Claims) (leaf : GraphRule → Bool) : List Rule → Bool
  | [] => false
  | r :: rs => holdsWith claims leaf r || anyHoldsWith claims leaf rs

end

mutual

/-- Only the graph rules inside a rule are asked about. -/
theorem holdsWith_congr (claims : Claims) {leaf leaf' : GraphRule → Bool} : (rule : Rule) →
    (∀ r ∈ rule.graphRules, leaf r = leaf' r) →
    rule.holdsWith claims leaf = rule.holdsWith claims leaf'
  | .role rule, _ => by rw [holdsWith, holdsWith]
  | .graph rule, h => by
      rw [holdsWith, holdsWith]
      exact h rule (by simp [graphRules])
  | .combine .all rules, h => by
      rw [holdsWith, holdsWith]
      exact (holdWith_congr claims rules (by simpa [graphRules] using h)).1
  | .combine .any rules, h => by
      rw [holdsWith, holdsWith]
      exact (holdWith_congr claims rules (by simpa [graphRules] using h)).2
  | .combine .not [], _ => by rw [holdsWith, holdsWith]
  | .combine .not (rule :: rules), h => by
      rw [holdsWith, holdsWith, holdsWith_congr claims rule fun r hr => h r (by
        simp [graphRules, graphRulesOf, hr])]

/-- All that `allHoldWith` and `anyHoldsWith` ask of a predicate is what it says of the graph rules
below.  The two connectives are shown together because each may stand below the other. -/
theorem holdWith_congr (claims : Claims) {leaf leaf' : GraphRule → Bool} : (rules : List Rule) →
    (∀ r ∈ graphRulesOf rules, leaf r = leaf' r) →
    allHoldWith claims leaf rules = allHoldWith claims leaf' rules ∧
      anyHoldsWith claims leaf rules = anyHoldsWith claims leaf' rules
  | [], _ => ⟨rfl, rfl⟩
  | rule :: rules, h => by
      have hhead := holdsWith_congr claims rule fun r hr => h r (by simp [graphRulesOf, hr])
      have htail := holdWith_congr claims rules fun r hr => h r (by simp [graphRulesOf, hr])
      simp only [allHoldWith, anyHoldsWith, hhead, htail, and_self]

end

section Outcome

variable {v : Filter → Option Bool} {complement : Bool} {claims : Claims}

/-- A negated outcome reads as the opposite.  Negation of a restriction is a negated filter, and of
the other two outcomes the other one. -/
theorem read_negated (hv : Filter.Reading v) {before after : Visibility} {b : Bool}
    (hb : before.read v = some b) (h : before.negated complement = .ok after) :
    after.read v = some (!b) := by
  cases before with
  | unrestricted | denied =>
      cases h
      cases hb
      rfl
  | restricted f =>
      cases complement with
      | false => simp [Visibility.negated] at h
      | true =>
          cases h
          have hf : v f = some b := hb
          simp [Visibility.read, hv.not, hf]

/-- A conjunction of parts, each of which is read in turn, reads as their conjunction. -/
theorem read_ofAll (hv : Filter.Reading v) {parts : List Filter} {b : Bool}
    (hb : Filter.inTurn v false parts = some b) : (Visibility.ofAll parts).read v = some b := by
  cases parts with
  | nil => exact hb
  | cons f fs => exact hv.andAll hb

/-- A disjunction of parts reads as the parts in turn, up to the first that holds. -/
theorem read_ofAny (hv : Filter.Reading v) (parts : List Filter) :
    (Visibility.ofAny parts).read v = Filter.inTurn v true parts := by
  cases parts with
  | nil => rfl
  | cons f fs => exact hv.orAll _

mutual

/-- **An outcome is read like the rule**, when the filters of its graph rules do not
fail. -/
theorem visibility_read (hv : Filter.Reading v) : (rule : Rule) → (out : Visibility) →
    (∀ r ∈ rule.graphRules, ∀ f, r.bind? claims = some (some f) → (v f).isSome) →
    rule.visibility complement claims = .ok out →
    out.read v = some (rule.holdsWith claims (GraphRule.read v claims))
  | .role rule, out, _, h => by
      rw [visibility] at h
      cases h
      rw [holdsWith]
      cases rule.holds claims <;> rfl
  | .graph rule, out, hsome, h => by
      rw [visibility] at h
      cases h
      rw [holdsWith, GraphRule.visibility, GraphRule.read]
      cases hbind : rule.bind? claims with
      | none => rfl
      | some filter =>
          cases filter with
          | none => rfl
          | some f =>
              obtain ⟨b, hb⟩ := Option.isSome_iff_exists.1
                (hsome rule (by simp [graphRules]) f hbind)
              simp [Visibility.read, hb]
  | .combine .all rules, out, hsome, h => by
      rw [visibility] at h
      rw [holdsWith, allVisible_read hv rules [] true out (by simpa [graphRules] using hsome)
        (by simp [Filter.inTurn]) h, Bool.true_and]
  | .combine .any rules, out, hsome, h => by
      rw [visibility] at h
      rw [holdsWith, anyVisible_read hv rules [] false out (by simpa [graphRules] using hsome)
        (by simp [Filter.inTurn]) h, Bool.false_or]
  | .combine .not [], out, _, h => by simp [visibility] at h
  | .combine .not (rule :: rules), out, hsome, h => by
      rw [visibility] at h
      cases hinner : rule.visibility complement claims with
      | error problem => simp [hinner, bind, Except.bind] at h
      | ok inner =>
          rw [holdsWith]
          refine read_negated hv (visibility_read hv rule inner ?_ hinner)
            (by simpa [hinner, bind, Except.bind] using h)
          intro r hr
          exact hsome r (by simp [graphRules, graphRulesOf, hr])

/-- Parts that were found so far are read before the rules that are left.  By recursion over the
rules: one that leaves a restriction moves it behind the parts, and one that denies ends the
conjunction, whose parts are then not looked at. -/
theorem allVisible_read (hv : Filter.Reading v) : (rules : List Rule) → (parts : List Filter) →
    (b : Bool) → (out : Visibility) →
    (∀ r ∈ graphRulesOf rules, ∀ f, r.bind? claims = some (some f) → (v f).isSome) →
    Filter.inTurn v false parts = some b →
    allVisible complement claims parts rules = .ok out →
    out.read v = some (b && allHoldWith claims (GraphRule.read v claims) rules)
  | [], parts, b, out, _, hb, h => by
      rw [allVisible] at h
      cases h
      rw [read_ofAll hv hb, allHoldWith, Bool.and_true]
  | rule :: rules, parts, b, out, hsome, hb, h => by
      have hrules : ∀ r ∈ graphRulesOf rules, ∀ f, r.bind? claims = some (some f) → (v f).isSome :=
        fun r hr => hsome r (by simp [graphRulesOf, hr])
      rw [allVisible] at h
      rw [allHoldWith]
      cases hrule : rule.visibility complement claims with
      | error problem => simp [hrule, bind, Except.bind] at h
      | ok here =>
          have hread := visibility_read hv rule here
            (fun r hr => hsome r (by simp [graphRulesOf, hr])) hrule
          cases here with
          | denied =>
              have hfalse : rule.holdsWith claims (GraphRule.read v claims) = false :=
                (Option.some.inj hread).symm
              simp only [hrule, bind, Except.bind] at h
              cases h
              simp [Visibility.read, hfalse]
          | unrestricted =>
              have htrue : rule.holdsWith claims (GraphRule.read v claims) = true :=
                (Option.some.inj hread).symm
              rw [htrue, Bool.true_and]
              exact allVisible_read hv rules parts b out hrules hb
                (by simpa [hrule, bind, Except.bind] using h)
          | restricted f =>
              have hf : v f = some (rule.holdsWith claims (GraphRule.read v claims)) := hread
              rw [← Bool.and_assoc]
              refine allVisible_read hv rules (parts ++ [f]) _ out hrules ?_
                (by simpa [hrule, bind, Except.bind] using h)
              rw [Filter.inTurn_append, hb, Filter.inTurn_singleton, hf]
              cases b <;> rfl

/-- What a disjunction of rules leaves visible reads as the disjunction, together with the parts
that were collected before.  By recursion over the rules, where `parts` are the filters of the
rules already passed. -/
theorem anyVisible_read (hv : Filter.Reading v) : (rules : List Rule) → (parts : List Filter) →
    (b : Bool) → (out : Visibility) →
    (∀ r ∈ graphRulesOf rules, ∀ f, r.bind? claims = some (some f) → (v f).isSome) →
    Filter.inTurn v true parts = some b →
    anyVisible complement claims parts rules = .ok out →
    out.read v = some (b || anyHoldsWith claims (GraphRule.read v claims) rules)
  | [], parts, b, out, _, hb, h => by
      rw [anyVisible] at h
      cases h
      rw [read_ofAny hv, hb, anyHoldsWith, Bool.or_false]
  | rule :: rules, parts, b, out, hsome, hb, h => by
      have hrules : ∀ r ∈ graphRulesOf rules, ∀ f, r.bind? claims = some (some f) → (v f).isSome :=
        fun r hr => hsome r (by simp [graphRulesOf, hr])
      rw [anyVisible] at h
      rw [anyHoldsWith]
      cases hrule : rule.visibility complement claims with
      | error problem => simp [hrule, bind, Except.bind] at h
      | ok here =>
          have hread := visibility_read hv rule here
            (fun r hr => hsome r (by simp [graphRulesOf, hr])) hrule
          cases here with
          | unrestricted =>
              have htrue : rule.holdsWith claims (GraphRule.read v claims) = true :=
                (Option.some.inj hread).symm
              simp only [hrule, bind, Except.bind] at h
              cases h
              simp [Visibility.read, htrue]
          | denied =>
              have hfalse : rule.holdsWith claims (GraphRule.read v claims) = false :=
                (Option.some.inj hread).symm
              rw [hfalse, Bool.false_or]
              exact anyVisible_read hv rules parts b out hrules hb
                (by simpa [hrule, bind, Except.bind] using h)
          | restricted f =>
              have hf : v f = some (rule.holdsWith claims (GraphRule.read v claims)) := hread
              rw [← Bool.or_assoc]
              refine anyVisible_read hv rules (parts ++ [f]) _ out hrules ?_
                (by simpa [hrule, bind, Except.bind] using h)
              rw [Filter.inTurn_append, hb, Filter.inTurn_singleton, hf]
              cases b <;> rfl

end

end Outcome

variable {g : Graph} {n : Node} {complement : Bool} {claims : Claims} {rule : Rule}
  {out : Visibility}

/-- An outcome holds for exactly the nodes for which the rule holds. -/
theorem meets_of_visibility (h : rule.visibility complement claims = .ok out) :
    out.meets g n = rule.holdsWith claims (GraphRule.covers g claims n) := by
  have hread := visibility_read (Filter.meets_reading g n) rule out (fun _ _ _ _ => rfl) h
  rw [Visibility.read_meets] at hread
  exact Option.some.inj hread

/-- A store that can evaluate the filters of the single graph rules can evaluate the
outcome. -/
theorem verdict_of_visibility (hdecided : ∀ r ∈ rule.graphRules, r.Decided g claims n)
    (h : rule.visibility complement claims = .ok out) :
    out.read (Filter.verdict g n) = some (rule.holdsWith claims (GraphRule.covers g claims n)) := by
  rw [visibility_read (Filter.verdict_reading g n) rule out
    (fun r hr f hf => (hdecided r hr).isSome hf) h]
  exact congrArg some (holdsWith_congr claims rule fun r hr => GraphRule.read_verdict (hdecided r hr))

end Rule

end GraphWarden
