import GraphWarden.Proofs.Rule.Parts

/-!
# Negations that are reached

Evaluating a rule goes through its parts from left to right and stops where one decides: under
`all` at a part that leaves nothing visible, under `any` at one that leaves everything.  Both
connectives are taken together here (`Rule.jointly`); they differ in what decides
(`Connective.decisive`) and in what is made of the restrictions in the end.  What is evaluated
before anything decides is reached (`Rule.Reaches`).

A store that does not evaluate negated filters makes a difference to a rule **exactly when a
negation is reached whose own rule leaves what a filter accepts** (`Negates.cannotNegate_iff`).
Otherwise the rule leaves the same as in any other store.  So what a store lacks can only turn an
answer into a refusal, and never into another answer (`lacking_complement_only_refuses`).
-/

namespace GraphWarden

/-- What one rule leaves visible when it decides for all rules under a connective. -/
def Connective.decisive : Connective → Visibility
  | .any => .unrestricted
  | .all | .not => .denied

/-- The restriction, when there is one. -/
def Visibility.restrictions : Visibility → List Filter
  | .restricted f => [f]
  | .unrestricted | .denied => []

namespace Rule

variable {complement : Bool} {claims : Claims} {op : Connective}

/-! ### Several rules, one after the other -/

/-- What rules leave visible under `all` or `any`, after the restrictions `parts`. -/
def jointly (complement : Bool) (claims : Claims) :
    Connective → List Filter → List Rule → Except AccessProblem Visibility
  | .any => anyVisible complement claims
  | .all | .not => allVisible complement claims

section Jointly

variable {parts : List Filter} {r rule : Rule} {rules before after : List Rule}

/-- What a connective other than `not` leaves visible is what its rules leave jointly. -/
theorem visibility_combine (hop : op ≠ .not) (rules : List Rule) :
    (combine op rules).visibility complement claims = jointly complement claims op [] rules := by
  cases op with
  | all => rw [visibility, jointly]
  | any => rw [visibility, jointly]
  | not => exact absurd rfl hop

theorem jointly_cons_of_error {problem : AccessProblem}
    (hr : r.visibility complement claims = .error problem) :
    jointly complement claims op parts (r :: rules) = .error problem := by
  cases op <;> simp [jointly, allVisible, anyVisible, hr, bind, Except.bind]

/-- Several rules are decided when the first of them decides, whatever comes after it. -/
theorem jointly_cons_of_decisive (hr : r.visibility complement claims = .ok op.decisive) :
    jointly complement claims op parts (r :: rules) = .ok op.decisive := by
  cases op <;>
    simp [jointly, allVisible, anyVisible, hr, Connective.decisive, bind, Except.bind]

/-- When the first of several rules does not decide, its restriction, if it leaves one, joins those
in front and the rest is evaluated. -/
theorem jointly_cons_of_ok {v : Visibility} (hr : r.visibility complement claims = .ok v)
    (hv : v ≠ op.decisive) :
    jointly complement claims op parts (r :: rules) =
      jointly complement claims op (parts ++ v.restrictions) rules := by
  cases op <;> cases v <;>
    simp_all [jointly, allVisible, anyVisible, Connective.decisive, Visibility.restrictions,
      bind, Except.bind]

/-- Rules fail at one of them, and none in front of it decides. -/
theorem exists_of_jointly_error {problem : AccessProblem}
    (h : jointly complement claims op parts rules = .error problem) :
    ∃ before rule after, rules = before ++ rule :: after ∧
      (∀ r ∈ before, r.visibility true claims ≠ .ok op.decisive) ∧
      rule.visibility complement claims = .error problem := by
  induction rules generalizing parts with
  | nil => cases op <;> simp [jointly, allVisible, anyVisible] at h
  | cons r rules ih =>
      cases hr : r.visibility complement claims with
      | error problem' =>
          rw [jointly_cons_of_error hr] at h
          exact ⟨[], r, rules, rfl, by simp, hr.trans h⟩
      | ok v =>
          have hv : v ≠ op.decisive := by
            rintro rfl
            rw [jointly_cons_of_decisive hr] at h
            simp at h
          rw [jointly_cons_of_ok hr hv] at h
          obtain ⟨before, rule, after, rfl, hbefore, hrule⟩ := ih h
          refine ⟨r :: before, rule, after, rfl, ?_, hrule⟩
          intro r' hr'
          rcases List.mem_cons.1 hr' with rfl | hr'
          · rw [visibility_true _ hr]
            simpa using hv
          · exact hbefore r' hr'

/-- A rule that fails is not passed over when none in front of it decides: the rules in front of
it may only fail themselves. -/
theorem jointly_error_of_reached (hnegate : ∀ r ∈ before, r.Negates)
    (hbefore : ∀ r ∈ before, r.visibility true claims ≠ .ok op.decisive)
    (hrule : rule.visibility false claims = .error .cannotNegate) (parts : List Filter) :
    jointly false claims op parts (before ++ rule :: after) = .error .cannotNegate := by
  induction before generalizing parts with
  | nil => exact jointly_cons_of_error hrule
  | cons r before ih =>
      have hrest := ih (fun r' hr' => hnegate r' (List.mem_cons_of_mem _ hr'))
        (fun r' hr' => hbefore r' (List.mem_cons_of_mem _ hr'))
      have hdefinite : Definite false (r.visibility false claims) :=
        Negates.definite r (hnegate r List.mem_cons_self)
      rcases hdefinite with ⟨v, hr⟩ | ⟨_, hr⟩
      · have hv : v ≠ op.decisive := by
          rintro rfl
          exact hbefore r List.mem_cons_self (visibility_true r hr)
        rw [List.cons_append, jointly_cons_of_ok hr hv]
        exact hrest _
      · exact jointly_cons_of_error hr

end Jointly

/-! ### What is reached -/

/-- A part of a rule that is evaluated when the rule is: no part in front of it, at any level,
decides before. -/
inductive Reaches (claims : Claims) (part : Rule) : Rule → Prop where
  | self : Reaches claims part part
  | negated {rule : Rule} {rest : List Rule} :
      Reaches claims part rule → Reaches claims part (.combine .not (rule :: rest))
  | joined {op : Connective} {before after : List Rule} {rule : Rule} : op ≠ .not →
      (∀ r ∈ before, r.visibility true claims ≠ .ok op.decisive) →
      Reaches claims part rule → Reaches claims part (.combine op (before ++ rule :: after))

/-- A negation is reached whose rule leaves what a filter accepts. -/
def NegatesRestriction (claims : Claims) (rule : Rule) : Prop :=
  ∃ inner rest f, Reaches claims (.combine .not (inner :: rest)) rule ∧
    inner.visibility true claims = .ok (.restricted f)

theorem Negates.inner {inner : Rule} {rest : List Rule}
    (h : (combine .not (inner :: rest)).Negates) : inner.Negates := by
  simp only [Negates, AllNegate] at h
  exact h.1

/-- What stands under a connective other than `not` can itself be evaluated. -/
theorem Negates.of_mem (hop : op ≠ .not) {rules : List Rule} (h : (combine op rules).Negates) :
    ∀ r ∈ rules, r.Negates := by
  cases op with
  | all => exact allNegate_iff.1 (by simpa only [Negates] using h)
  | any => exact allNegate_iff.1 (by simpa only [Negates] using h)
  | not => exact absurd rfl hop

/-- Every part of a rule that is reached can itself be evaluated, when the rule can. -/
theorem Reaches.negates {part rule : Rule} (h : Reaches claims part rule)
    (hnegates : rule.Negates) : part.Negates := by
  induction h with
  | self => exact hnegates
  | negated _ ih => exact ih hnegates.inner
  | joined hop _ _ ih => exact ih (hnegates.of_mem hop _ (by simp))

/-- A negation fails when its rule does, or when its rule leaves what a filter accepts. -/
theorem not_visibility_error_cases {rule : Rule} {rest : List Rule} {problem : AccessProblem}
    (h : (combine .not (rule :: rest)).visibility false claims = .error problem) :
    rule.visibility false claims = .error problem ∨
      ∃ f, rule.visibility true claims = .ok (.restricted f) := by
  rw [visibility] at h
  cases hrule : rule.visibility false claims with
  | error problem' =>
      rw [hrule] at h
      exact Or.inl h
  | ok v =>
      rw [hrule] at h
      cases v with
      | unrestricted => simp [Visibility.negated, bind, Except.bind] at h
      | denied => simp [Visibility.negated, bind, Except.bind] at h
      | restricted f => exact Or.inr ⟨f, visibility_true rule hrule⟩

/-- The negation of a restriction fails for want of complements. -/
theorem not_visibility_of_restricted {inner : Rule} {rest : List Rule} {f : Filter}
    (hinner : inner.Negates) (hf : inner.visibility true claims = .ok (.restricted f)) :
    (combine .not (inner :: rest)).visibility false claims = .error .cannotNegate := by
  rw [visibility]
  have hdefinite : Definite false (inner.visibility false claims) := Negates.definite inner hinner
  rcases hdefinite with ⟨v, hv⟩ | ⟨_, herror⟩
  · have hsame : v = .restricted f := by
      have htrue := visibility_true inner hv
      rw [hf] at htrue
      exact (Except.ok.inj htrue).symm
    rw [hv, hsame]
    rfl
  · rw [herror]
    rfl

/-- Where a rule fails for want of complements, it is reached that a restriction is negated. -/
theorem negatesRestriction_of_error : (rule : Rule) → rule.Negates →
    rule.visibility false claims = .error .cannotNegate → rule.NegatesRestriction claims
  | .role rule, _, h => by simp [visibility] at h
  | .graph rule, _, h => by simp [visibility] at h
  | .combine op rules, hnegates, h => by
      by_cases hop : op = .not
      · subst hop
        obtain ⟨rule, rest, hrules⟩ : ∃ rule rest, rules = rule :: rest := by
          cases rules with
          | nil => simp [Negates] at hnegates
          | cons rule rest => exact ⟨rule, rest, rfl⟩
        have hmem : rule ∈ rules := by simp [hrules]
        rw [hrules] at hnegates h ⊢
        rcases not_visibility_error_cases h with hinner | ⟨f, hf⟩
        · obtain ⟨inner, rest', f, hreached, hf⟩ :=
            negatesRestriction_of_error rule hnegates.inner hinner
          exact ⟨inner, rest', f, .negated hreached, hf⟩
        · exact ⟨rule, rest, f, .self, hf⟩
      · rw [visibility_combine hop] at h
        obtain ⟨before, rule, after, hrules, hbefore, herror⟩ := exists_of_jointly_error h
        have hmem : rule ∈ rules := by simp [hrules]
        obtain ⟨inner, rest, f, hreached, hf⟩ :=
          negatesRestriction_of_error rule (hnegates.of_mem hop rule hmem) herror
        exact ⟨inner, rest, f, hrules ▸ .joined hop hbefore hreached, hf⟩

/-- A part that is reached and fails makes the whole rule fail. -/
theorem Reaches.error {part rule : Rule} (h : Reaches claims part rule) (hnegates : rule.Negates)
    (hpart : part.visibility false claims = .error .cannotNegate) :
    rule.visibility false claims = .error .cannotNegate := by
  induction h with
  | self => exact hpart
  | negated _ ih =>
      rw [visibility, ih hnegates.inner]
      rfl
  | joined hop hbefore _ ih =>
      have hrules := hnegates.of_mem hop
      have hrule := ih (hrules _ (by simp))
      rw [visibility_combine hop]
      exact jointly_error_of_reached (fun r hr => hrules r (by simp [hr])) hbefore hrule []

/-- **A rule fails for want of complements exactly when it is reached that a restriction is
negated.** -/
theorem Negates.cannotNegate_iff {rule : Rule} (hnegates : rule.Negates) :
    rule.visibility false claims = .error .cannotNegate ↔ rule.NegatesRestriction claims := by
  constructor
  · exact negatesRestriction_of_error rule hnegates
  · rintro ⟨inner, rest, f, hreached, hf⟩
    have hinner : inner.Negates := (hreached.negates hnegates).inner
    exact hreached.error hnegates (not_visibility_of_restricted hinner hf)

/-- **Want of complements can only turn an answer into a refusal.**  With them a declared rule
leaves something visible for all claims; without them it leaves the same or is refused, and it is
refused exactly when it is reached that a restriction is negated.  Neither way the rule is found to
negate nothing; and when it leaves everything or nothing, its negation needs no complements. -/
theorem lacking_complement_only_refuses {d : Declaration} {rule : Rule}
    (h : compile d = .ok rule) (claims : Claims) :
    (∃ out, rule.visibility true claims = .ok out) ∧
      (rule.visibility false claims = rule.visibility true claims ∨
        rule.visibility false claims = .error .cannotNegate) ∧
      (rule.visibility false claims = .error .cannotNegate ↔ rule.NegatesRestriction claims) ∧
      (∀ complement, rule.visibility complement claims ≠ .error .emptyNegation) ∧
      (∀ out, rule.visibility false claims = .ok out → (∀ f, out ≠ .restricted f) →
        (combine .not [rule]).visibility false claims =
          .ok (if out.isDenied then .unrestricted else .denied)) := by
  have hnegates : rule.Negates := negates_of_compile h
  refine ⟨(Negates.definite rule hnegates).isOk, ?_, hnegates.cannotNegate_iff, ?_, ?_⟩
  · have hdefinite : Definite false (rule.visibility false claims) :=
      Negates.definite rule hnegates
    rcases hdefinite with ⟨out, hout⟩ | ⟨_, herror⟩
    · exact Or.inl (hout.trans (visibility_true rule hout).symm)
    · exact Or.inr herror
  · intro complement herror
    have hproblem := (Negates.definite rule hnegates).error herror
    simp at hproblem
  · intro out hout hplain
    rw [visibility, hout]
    cases out with
    | denied => rfl
    | unrestricted => rfl
    | restricted f => exact absurd rfl (hplain f)

/-- Whoever has a role sees all tasks, and everybody else those that are not done. -/
def staffOrOpen : Declaration :=
  .any [.rule "\x7b $ROLE: \x7b in: [\"ADMIN\", \"CLERK\"] \x7d \x7d",
    .not (.rule ("query \x7b queryTask(filter: \x7b done: \x7b eq: true \x7d \x7d) " ++
      "\x7b id \x7d \x7d"))]

def ofClerk : Claims :=
  Claims.none.claiming "ROLE" (.text "CLERK")

/-- For a clerk the negation is not reached, and for everybody else it is. -/
theorem staffOrOpen_refuses_others :
    ∃ rule, compile staffOrOpen = .ok rule ∧ rule.visibility false ofClerk = .ok .unrestricted ∧
      ¬ rule.NegatesRestriction ofClerk ∧
      rule.visibility false Claims.none = .error .cannotNegate ∧
      rule.NegatesRestriction Claims.none := by
  have hcheck : ((compile staffOrOpen).toOption.any fun rule =>
      (rule.visibility false ofClerk).toOption.any Visibility.isUnrestricted &&
        !(rule.visibility false Claims.none).isOk) = true := by
    decide +kernel
  obtain ⟨rule, hrule, hcheck⟩ := (Option.any_eq_true _ _).1 hcheck
  rw [toOption_eq_some_iff] at hrule
  rw [Bool.and_eq_true, Bool.not_eq_true', Option.any_eq_true] at hcheck
  obtain ⟨⟨out, hclerk, hout⟩, hrefused⟩ := hcheck
  rw [toOption_eq_some_iff] at hclerk
  obtain rfl : out = .unrestricted := by
    cases out <;> simp [Visibility.isUnrestricted] at hout
    rfl
  obtain ⟨_, _, hiffClerk, _⟩ := lacking_complement_only_refuses hrule ofClerk
  obtain ⟨⟨v, hv⟩, hsame, hiffOthers, _⟩ := lacking_complement_only_refuses hrule Claims.none
  have hothers : rule.visibility false Claims.none = .error .cannotNegate := by
    refine hsame.resolve_left fun hsame => ?_
    rw [hsame, hv] at hrefused
    simp [Except.isOk, Except.toBool] at hrefused
  refine ⟨rule, hrule, hclerk, ?_, hothers, hiffOthers.1 hothers⟩
  intro hreached
  have herror := hiffClerk.2 hreached
  simp [hclerk] at herror

end Rule

end GraphWarden
