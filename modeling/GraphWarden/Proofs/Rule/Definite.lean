import GraphWarden.Proofs.Rule.Meaning
import GraphWarden.Proofs.Store.Shown
import GraphWarden.Rule.Text

/-!
# Rules that always say something

The only rule that means nothing is a negation of nothing, and such a rule cannot be
declared.  A rule in which every negation has a rule to negate (`Rule.Negates`) leaves
something definite visible for all claims, unless it has to negate a filter that cannot be
negated (`Negates.definite`).

So a store that evaluates negated filters fails no rule, and one that does not fails some;
where it says anything it says the same (`visibility_true`).
-/

namespace GraphWarden

namespace Rule

mutual

/-- Every negation in the rule has a rule to negate. -/
def Negates : Rule → Prop
  | .role _ => True
  | .graph _ => True
  | .combine .not [] => False
  | .combine _ rules => AllNegate rules

def AllNegate : List Rule → Prop
  | [] => True
  | r :: rs => Negates r ∧ AllNegate rs

end

/-- Several rules negate something wherever they negate, when each of them does. -/
theorem allNegate_iff {rules : List Rule} : AllNegate rules ↔ ∀ r ∈ rules, r.Negates := by
  induction rules with
  | nil => simp [AllNegate]
  | cons r rules ih => simp [AllNegate, ih]

/-! ### What can go wrong -/

/-- There is an answer, unless a negated filter had to be evaluated and cannot be. -/
def Definite {α : Type} (complement : Bool) (x : Except AccessProblem α) : Prop :=
  (∃ a, x = .ok a) ∨ (complement = false ∧ x = .error .cannotNegate)

section

variable {α β : Type} {complement : Bool}

theorem definite_ok (a : α) : Definite complement (.ok a) :=
  Or.inl ⟨a, rfl⟩

/-- Definite steps one after the other are definite. -/
theorem Definite.bind {x : Except AccessProblem α} {next : α → Except AccessProblem β}
    (h : Definite complement x) (hnext : ∀ a, Definite complement (next a)) :
    Definite complement (x >>= next) := by
  rcases h with ⟨a, rfl⟩ | ⟨hlacks, rfl⟩
  · exact hnext a
  · exact Or.inr ⟨hlacks, rfl⟩

/-- On a store that evaluates negated filters, what is definite is there. -/
theorem Definite.isOk {x : Except AccessProblem α} (h : Definite true x) : ∃ a, x = .ok a := by
  rcases h with h | ⟨hlacks, _⟩
  · exact h
  · simp at hlacks

/-- What is definite and fails can only fail at a filter that cannot be negated. -/
theorem Definite.error {x : Except AccessProblem α} (h : Definite complement x)
    {problem : AccessProblem} (hx : x = .error problem) : problem = .cannotNegate := by
  rcases h with ⟨a, ha⟩ | ⟨_, herror⟩
  · simp [ha] at hx
  · rw [herror] at hx
    exact (Except.error.inj hx).symm

/-- Negating an outcome is definite: it fails at a restriction alone, and only where the store
cannot evaluate the negated filter. -/
theorem definite_negated (v : Visibility) : Definite complement (v.negated complement) := by
  cases v with
  | unrestricted => exact definite_ok _
  | denied => exact definite_ok _
  | restricted f =>
      cases complement with
      | true => exact definite_ok _
      | false => exact Or.inr ⟨rfl, rfl⟩

end

variable {complement : Bool} {claims : Claims}

mutual

/-- **A rule leaves something definite visible**, unless it negates a filter that cannot be
negated. -/
theorem Negates.definite : (rule : Rule) → rule.Negates →
    Definite complement (rule.visibility complement claims)
  | .role rule, _ => by
      rw [visibility]
      exact definite_ok _
  | .graph rule, _ => by
      rw [visibility]
      exact definite_ok _
  | .combine .all rules, h => by
      rw [visibility]
      exact allVisible_definite rules (by simpa [Negates] using h) []
  | .combine .any rules, h => by
      rw [visibility]
      exact anyVisible_definite rules (by simpa [Negates] using h) []
  | .combine .not [], h => by simp [Negates] at h
  | .combine .not (rule :: rules), h => by
      have hrule : rule.Negates := by
        simp only [Negates, AllNegate] at h
        exact h.1
      rw [visibility]
      exact (Negates.definite rule hrule).bind definite_negated

/-- The rules of a conjunction are definite together, whatever the ones before have left. -/
theorem allVisible_definite : (rules : List Rule) → AllNegate rules → (parts : List Filter) →
    Definite complement (allVisible complement claims parts rules)
  | [], _, parts => by
      rw [allVisible]
      exact definite_ok _
  | rule :: rules, h, parts => by
      rw [AllNegate] at h
      rw [allVisible]
      refine (Negates.definite rule h.1).bind fun here => ?_
      cases here with
      | denied => exact definite_ok _
      | unrestricted => exact allVisible_definite rules h.2 parts
      | restricted f => exact allVisible_definite rules h.2 (parts ++ [f])

/-- The rules of a disjunction are definite together when each of them is. -/
theorem anyVisible_definite : (rules : List Rule) → AllNegate rules → (parts : List Filter) →
    Definite complement (anyVisible complement claims parts rules)
  | [], _, parts => by
      rw [anyVisible]
      exact definite_ok _
  | rule :: rules, h, parts => by
      rw [AllNegate] at h
      rw [anyVisible]
      refine (Negates.definite rule h.1).bind fun here => ?_
      cases here with
      | unrestricted => exact definite_ok _
      | denied => exact anyVisible_definite rules h.2 parts
      | restricted f => exact anyVisible_definite rules h.2 (parts ++ [f])

end

mutual

/-- What is left visible does not depend on whether negated filters can be evaluated.  This is
looked at only where a negation meets a restriction, and there it decides whether there is an
answer, not which. -/
theorem visibility_true : (rule : Rule) → {out : Visibility} →
    rule.visibility complement claims = .ok out → rule.visibility true claims = .ok out
  | .role rule, out, h => by
      rw [visibility] at h ⊢
      exact h
  | .graph rule, out, h => by
      rw [visibility] at h ⊢
      exact h
  | .combine .all rules, out, h => by
      rw [visibility] at h ⊢
      exact allVisible_true rules h
  | .combine .any rules, out, h => by
      rw [visibility] at h ⊢
      exact anyVisible_true rules h
  | .combine .not [], out, h => by simp [visibility] at h
  | .combine .not (rule :: rules), out, h => by
      rw [visibility] at h ⊢
      cases hrule : rule.visibility complement claims with
      | error problem => simp [hrule, bind, Except.bind] at h
      | ok inner =>
          rw [visibility_true rule hrule]
          rw [hrule] at h
          cases inner with
          | unrestricted => exact h
          | denied => exact h
          | restricted f =>
              cases complement with
              | true => exact h
              | false => simp [Visibility.negated, bind, Except.bind] at h

/-- What a conjunction says on some store it says on a store that evaluates negated filters. -/
theorem allVisible_true : (rules : List Rule) → {parts : List Filter} → {out : Visibility} →
    allVisible complement claims parts rules = .ok out →
      allVisible true claims parts rules = .ok out
  | [], _, _, h => by
      rw [allVisible] at h ⊢
      exact h
  | rule :: rules, parts, out, h => by
      rw [allVisible] at h ⊢
      cases hrule : rule.visibility complement claims with
      | error problem => simp [hrule, bind, Except.bind] at h
      | ok here =>
          rw [visibility_true rule hrule]
          rw [hrule] at h
          cases here with
          | denied => exact h
          | unrestricted => exact allVisible_true rules h
          | restricted f => exact allVisible_true rules h

/-- The same of a disjunction. -/
theorem anyVisible_true : (rules : List Rule) → {parts : List Filter} → {out : Visibility} →
    anyVisible complement claims parts rules = .ok out →
      anyVisible true claims parts rules = .ok out
  | [], _, _, h => by
      rw [anyVisible] at h ⊢
      exact h
  | rule :: rules, parts, out, h => by
      rw [anyVisible] at h ⊢
      cases hrule : rule.visibility complement claims with
      | error problem => simp [hrule, bind, Except.bind] at h
      | ok here =>
          rw [visibility_true rule hrule]
          rw [hrule] at h
          cases here with
          | unrestricted => exact h
          | denied => exact anyVisible_true rules h
          | restricted f => exact anyVisible_true rules h

end

/-- The same of a rule that may be missing, in which case every node is visible on every store. -/
theorem visibilityIfAny_true {rule : Option Rule} {out : Visibility}
    (h : visibilityIfAny complement claims rule = .ok out) :
    visibilityIfAny true claims rule = .ok out := by
  cases rule with
  | none => exact h
  | some rule => exact visibility_true rule h

end Rule

end GraphWarden
