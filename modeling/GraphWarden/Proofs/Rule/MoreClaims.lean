import GraphWarden.Proofs.Rule.Parts

/-!
# More claims

A request that drops claims should not see more for it.  That fails as soon as a rule negates: a
missing claim denies, and a denial that is negated allows.  Among rules without negations
(`Rule.Affirmative`) it holds.

A claim that two requests share is filled in alike, so a graph rule that can be bound with fewer
claims is bound to the very same filter with more (`GraphRule.bind?_of_extends`); and a role rule
looks at one claim.  What single rules cover therefore only grows with the claims, and all of
several rules and some of several rules keep that (`holdsWith_of_extends`).  What the fewer claims
leave visible is read off there, however differently the two outcomes were put together
(`seen_with_more_claims`).
-/

namespace GraphWarden

/-- Whatever one request claims, the other one claims with the same value. -/
def Claims.Extends (more fewer : Claims) : Prop :=
  ∀ name claim, fewer.find? name = some claim → more.find? name = some claim

variable {fewer more : Claims}

theorem Claims.Extends.has (h : more.Extends fewer) {name : String}
    (hname : fewer.has name = true) : more.has name = true := by
  obtain ⟨claim, hclaim⟩ := Option.isSome_iff_exists.1 hname
  exact Option.isSome_iff_exists.2 ⟨claim, h name claim hclaim⟩

/-! ### Binding -/

namespace Value

mutual

/-- More claims put the same values in the places of variables. -/
theorem bind?_of_extends (h : more.Extends fewer) : (v w : Value) →
    v.bind? fewer = some w → v.bind? more = some w
  | .variable name, w, hw => by
      obtain ⟨claim, hclaim, rfl⟩ := Option.map_eq_some_iff.1 hw
      exact Option.map_eq_some_iff.2 ⟨claim, h name claim hclaim, rfl⟩
  | .list items, w, hw => by
      obtain ⟨ws, hws, rfl⟩ := Option.map_eq_some_iff.1 hw
      exact Option.map_eq_some_iff.2 ⟨ws, bindItems?_of_extends h items ws hws, rfl⟩
  | .object entries, w, hw => by
      obtain ⟨ws, hws, rfl⟩ := Option.map_eq_some_iff.1 hw
      exact Option.map_eq_some_iff.2 ⟨ws, bindEntries?_of_extends h entries ws hws, rfl⟩
  | .int _, w, hw | .float _, w, hw | .text _, w, hw | .flag _, w, hw | .null, w, hw
  | .enum _, w, hw => by
      simpa [bind?] using hw

/-- The items of a list are bound to the same values with more claims. -/
theorem bindItems?_of_extends (h : more.Extends fewer) : (vs ws : List Value) →
    bindItems? fewer vs = some ws → bindItems? more vs = some ws
  | [], ws, hws => hws
  | v :: vs, ws, hws => by
      obtain ⟨w, hw, hws⟩ := Option.bind_eq_some_iff.1 hws
      obtain ⟨rest, hrest, hws⟩ := Option.bind_eq_some_iff.1 hws
      cases hws
      simp [bindItems?, bind?_of_extends h v w hw, bindItems?_of_extends h vs rest hrest]

/-- So are the entries of an object. -/
theorem bindEntries?_of_extends (h : more.Extends fewer) : (es ws : List (String × Value)) →
    bindEntries? fewer es = some ws → bindEntries? more es = some ws
  | [], ws, hws => hws
  | (k, v) :: es, ws, hws => by
      obtain ⟨w, hw, hws⟩ := Option.bind_eq_some_iff.1 hws
      obtain ⟨rest, hrest, hws⟩ := Option.bind_eq_some_iff.1 hws
      cases hws
      simp [bindEntries?, bind?_of_extends h v w hw, bindEntries?_of_extends h es rest hrest]

end

end Value

namespace Filter

mutual

/-- **More claims bind a filter to the same filter**, where fewer claims bind it at all. -/
theorem bind?_of_extends (h : more.Extends fewer) : (f f' : Filter) →
    f.bind? fewer = some f' → f.bind? more = some f'
  | .compare _ _ operand, f', hf => by
      obtain ⟨w, hw, rfl⟩ := Option.map_eq_some_iff.1 hf
      exact Option.map_eq_some_iff.2 ⟨w, operand.bind?_of_extends h w hw, rfl⟩
  | .edge _ inner, f', hf | .not inner, f', hf => by
      obtain ⟨i, hi, rfl⟩ := Option.map_eq_some_iff.1 hf
      exact Option.map_eq_some_iff.2 ⟨i, bind?_of_extends h inner i hi, rfl⟩
  | .all parts, f', hf | .any parts, f', hf => by
      obtain ⟨ps, hps, rfl⟩ := Option.map_eq_some_iff.1 hf
      exact Option.map_eq_some_iff.2 ⟨ps, bindParts?_of_extends h parts ps hps, rfl⟩
  | .nothing, f', hf | .has _, f', hf | .ids _, f', hf | .isType _, f', hf => by
      simpa [bind?] using hf

/-- So are the parts of a filter. -/
theorem bindParts?_of_extends (h : more.Extends fewer) : (fs gs : List Filter) →
    bindParts? fewer fs = some gs → bindParts? more fs = some gs
  | [], gs, hgs => hgs
  | f :: fs, gs, hgs => by
      obtain ⟨g, hg, hgs⟩ := Option.bind_eq_some_iff.1 hgs
      obtain ⟨rest, hrest, hgs⟩ := Option.bind_eq_some_iff.1 hgs
      cases hgs
      simp [bindParts?, bind?_of_extends h f g hg, bindParts?_of_extends h fs rest hrest]

end

end Filter

/-! ### Single rules -/

/-- A role rule that holds for some claims holds for more: it looks at one claim, and that one is
there already. -/
theorem RoleRule.holds_of_extends (h : more.Extends fewer) {rule : RoleRule}
    (hholds : rule.holds fewer = true) : rule.holds more = true := by
  obtain ⟨claim, hclaim, htest⟩ := (Option.any_eq_true _ _).1 hholds
  exact (Option.any_eq_true _ _).2 ⟨claim, h rule.claim claim hclaim, htest⟩

namespace GraphRule

/-- A graph rule that can be bound is bound to the same filter when there are more claims. -/
theorem bind?_of_extends (h : more.Extends fewer) {rule : GraphRule} {filter : Option Filter}
    (hbind : rule.bind? fewer = some filter) : rule.bind? more = some filter := by
  unfold bind? at hbind ⊢
  split at hbind
  · next hdeclared =>
      have hmore : rule.declared.all more.has = true := by
        rw [List.all_eq_true] at hdeclared ⊢
        exact fun name hname => h.has (hdeclared name hname)
      rw [if_pos hmore]
      cases hfilter : rule.filter with
      | none => simpa [hfilter] using hbind
      | some f =>
          rw [hfilter] at hbind
          obtain ⟨f', hf', rfl⟩ := Option.map_eq_some_iff.1 hbind
          exact Option.map_eq_some_iff.2 ⟨f', f.bind?_of_extends h f' hf', rfl⟩
  · simp at hbind

/-- With more claims a rule covers the nodes that it covered before. -/
theorem covers_of_extends (h : more.Extends fewer) {g : Graph} {n : Node} {rule : GraphRule}
    (hcovers : rule.covers g fewer n = true) : rule.covers g more n = true := by
  obtain ⟨filter, hbind, hmeets⟩ := (Option.any_eq_true _ _).1 hcovers
  exact (Option.any_eq_true _ _).2 ⟨filter, bind?_of_extends h hbind, hmeets⟩

end GraphRule

namespace Rule

/-! ### Combinations -/

/-- No part of the rule is a negation. -/
def Affirmative (rule : Rule) : Prop :=
  ∀ rules, ¬ Within (.combine .not rules) rule

theorem Affirmative.rules {op : Connective} {rules : List Rule}
    (h : (combine op rules).Affirmative) : ∀ rule ∈ rules, rule.Affirmative :=
  fun _ hrule _ hwithin => h _ (.joined hrule hwithin)

/-- An affirmative rule negates nothing, so no negation in it lacks a rule. -/
theorem Affirmative.negates : (rule : Rule) → rule.Affirmative → rule.Negates
  | .role _, _ => by simp [Negates]
  | .graph _, _ => by simp [Negates]
  | .combine op rules, h => by
      have hrules : AllNegate rules := allNegate_iff.2 fun rule hrule =>
        Affirmative.negates rule (h.rules rule hrule)
      cases op with
      | all => simpa [Negates] using hrules
      | any => simpa [Negates] using hrules
      | not => exact absurd .self (h rules)

section Growth

variable {leaf leaf' : GraphRule → Bool}

mutual

/-- **A rule without negations holds for more** when its graph rules do and more is claimed. -/
theorem holdsWith_of_extends (h : more.Extends fewer)
    (hleaf : ∀ r, leaf r = true → leaf' r = true) : (rule : Rule) → rule.Affirmative →
      rule.holdsWith fewer leaf = true → rule.holdsWith more leaf' = true
  | .role rule, _, hholds => by
      rw [holdsWith] at hholds ⊢
      exact rule.holds_of_extends h hholds
  | .graph rule, _, hholds => by
      rw [holdsWith] at hholds ⊢
      exact hleaf rule hholds
  | .combine .all rules, haffirms, hholds => by
      rw [holdsWith] at hholds ⊢
      exact allHoldWith_of_extends h hleaf rules haffirms.rules hholds
  | .combine .any rules, haffirms, hholds => by
      rw [holdsWith] at hholds ⊢
      exact anyHoldsWith_of_extends h hleaf rules haffirms.rules hholds
  | .combine .not rules, haffirms, _ => absurd .self (haffirms rules)

/-- A conjunction of affirmative rules that holds goes on holding, provided that the graph rules in
it do. -/
theorem allHoldWith_of_extends (h : more.Extends fewer)
    (hleaf : ∀ r, leaf r = true → leaf' r = true) : (rules : List Rule) →
    (∀ rule ∈ rules, rule.Affirmative) → allHoldWith fewer leaf rules = true →
      allHoldWith more leaf' rules = true
  | [], _, _ => rfl
  | rule :: rules, haffirms, hholds => by
      rw [allHoldWith, Bool.and_eq_true] at hholds ⊢
      exact ⟨holdsWith_of_extends h hleaf rule (haffirms rule List.mem_cons_self) hholds.1,
        allHoldWith_of_extends h hleaf rules
          (fun r hr => haffirms r (List.mem_cons_of_mem _ hr)) hholds.2⟩

/-- So does a disjunction. -/
theorem anyHoldsWith_of_extends (h : more.Extends fewer)
    (hleaf : ∀ r, leaf r = true → leaf' r = true) : (rules : List Rule) →
    (∀ rule ∈ rules, rule.Affirmative) → anyHoldsWith fewer leaf rules = true →
      anyHoldsWith more leaf' rules = true
  | [], _, hholds => hholds
  | rule :: rules, haffirms, hholds => by
      rw [anyHoldsWith, Bool.or_eq_true] at hholds ⊢
      rcases hholds with hholds | hholds
      · exact Or.inl
          (holdsWith_of_extends h hleaf rule (haffirms rule List.mem_cons_self) hholds)
      · exact Or.inr (anyHoldsWith_of_extends h hleaf rules
          (fun r hr => haffirms r (List.mem_cons_of_mem _ hr)) hholds)

end

end Growth

end Rule

/-! ### What is seen -/

namespace Visibility

/-- Whether a node is seen: everything is, or the store says yes to the filter. -/
def Shows (g : Graph) (n : Node) : Visibility → Prop
  | unrestricted => True
  | denied => False
  | restricted f => f.accepts g n = .ok true

variable {g : Graph} {n : Node}

/-- A node that the store shows under an outcome may be seen in plain truth as well. -/
theorem Shows.meets : {v : Visibility} → v.Shows g n → v.meets g n = true
  | unrestricted, _ => rfl
  | restricted f, h => by
      have hmeets : f.meets g n = true := Filter.meets_of_accepts f n true h
      simpa [Visibility.meets, toFilter] using hmeets

/-- A node that has what a visibility asks for is seen when the store can tell. -/
theorem shows_of_meets : {v : Visibility} → v.meets g n = true →
    (∀ f, v = restricted f → ∃ b, f.accepts g n = .ok b) → v.Shows g n
  | unrestricted, _, _ => trivial
  | denied, h, _ => by simp [Visibility.meets, toFilter, Filter.meets] at h
  | restricted f, h, hanswers => by
      obtain ⟨b, hb⟩ := hanswers f rfl
      have hmeets : f.meets g n = true := by simpa [Visibility.meets, toFilter] using h
      rw [Shows, hb, ← Filter.meets_of_accepts f n b hb, hmeets]

end Visibility

namespace Rule

/-- **Fewer claims never see more without negations.**  A rule without negations leaves something
visible for all claims; and a node that is seen with some claims is seen with these and others
besides, in every store that can tell. -/
theorem seen_with_more_claims {rule : Rule} (haffirms : rule.Affirmative)
    (hclaims : more.Extends fewer) :
    ∃ before after, rule.visibility true fewer = .ok before ∧
      rule.visibility true more = .ok after ∧
      ∀ (g : Graph) (n : Node), before.Shows g n →
        (∀ f, after = .restricted f → ∃ b, f.accepts g n = .ok b) → after.Shows g n := by
  have hdefinite : ∀ claims, ∃ v, rule.visibility true claims = .ok v :=
    fun _ => (haffirms.negates.definite rule).isOk
  obtain ⟨before, hbefore⟩ := hdefinite fewer
  obtain ⟨after, hafter⟩ := hdefinite more
  refine ⟨before, after, hbefore, hafter, fun g n hshows hanswers => ?_⟩
  have hholds : rule.holdsWith fewer (GraphRule.covers g fewer n) = true := by
    rw [← meets_of_visibility hbefore]
    exact hshows.meets
  have hmeets : after.meets g n = true := by
    rw [meets_of_visibility hafter]
    exact holdsWith_of_extends hclaims (fun _ => GraphRule.covers_of_extends hclaims) rule
      haffirms hholds
  exact Visibility.shows_of_meets hmeets hanswers

/-- A memo that somebody of a team has written. -/
def memo : Node :=
  ⟨"m1", "Memo", [], .ofList [("author", .scalar (.text "amy")), ("team", .scalar (.text "red"))]⟩

/-- What the user or somebody of the user's team has written. -/
def writtenByUs : Rule := .combine .any [
  .graph ⟨"query($U: ID) \x7b " ++
      "queryMemo(filter: \x7b author: \x7b eq: $U \x7d \x7d) \x7b id \x7d \x7d",
    ["U"], "Memo", some (.compare "author" .equal (.variable "U")), []⟩,
  .graph ⟨"query($T: ID) \x7b " ++
      "queryMemo(filter: \x7b team: \x7b eq: $T \x7d \x7d) \x7b id \x7d \x7d",
    ["T"], "Memo", some (.compare "team" .equal (.variable "T")), []⟩]

def amy : Claims :=
  Claims.none.claiming "U" (.text "amy")

def amyOfBlueTeam : Claims :=
  amy.claiming "T" (.text "blue")

/-- Amy sees what she has written, also when she says of which team she is now.  Without the team
the second branch of the rule is dropped; with it the filter has both, and the memo still passes
the first. -/
theorem amy_sees_her_memo :
    writtenByUs.Affirmative ∧ amyOfBlueTeam.Extends amy ∧
      ∃ before after, writtenByUs.visibility true amy = .ok (.restricted before) ∧
        writtenByUs.visibility true amyOfBlueTeam = .ok (.restricted after) ∧
        before.accepts (.ofList [memo]) memo = .ok true ∧
        after.accepts (.ofList [memo]) memo = .ok true := by
  have haffirms : writtenByUs.Affirmative := by
    intro rules hwithin
    cases hwithin with
    | joined hrule hwithin =>
        simp only [List.mem_cons, List.not_mem_nil, or_false] at hrule
        rcases hrule with rfl | rfl <;> cases hwithin
  have hclaims : amyOfBlueTeam.Extends amy := by
    intro name claim hclaim
    have hunclaimed : amy.find? "T" = none := by decide +kernel
    have hname : "T" ≠ name := by
      rintro rfl
      simp [hunclaimed] at hclaim
    have hbare : Claims.bareName "T" = "T" := by decide +kernel
    rw [amyOfBlueTeam, Claims.find?, Claims.claiming, hbare, Keyed.find?_put, if_neg hname]
    exact hclaim
  have hafter : writtenByUs.visibility true amyOfBlueTeam = .ok (.restricted (.any [
      .compare "author" .equal (.text "amy"), .compare "team" .equal (.text "blue")])) := by rfl
  have hbefore : writtenByUs.visibility true amy =
      .ok (.restricted (.compare "author" .equal (.text "amy"))) := by rfl
  have hshown : (Filter.compare "author" .equal (.text "amy")).accepts (.ofList [memo]) memo =
      .ok true := by rfl
  obtain ⟨before, after, hbefore', hafter', hseen⟩ := seen_with_more_claims haffirms hclaims
  rw [hbefore] at hbefore'
  rw [hafter] at hafter'
  cases hbefore'
  cases hafter'
  refine ⟨haffirms, hclaims, _, _, hbefore, hafter, hshown, ?_⟩
  refine hseen _ _ hshown fun f hf => ?_
  cases hf
  exact ⟨true, by rfl⟩

end Rule

end GraphWarden
