import GraphWarden.Proofs.Rule.Answered
import GraphWarden.Proofs.Rule.Conjunction

/-!
# Checks, candidate by candidate

A check hands sets of candidates down a rule: what is left after one rule goes on to the next
one, what has passed one is not asked about again, and what passes a rule is taken away by its
negation.  Still it decides **each candidate by itself**, whatever the other candidates are:

* `yields_satisfied` — a check that is answered lets pass those candidates that satisfy the rule
  (`Rule.Satisfies`), a set again;
* `answers_passing_iff` — it is answered exactly when it is for each candidate alone.

So a check may be made in parts (`passes_in_parts`), and a disjunction and a conjunction let pass
the union and the intersection of what their rules do (`passes_any`, `passes_all`).
`passes_each_alone` puts this together for runs in which the store works.
-/

namespace GraphWarden

/-- An id satisfies a graph rule for a type: all variables that the rule declares have claims, and
under the id stands a node of the type that meets the rule's filter with the claims in it. -/
def GraphRule.SatisfiedBy (g : Graph) (claims : Claims) (typeName id : String) (rule : GraphRule) :
    Prop :=
  (∀ name ∈ rule.declared, claims.has name = true) ∧
    ∃ n, g.find? id = some n ∧ n.isA typeName = true ∧
      ∀ f, rule.filter = some f → ∃ bound, f.bind? claims = some bound ∧ bound.meets g n = true

/-- That a candidate satisfies a graph rule is a matter of the stored node with its id and of the
bound filter. -/
theorem GraphRule.satisfiedBy_iff {g : Graph} {claims : Claims} {typeName id : String}
    {rule : GraphRule} : rule.SatisfiedBy g claims typeName id ↔
      Rule.coversFor g claims typeName id rule = true := by
  unfold SatisfiedBy Rule.coversFor covers bind?
  by_cases hdeclared : rule.declared.all claims.has = true
  · have hall := List.all_eq_true.1 hdeclared
    rw [if_pos hdeclared, Option.any_eq_true]
    refine ⟨fun ⟨_, n, hn, hisA, hmeets⟩ => ⟨n, hn, ?_⟩, fun ⟨n, hn, h⟩ => ⟨hall, n, hn, ?_⟩⟩
    · cases hfilter : rule.filter with
      | none => simp [hisA]
      | some f =>
          obtain ⟨bound, hbound, hmeets⟩ := hmeets f hfilter
          simp [hisA, hbound, hmeets]
    · cases hfilter : rule.filter with
      | none =>
          rw [hfilter] at h
          exact ⟨by simpa using h, by simp⟩
      | some f =>
          simp only [hfilter, Option.any_map, Bool.and_eq_true, Option.any_eq_true] at h
          obtain ⟨hisA, bound, hbound, hmeets⟩ := h
          refine ⟨hisA, fun f' hf' => ⟨bound, ?_, by simpa using hmeets⟩⟩
          rw [← Option.some.inj hf', hbound]
  · have hnot : ¬ ∀ name ∈ rule.declared, claims.has name = true :=
      fun hall => hdeclared (List.all_eq_true.2 hall)
    simp [hdeclared, hnot]

namespace Rule

mutual

/-- An id satisfies a rule for a type.  A negation looks at its first rule; a negation of nothing
is satisfied by nothing. -/
def Satisfies (g : Graph) (claims : Claims) (typeName id : String) : Rule → Prop
  | .role rule => rule.holds claims = true
  | .graph rule => rule.SatisfiedBy g claims typeName id
  | .combine .all rules => SatisfiesAll g claims typeName id rules
  | .combine .any rules => SatisfiesAny g claims typeName id rules
  | .combine .not [] => False
  | .combine .not (rule :: _) => ¬ Satisfies g claims typeName id rule

def SatisfiesAll (g : Graph) (claims : Claims) (typeName id : String) : List Rule → Prop
  | [] => True
  | r :: rs => Satisfies g claims typeName id r ∧ SatisfiesAll g claims typeName id rs

def SatisfiesAny (g : Graph) (claims : Claims) (typeName id : String) : List Rule → Prop
  | [] => False
  | r :: rs => Satisfies g claims typeName id r ∨ SatisfiesAny g claims typeName id rs

end

section Satisfying

variable {g : Graph} {claims : Claims} {typeName id : String}

mutual

/-- To satisfy a rule is to have the rule hold for the candidate, connective by connective. -/
theorem satisfies_iff : (rule : Rule) →
    (rule.Satisfies g claims typeName id ↔ rule.holdsFor g claims typeName id = true)
  | .role rule => by simp [Satisfies, holdsFor, holdsWith]
  | .graph rule => by rw [Satisfies, holdsFor, holdsWith, GraphRule.satisfiedBy_iff]
  | .combine .all rules => by rw [Satisfies, holdsFor, holdsWith, (satisfies_all_any rules).1]
  | .combine .any rules => by rw [Satisfies, holdsFor, holdsWith, (satisfies_all_any rules).2]
  | .combine .not [] => by simp [Satisfies, holdsFor, holdsWith]
  | .combine .not (rule :: _) => by
      rw [Satisfies, holdsFor, holdsWith, satisfies_iff rule, holdsFor]
      simp

/-- The same for the rules of a conjunction and those of a disjunction, both in one recursion. -/
theorem satisfies_all_any : (rules : List Rule) →
    (SatisfiesAll g claims typeName id rules ↔
        allHoldWith claims (coversFor g claims typeName id) rules = true) ∧
      (SatisfiesAny g claims typeName id rules ↔
        anyHoldsWith claims (coversFor g claims typeName id) rules = true)
  | [] => by simp [SatisfiesAll, SatisfiesAny, allHoldWith, anyHoldsWith]
  | r :: rs => by
      obtain ⟨hall, hany⟩ := satisfies_all_any rs
      have hr := satisfies_iff r
      rw [holdsFor] at hr
      simp only [SatisfiesAll, SatisfiesAny, allHoldWith, anyHoldsWith, hr, hall, hany,
        Bool.and_eq_true, Bool.or_eq_true, and_self]

end

theorem satisfiesAll_iff {rules : List Rule} : SatisfiesAll g claims typeName id rules ↔
    ∀ r ∈ rules, r.Satisfies g claims typeName id := by
  induction rules with
  | nil => simp [SatisfiesAll]
  | cons r rs ih => simp [SatisfiesAll, ih]

theorem satisfiesAny_iff {rules : List Rule} : SatisfiesAny g claims typeName id rules ↔
    ∃ r ∈ rules, r.Satisfies g claims typeName id := by
  induction rules with
  | nil => simp [SatisfiesAny]
  | cons r rs ih => simp [SatisfiesAny, ih]

end Satisfying

variable {t : Nat} {c : Client} {typeName : String} {candidates passed : List String} {l : Line}

/-! ### What passes is a set -/

/-- What passes a graph rule is a set: the ids that the store reports, in order and each once. -/
theorem yields_risingProbed (rule : GraphRule) (candidates : List String) :
    (graphPassing c rule typeName candidates).Yields Names.Rising := by
  unfold graphPassing
  cases rule.bind? c.request.claims with
  | none => exact Job.yields_pure List.Pairwise.nil
  | some filter =>
      exact Client.yields_call.bind fun hits _ => Job.yields_pure (Names.sorted_rising hits)

mutual

/-- Of a set of candidates a set passes. -/
theorem yields_rising : (rule : Rule) → (candidates : List String) → Names.Rising candidates →
    (rule.passing c typeName candidates).Yields Names.Rising
  | rule, candidates, hset => by
      unfold passing
      split
      · exact Job.yields_pure List.Pairwise.nil
      · match rule with
        | .role rule =>
            refine Job.yields_pure ?_
            split
            · exact hset
            · exact List.Pairwise.nil
        | .graph rule => exact yields_risingProbed rule candidates
        | .combine .all rules => exact yields_risingAll rules candidates hset
        | .combine .any rules => exact yields_risingAny rules candidates [] List.Pairwise.nil
        | .combine .not [] => exact Job.yields_fail
        | .combine .not (rule :: _) =>
            exact (yields_passing rule candidates).bind fun _ _ => Job.yields_pure (hset.filter _)

/-- What passes all of several rules is a set, if what goes in is one. -/
theorem yields_risingAll : (rules : List Rule) → (candidates : List String) →
    Names.Rising candidates → (passingAll c typeName rules candidates).Yields Names.Rising
  | [], candidates, hset => by
      unfold passingAll
      exact Job.yields_pure hset
  | rule :: rules, candidates, hset => by
      unfold passingAll
      exact (yields_rising rule candidates hset).bind fun remaining hremaining =>
        yields_risingAll rules remaining hremaining

/-- What passes some of several rules is a set, since what has passed is sorted again with every
rule. -/
theorem yields_risingAny : (rules : List Rule) → (pending passed : List String) →
    Names.Rising passed → (passingAny c typeName rules pending passed).Yields Names.Rising
  | [], pending, passed, hset => by
      unfold passingAny
      exact Job.yields_pure hset
  | rule :: rules, pending, passed, _ => by
      unfold passingAny
      exact (yields_passing rule pending).bind fun hits _ =>
        yields_risingAny rules _ _ (Names.sorted_rising _)

end

/-- **A check lets pass the candidates that satisfy the rule**, and no others. -/
theorem yields_satisfied (rule : Rule) (candidates : List String) :
    (rule.passing c typeName candidates).Yields fun passed => ∀ id, id ∈ passed ↔
      id ∈ candidates ∧ rule.Satisfies c.store.graph c.request.claims typeName id := by
  refine (yields_passing rule candidates).mono fun passed hpassed id => ?_
  rw [hpassed id, satisfies_iff]

/-! ### When a check is answered -/

/-- A probe is answered when it is for each candidate alone.  The filter is evaluated node by node,
and on each of them it was when the node was the only candidate. -/
theorem answers_graphPassing_of_each {rule : GraphRule} (hsome : candidates ≠ [])
    (h : ∀ id ∈ candidates, (graphPassing c rule typeName [id]).Answers t) :
    (graphPassing c rule typeName candidates).Answers t := by
  unfold graphPassing at h ⊢
  cases hbind : rule.bind? c.request.claims with
  | none => exact Job.answers_pure []
  | some filter =>
      rw [hbind] at h
      have heach : ∀ id ∈ candidates, (∃ hits, c.store.probe
          { typeName, filter := filter.getD (.isType typeName), candidates := some [id] } =
            .ok hits) ∧ c.request.isLive t = true := by
        intro id hid
        obtain ⟨hits, hhits, _⟩ := Job.Answers.of_bind (h id hid)
          (Client.withstands_probe c.calmed_self _) fun _ => Job.withstands_pure _
        obtain ⟨hanswer, hlive⟩ := Client.answer_of_prompt hhits
        exact ⟨⟨hits, hanswer⟩, hlive⟩
      have hnodes : ∀ n ∈ c.store.graph.among candidates, ∃ id, c.store.graph.probed?
          { typeName, filter := filter.getD (.isType typeName) } n = .ok id := by
        intro n hn
        obtain ⟨hstored, hid⟩ := Graph.mem_among_iff.1 hn
        obtain ⟨⟨hits, hhits⟩, _⟩ := heach n.id hid
        exact isOk_of_takeUpTo (Store.of_online hhits) n
          (Graph.mem_among_iff.2 ⟨hstored, List.mem_singleton_self _⟩)
      obtain ⟨id, hid⟩ := List.exists_mem_of_ne_nil candidates hsome
      obtain ⟨⟨_, hanswer⟩, hlive⟩ := heach id hid
      obtain ⟨hits, hhits⟩ := takeUpTo_isOk hnodes none
      have hprobe : c.store.probe
          { typeName, filter := filter.getD (.isType typeName), candidates := some candidates } =
            .ok hits := by
        rw [Store.probe, Store.online_eq (Store.offline_eq_false hanswer)]
        exact hhits
      exact Job.Prompt.answers_bind (Client.prompt_call hprobe hlive) (Job.answers_pure _)

/-- A candidate that passes together with others passes alone. -/
theorem mem_of_prompt_passing {rule : Rule} {id : String} {alone : List String}
    (hid : id ∈ candidates) (h : (rule.passing c typeName candidates).Prompt t (· = passed))
    (halone : (rule.passing c typeName [id]).Prompt t (· = alone)) : id ∈ passed ↔ id ∈ alone := by
  rw [(yields_passing rule candidates).of_prompt h id, (yields_passing rule [id]).of_prompt halone id]
  simp [hid]

mutual

/-- A check is answered when it is for each candidate alone. -/
theorem answers_passing_of_each : (rule : Rule) → (candidates : List String) →
    (∀ id ∈ candidates, (rule.passing c typeName [id]).Answers t) →
    (rule.passing c typeName candidates).Answers t
  | rule, candidates, h => by
      unfold passing at h ⊢
      by_cases hnone : candidates.isEmpty = true
      · rw [if_pos hnone]
        exact Job.answers_pure []
      · rw [if_neg hnone]
        simp only [List.isEmpty_cons, Bool.false_eq_true, if_false] at h
        match rule, h with
        | .role rule, _ => exact Job.answers_pure _
        | .graph rule, h =>
            exact answers_graphPassing_of_each (fun hnil => hnone (by simp [hnil])) h
        | .combine .all rules, h => exact answers_passingAll_of_each rules candidates h
        | .combine .any rules, h => exact answers_passingAny_of_each rules candidates [] h
        | .combine .not [], h =>
            obtain ⟨id, hid⟩ := List.exists_mem_of_ne_nil candidates
              fun hnil => hnone (by simp [hnil])
            exact absurd (h id hid) (Job.not_answers_fail _)
        | .combine .not (rule :: _), h =>
            obtain ⟨hits, hhits⟩ := answers_passing_of_each rule candidates fun id hid => by
              obtain ⟨alone, halone, _⟩ := Job.Answers.of_bind (h id hid)
                (withstands_passing c.calmed_self typeName rule [id]) fun _ => Job.withstands_pure _
              exact ⟨alone, halone⟩
            exact hhits.answers_bind (Job.answers_pure _)

/-- A conjunction can be answered for several candidates when it can for each of them alone.  With
others there, a rule is asked about more candidates at once, but about no candidate that it would
not be asked about alone. -/
theorem answers_passingAll_of_each : (rules : List Rule) → (candidates : List String) →
    (∀ id ∈ candidates, (passingAll c typeName rules [id]).Answers t) →
    (passingAll c typeName rules candidates).Answers t
  | [], candidates, _ => by
      unfold passingAll
      exact Job.answers_pure candidates
  | rule :: rules, candidates, h => by
      unfold passingAll at h ⊢
      have heach : ∀ id ∈ candidates, ∃ alone,
          (rule.passing c typeName [id]).Prompt t (· = alone) ∧
            (passingAll c typeName rules alone).Answers t := fun id hid =>
        Job.Answers.of_bind (h id hid) (withstands_passing c.calmed_self typeName rule [id])
          fun _ => withstands_passingAll c.calmed_self typeName rules _
      obtain ⟨remaining, hremaining⟩ := answers_passing_of_each rule candidates fun id hid => by
        obtain ⟨alone, halone, _⟩ := heach id hid
        exact ⟨alone, halone⟩
      refine hremaining.answers_bind (answers_passingAll_of_each rules remaining fun id hid => ?_)
      have hcandidate := (((yields_passing rule candidates).of_prompt hremaining id).1 hid).1
      obtain ⟨alone, halone, hrest⟩ := heach id hcandidate
      have hpasses := (mem_of_prompt_passing hcandidate hremaining halone).1 hid
      exact answers_passingAll_of_subset rules (by simpa using hpasses) hrest

/-- The same of a disjunction, where a candidate that has passed is not asked about any more. -/
theorem answers_passingAny_of_each : (rules : List Rule) → (pending passed : List String) →
    (∀ id ∈ pending, (passingAny c typeName rules [id] []).Answers t) →
    (passingAny c typeName rules pending passed).Answers t
  | [], pending, passed, _ => by
      unfold passingAny
      exact Job.answers_pure passed
  | rule :: rules, pending, passed, h => by
      unfold passingAny at h ⊢
      have heach : ∀ id ∈ pending, ∃ alone, (rule.passing c typeName [id]).Prompt t (· = alone) ∧
          (passingAny c typeName rules (without [id] alone) (Names.sorted ([] ++ alone))).Answers t :=
        fun id hid =>
          Job.Answers.of_bind (h id hid) (withstands_passing c.calmed_self typeName rule [id])
            fun _ => withstands_passingAny c.calmed_self typeName rules _ _
      obtain ⟨hits, hhits⟩ := answers_passing_of_each rule pending fun id hid => by
        obtain ⟨alone, halone, _⟩ := heach id hid
        exact ⟨alone, halone⟩
      refine hhits.answers_bind (answers_passingAny_of_each rules _ _ fun id hid => ?_)
      obtain ⟨hcandidate, hrefused⟩ := mem_without.1 hid
      obtain ⟨alone, halone, hrest⟩ := heach id hcandidate
      have hleft : id ∈ without [id] alone := mem_without.2 ⟨List.mem_singleton_self id,
        fun hpasses => hrefused ((mem_of_prompt_passing hcandidate hhits halone).2 hpasses)⟩
      exact answers_passingAny_of_subset rules (by simpa using hleft) hrest

end

/-- **A check is answered exactly when it is for each candidate alone.** -/
theorem answers_passing_iff {rule : Rule} : (rule.passing c typeName candidates).Answers t ↔
    ∀ id ∈ candidates, (rule.passing c typeName [id]).Answers t :=
  ⟨fun h _ hid => answers_passing_of_subset rule (by simpa using hid) h,
    answers_passing_of_each rule candidates⟩

/-! ### Runs -/

/-- A check among candidates, made on a line, ends with those that pass. -/
def Passes (c : Client) (typeName : String) (l : Line) (rule : Rule)
    (candidates passed : List String) : Prop :=
  ((rule.passing c typeName candidates).run l).1 = .ok passed

/-- Where the store works, a check that is answered ends with the candidates that satisfy the
rule. -/
theorem passes_iff (hl : l.faults = []) (hset : Names.Rising candidates) {rule : Rule} :
    Passes c typeName l rule candidates passed ↔
      (rule.passing c typeName candidates).Answers l.now ∧ Names.Rising passed ∧
        ∀ id, id ∈ passed ↔
          id ∈ candidates ∧ rule.Satisfies c.store.graph c.request.claims typeName id := by
  constructor
  · intro h
    have hself := withstands_passing (t := l.now) c.calmed_self typeName rule candidates
    exact ⟨⟨passed, hself.prompt_of_run ⟨rfl, hl⟩ h⟩,
      (yields_rising rule candidates hset).of_run h, (yields_satisfied rule candidates).of_run h⟩
  · rintro ⟨⟨ids, hids⟩, hrising, hmem⟩
    obtain ⟨_, rfl, hrun⟩ := hids.run hl
    have hsame := Names.rising_ext hrising ((yields_rising rule candidates hset).of_run hrun)
      fun id => (hmem id).trans ((yields_satisfied rule candidates).of_run hrun id).symm
    rw [Passes, hrun, hsame]

/-- A check that passes some candidates on a calm line is one that is answered. -/
theorem Passes.answers (hl : l.faults = []) {rule : Rule}
    (h : Passes c typeName l rule candidates passed) :
    (rule.passing c typeName candidates).Answers l.now :=
  ⟨passed, (withstands_passing c.calmed_self typeName rule candidates).prompt_of_run ⟨rfl, hl⟩ h⟩

/-- Rules that can each be checked can be checked one after the other, whatever has passed. -/
theorem answers_passingAny {rules : List Rule} : ∀ {pending passed : List String},
    pending ⊆ candidates → (∀ r ∈ rules, (r.passing c typeName candidates).Answers t) →
    (passingAny c typeName rules pending passed).Answers t := by
  induction rules with
  | nil =>
      intro pending passed _ _
      unfold passingAny
      exact Job.answers_pure passed
  | cons r rules ih =>
      intro pending passed hsubset hanswers
      unfold passingAny
      obtain ⟨hits, hhits⟩ := answers_passing_of_subset r hsubset (hanswers r List.mem_cons_self)
      refine hhits.answers_bind (ih (fun id hid => hsubset (mem_without.1 hid).1) fun r hr =>
        hanswers r (List.mem_cons_of_mem _ hr))

/-- A conjunction or a disjunction is answered when each of its rules is, on all candidates. -/
theorem answers_combine {op : Connective} (hop : op ≠ .not) {rules : List Rule}
    (hanswers : ∀ r ∈ rules, (r.passing c typeName candidates).Answers t) :
    ((combine op rules).passing c typeName candidates).Answers t := by
  unfold passing
  split
  · exact Job.answers_pure []
  · cases op with
    | all => exact answers_passingAll (List.Subset.refl _) hanswers
    | any => exact answers_passingAny (List.Subset.refl _) hanswers
    | not => exact absurd rfl hop

section Together

variable {rules : List Rule} {alone : Rule → List String}

/-- **A disjunction lets pass the union** of what its rules let pass. -/
theorem passes_any (hl : l.faults = []) (hset : Names.Rising candidates)
    (halone : ∀ r ∈ rules, Passes c typeName l r candidates (alone r)) :
    Passes c typeName l (.combine .any rules) candidates (Names.sorted (rules.flatMap alone)) := by
  refine (passes_iff hl hset).2 ⟨answers_combine (by decide) fun r hr => (halone r hr).answers hl,
    Names.sorted_rising _, fun id => ?_⟩
  have hpasses : ∀ r ∈ rules, (id ∈ alone r ↔
      id ∈ candidates ∧ r.Satisfies c.store.graph c.request.claims typeName id) :=
    fun r hr => (yields_satisfied r candidates).of_run (halone r hr) id
  rw [Names.mem_sorted, List.mem_flatMap, Satisfies, satisfiesAny_iff]
  constructor
  · rintro ⟨r, hr, hid⟩
    obtain ⟨hcandidate, hsatisfies⟩ := (hpasses r hr).1 hid
    exact ⟨hcandidate, r, hr, hsatisfies⟩
  · rintro ⟨hcandidate, r, hr, hsatisfies⟩
    exact ⟨r, hr, (hpasses r hr).2 ⟨hcandidate, hsatisfies⟩⟩

/-- **A conjunction lets pass the intersection** of what its rules let pass. -/
theorem passes_all (hl : l.faults = []) (hset : Names.Rising candidates)
    (halone : ∀ r ∈ rules, Passes c typeName l r candidates (alone r)) :
    Passes c typeName l (.combine .all rules) candidates
      (candidates.filter fun id => rules.all fun r => (alone r).contains id) := by
  refine (passes_iff hl hset).2 ⟨answers_combine (by decide) fun r hr => (halone r hr).answers hl,
    hset.filter _, fun id => ?_⟩
  rw [List.mem_filter, Satisfies, satisfiesAll_iff]
  refine and_congr_right fun hcandidate => ?_
  have hpasses : ∀ r ∈ rules, (id ∈ alone r ↔
      r.Satisfies c.store.graph c.request.claims typeName id) := by
    intro r hr
    rw [(yields_satisfied r candidates).of_run (halone r hr) id]
    simp [hcandidate]
  simp only [List.all_eq_true, List.contains_iff_mem]
  exact forall_congr' fun r => forall_congr' fun hr => hpasses r hr

end Together

/-- **A check may be made in parts**: it is answered when all parts are, and lets pass what they
do. -/
theorem passes_in_parts (hl : l.faults = []) {parts : List (List String)} {rule : Rule} :
    Passes c typeName l rule (Names.sorted parts.flatten) passed ↔
      ∃ alone : List String → List String,
        (∀ part ∈ parts, Passes c typeName l rule part (alone part)) ∧
          passed = Names.sorted (parts.flatMap alone) := by
  have hmem : ∀ {id}, id ∈ Names.sorted parts.flatten ↔ ∃ part ∈ parts, id ∈ part := by
    intro id
    rw [Names.mem_sorted, List.mem_flatten]
  have hunion : ∀ {alone : List String → List String},
      (∀ part ∈ parts, Passes c typeName l rule part (alone part)) → ∀ id,
        id ∈ Names.sorted (parts.flatMap alone) ↔ id ∈ Names.sorted parts.flatten ∧
          rule.Satisfies c.store.graph c.request.claims typeName id := by
    intro alone halone id
    rw [Names.mem_sorted, List.mem_flatMap, hmem]
    constructor
    · rintro ⟨part, hpart, hid⟩
      obtain ⟨hcandidate, hsatisfies⟩ := (yields_satisfied rule part).of_run (halone part hpart) id
        |>.1 hid
      exact ⟨⟨part, hpart, hcandidate⟩, hsatisfies⟩
    · rintro ⟨⟨part, hpart, hcandidate⟩, hsatisfies⟩
      exact ⟨part, hpart, ((yields_satisfied rule part).of_run (halone part hpart) id).2
        ⟨hcandidate, hsatisfies⟩⟩
  rw [passes_iff hl (Names.sorted_rising _)]
  constructor
  · rintro ⟨hanswers, hrising, hpassed⟩
    have heach : ∀ part, ∃ ids, part ∈ parts → Passes c typeName l rule part ids := by
      intro part
      by_cases hpart : part ∈ parts
      · have hsubset : part ⊆ Names.sorted parts.flatten := fun id hid => hmem.2 ⟨part, hpart, hid⟩
        obtain ⟨ids, hids⟩ := answers_passing_of_subset rule hsubset hanswers
        obtain ⟨_, rfl, hrun⟩ := hids.run hl
        exact ⟨_, fun _ => hrun⟩
      · exact ⟨[], fun h => absurd h hpart⟩
    obtain ⟨alone, halone⟩ := Classical.skolem.1 heach
    refine ⟨alone, halone, Names.rising_ext hrising (Names.sorted_rising _) fun id => ?_⟩
    rw [hpassed id, hunion halone id]
  · rintro ⟨alone, halone, rfl⟩
    refine ⟨answers_passing_iff.2 fun id hid => ?_, Names.sorted_rising _, hunion halone⟩
    obtain ⟨part, hpart, hcandidate⟩ := hmem.1 hid
    exact answers_passing_iff.1 ((halone part hpart).answers hl) id hcandidate

/-- **A check decides each candidate by itself**, unknown ids and nodes of other types included.
What passes are the candidates that satisfy the rule.  Hence a disjunction lets pass the union and
a conjunction the intersection of what their rules do, and a check that is made in parts ends as
it does in one.  Nor does it fail where the store can say of each node whether the graph rules
cover it, as long as every negation has a rule to negate. -/
theorem passes_each_alone (hl : l.faults = []) (hset : Names.Rising candidates) :
    (∀ rule passed, Passes c typeName l rule candidates passed → Names.Rising passed ∧
      ∀ id, id ∈ passed ↔
        id ∈ candidates ∧ rule.Satisfies c.store.graph c.request.claims typeName id) ∧
    (∀ rules alone, (∀ r ∈ rules, Passes c typeName l r candidates (alone r)) →
      Passes c typeName l (.combine .any rules) candidates (Names.sorted (rules.flatMap alone)) ∧
      Passes c typeName l (.combine .all rules) candidates
        (candidates.filter fun id => rules.all fun r => (alone r).contains id)) ∧
    (∀ rule passed (parts : List (List String)), candidates = Names.sorted parts.flatten →
      (Passes c typeName l rule candidates passed ↔ ∃ alone : List String → List String,
        (∀ part ∈ parts, Passes c typeName l rule part (alone part)) ∧
          passed = Names.sorted (parts.flatMap alone))) ∧
    ∀ rule : Rule, rule.Negates → c.store.offline = false → c.request.isLive l.now = true →
      rule.DecidedOn c.store.graph c.request.claims typeName →
      ∃ passed, Passes c typeName l rule candidates passed := by
  refine ⟨fun rule passed h => ((passes_iff hl hset).1 h).2, fun rules alone halone =>
    ⟨passes_any hl hset halone, passes_all hl hset halone⟩, ?_, ?_⟩
  · rintro rule passed parts rfl
    exact passes_in_parts hl
  · intro rule hnegates honline hlive hdecided
    obtain ⟨passed, _, hrun⟩ := (prompt_passing hnegates honline hlive hdecided candidates).run hl
    exact ⟨passed, hrun⟩

/-- What is asked about are an archived note, another one, a user, and an id that stands for
nothing.  The negation lets the last two pass, because no graph rule on notes covers them. -/
theorem passes_each_alone_notes :
    Passes ⟨notes, {}, {}⟩ "Note" {} unlessArchived ["n1", "n2", "u1", "x"] ["n2", "u1", "x"] ∧
      ¬ unlessArchived.Satisfies notes.graph Claims.none "Note" "n1" ∧
      unlessArchived.Satisfies notes.graph Claims.none "Note" "x" := by
  have hrun : ((unlessArchived.passing ⟨notes, {}, {}⟩ "Note" ["n1", "n2", "u1", "x"]).run
      {}).1.toOption = some ["n2", "u1", "x"] := by decide +kernel
  have hpasses : Passes ⟨notes, {}, {}⟩ "Note" {} unlessArchived ["n1", "n2", "u1", "x"]
      ["n2", "u1", "x"] := toOption_eq_some_iff.1 hrun
  have hset : Names.Rising ["n1", "n2", "u1", "x"] := by
    unfold Names.Rising
    decide +kernel
  obtain ⟨_, hmem⟩ := (passes_each_alone (l := {}) rfl hset).1 unlessArchived _ hpasses
  refine ⟨hpasses, fun hn1 => ?_, ?_⟩
  · have hpassed := (hmem "n1").2 ⟨by simp, hn1⟩
    simp at hpassed
  · exact ((hmem "x").1 (by simp)).2

end Rule

end GraphWarden
