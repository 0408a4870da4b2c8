import GraphWarden.Proofs.Rule.Narrowing

/-!
# Conjunctions of rules

Several rules are put together into one (`Schema.conjunction?`), and the one is then asked
like any rule: it becomes a filter, in which the filters of its parts are merged and
simplified, or it checks candidates, each part only those that are left.  Either way it says
what **its parts say when each is asked alone**:

* `selects?_conjunction` — a node is selected exactly when each part selects it;
* `passed_conjunction` — a candidate passes exactly when each part lets it pass.

Neither needs more than the parts do.  When each part can be read for a node, so can the
conjunction, although its filter is another one; and when each part can be checked for all
candidates, the conjunction can be, because it asks about fewer.
-/

namespace GraphWarden

namespace Rule

/-- Whether the rule, turned into a filter, selects a node; none when the store cannot
evaluate that filter. -/
def selects? (g : Graph) (claims : Claims) (n : Node) (rule : Rule) : Option Bool :=
  (rule.visibility true claims).toOption.bind fun v => v.read (Filter.verdict g n)

theorem allHoldWith_iff {claims : Claims} {leaf : GraphRule → Bool} {rules : List Rule} :
    allHoldWith claims leaf rules = true ↔ ∀ r ∈ rules, r.holdsWith claims leaf = true := by
  induction rules with
  | nil => simp [allHoldWith]
  | cons r rules ih => simp [allHoldWith, ih]

/-- A conjunction holds when each of its parts does. -/
theorem holdsWith_conjunction {claims : Claims} {leaf : GraphRule → Bool} {rules : List Rule}
    {rule : Rule} (hrule : Schema.conjunction? rules = some rule) :
    rule.holdsWith claims leaf = true ↔ ∀ r ∈ rules, r.holdsWith claims leaf = true := by
  unfold Schema.conjunction? at hrule
  split at hrule
  · simp at hrule
  · cases hrule
    simp
  · cases hrule
    exact allHoldWith_iff

section Selecting

variable {g : Graph} {claims : Claims} {n : Node}

/-- A rule that selects or does not select a node leaves something visible, which reads as that. -/
theorem exists_of_selects? {rule : Rule} {b : Bool} (h : rule.selects? g claims n = some b) :
    ∃ out, rule.visibility true claims = .ok out ∧ out.read (Filter.verdict g n) = some b := by
  obtain ⟨out, hout, hread⟩ := Option.bind_eq_some_iff.1 h
  exact ⟨out, toOption_eq_some_iff.1 hout, hread⟩

/-- The parts that were found so far are read first, and then the rules that are left, each as if
it were asked alone. -/
theorem allVisible_selects {rules : List Rule} : ∀ {parts : List Filter} {b : Bool},
    Filter.inTurn (Filter.verdict g n) false parts = some b →
    (∀ r ∈ rules, (r.selects? g claims n).isSome) →
    ∃ out, allVisible true claims parts rules = .ok out ∧
      out.read (Filter.verdict g n) =
        some (b && rules.all fun r => r.selects? g claims n = some true) := by
  induction rules with
  | nil =>
      intro parts b hb _
      refine ⟨_, by rw [allVisible], ?_⟩
      rw [read_ofAll (Filter.verdict_reading g n) hb]
      simp
  | cons r rules ih =>
      intro parts b hb hsome
      obtain ⟨c, hc⟩ := Option.isSome_iff_exists.1 (hsome r List.mem_cons_self)
      obtain ⟨here, hhere, hread⟩ := exists_of_selects? hc
      have hrest : ∀ r ∈ rules, (r.selects? g claims n).isSome :=
        fun r hr => hsome r (List.mem_cons_of_mem _ hr)
      have hsays : decide (r.selects? g claims n = some true) = c := by
        rw [hc]
        cases c <;> rfl
      rw [allVisible, hhere]
      simp only [List.all_cons, hsays]
      cases here with
      | denied =>
          -- nothing that follows is looked at
          have hfalse : c = false := (Option.some.inj hread).symm
          exact ⟨.denied, rfl, by simp [Visibility.read, hfalse]⟩
      | unrestricted =>
          have htrue : c = true := (Option.some.inj hread).symm
          obtain ⟨out, hout, hall⟩ := ih hb hrest
          exact ⟨out, hout, by rw [hall, htrue, Bool.true_and]⟩
      | restricted f =>
          have hf : Filter.verdict g n f = some c := hread
          have hparts : Filter.inTurn (Filter.verdict g n) false (parts ++ [f]) = some (b && c) := by
            rw [Filter.inTurn_append, hb, Filter.inTurn_singleton, hf]
            cases b <;> rfl
          obtain ⟨out, hout, hall⟩ := ih hparts hrest
          exact ⟨out, hout, by rw [hall, Bool.and_assoc]⟩

/-- **A conjunction selects the nodes that each of its parts selects.** -/
theorem selects?_conjunction {rules : List Rule} {rule : Rule}
    (hrule : Schema.conjunction? rules = some rule)
    (hsome : ∀ r ∈ rules, (r.selects? g claims n).isSome) :
    rule.selects? g claims n = some (rules.all fun r => r.selects? g claims n = some true) := by
  unfold Schema.conjunction? at hrule
  split at hrule
  · simp at hrule
  · cases hrule
    obtain ⟨b, hb⟩ := Option.isSome_iff_exists.1 (hsome rule List.mem_cons_self)
    rw [hb]
    cases b <;> simp [hb]
  · cases hrule
    have hnone : Filter.inTurn (Filter.verdict g n) false [] = some true := rfl
    obtain ⟨out, hout, hread⟩ := allVisible_selects hnone hsome
    rw [selects?, visibility, hout]
    rw [Bool.true_and] at hread
    exact hread

end Selecting

section Checking

variable {t : Nat} {c : Client} {typeName : String} {candidates : List String}

/-- Rules that can each be checked can be checked one after the other. -/
theorem answers_passingAll {rules : List Rule} : ∀ {remaining : List String},
    remaining ⊆ candidates → (∀ r ∈ rules, (r.passing c typeName candidates).Answers t) →
    (passingAll c typeName rules remaining).Answers t := by
  induction rules with
  | nil =>
      intro remaining _ _
      unfold passingAll
      exact Job.answers_pure remaining
  | cons r rules ih =>
      intro remaining hsubset hanswers
      unfold passingAll
      obtain ⟨passed, hpassed⟩ :=
        answers_passing_of_subset r hsubset (hanswers r List.mem_cons_self)
      refine hpassed.answers_bind (ih (fun id hid => hsubset ?_) fun r hr =>
        hanswers r (List.mem_cons_of_mem _ hr))
      exact (((yields_passing r remaining).of_prompt hpassed id).1 hid).1

/-- A conjunction can be checked among the candidates when each of its rules can.  The later rules
are only asked about those that are left, and that is never harder (`answers_passing_of_subset`).
-/
theorem answers_passing_conjunction {rules : List Rule} {rule : Rule}
    (hrule : Schema.conjunction? rules = some rule)
    (hanswers : ∀ r ∈ rules, (r.passing c typeName candidates).Answers t) :
    (rule.passing c typeName candidates).Answers t := by
  unfold Schema.conjunction? at hrule
  split at hrule
  · simp at hrule
  · cases hrule
    exact hanswers rule List.mem_cons_self
  · cases hrule
    unfold passing
    split
    · exact Job.answers_pure []
    · exact answers_passingAll (List.Subset.refl _) hanswers

/-- A conjunction holds for a node when each of its rules holds. -/
theorem holdsFor_conjunction {g : Graph} {claims : Claims} {id : String} {rules : List Rule}
    {rule : Rule} (hrule : Schema.conjunction? rules = some rule) :
    rule.holdsFor g claims typeName id = true ↔
      ∀ r ∈ rules, r.holdsFor g claims typeName id = true :=
  holdsWith_conjunction hrule

/-- **A conjunction lets pass the candidates that each of its parts lets pass**, on a store
that works; and it can be checked when each of its parts can. -/
theorem passed_conjunction {rules : List Rule} {rule : Rule}
    (hrule : Schema.conjunction? rules = some rule) {l : Line} (hl : l.faults = [])
    (hparts : ∀ r ∈ rules, ∃ passed, ((r.passing c typeName candidates).run l).1 = .ok passed) :
    ∃ passed, ((rule.passing c typeName candidates).run l).1 = .ok passed ∧
      ∀ id, id ∈ passed ↔ ∀ r ∈ rules, ∃ alone,
        ((r.passing c typeName candidates).run l).1 = .ok alone ∧ id ∈ alone := by
  have hanswers : ∀ r ∈ rules, (r.passing c typeName candidates).Answers l.now := by
    intro r hr
    obtain ⟨passed, hpassed⟩ := hparts r hr
    have hself := withstands_passing (t := l.now) c.calmed_self typeName r candidates
    exact ⟨passed, hself.prompt_of_run ⟨rfl, hl⟩ hpassed⟩
  obtain ⟨passed, hpassed⟩ := answers_passing_conjunction hrule hanswers
  obtain ⟨_, rfl, hrun⟩ := hpassed.run hl
  refine ⟨_, hrun, fun id => ?_⟩
  rw [(yields_passing rule candidates).of_run hrun id, holdsFor_conjunction hrule]
  constructor
  · rintro ⟨hcandidate, hholds⟩ r hr
    obtain ⟨alone, halone⟩ := hparts r hr
    exact ⟨alone, halone, ((yields_passing r candidates).of_run halone id).2
      ⟨hcandidate, hholds r hr⟩⟩
  · intro hall
    have hpasses : ∀ r ∈ rules, id ∈ candidates ∧
        r.holdsFor c.store.graph c.request.claims typeName id := by
      intro r hr
      obtain ⟨alone, halone, hid⟩ := hall r hr
      exact ((yields_passing r candidates).of_run halone id).1 hid
    have hsome : ∃ r, r ∈ rules := by
      cases rules with
      | nil => simp [Schema.conjunction?] at hrule
      | cons r rules => exact ⟨r, List.mem_cons_self⟩
    obtain ⟨r, hr⟩ := hsome
    exact ⟨(hpasses r hr).1, fun r hr => (hpasses r hr).2⟩

end Checking

end Rule

end GraphWarden
