import GraphWarden.Proofs.Rule.Definite
import GraphWarden.Proofs.Rule.Narrowing

/-!
# Checks that are answered

A check among given nodes is put together of probes, one for each graph rule.  Where the store
works, the request is live, and the store can say of each node that may be asked about whether
each graph rule covers it (`Rule.DecidedOn`), every probe is answered at once, and so is the
check: **it lets pass the nodes for which the rule holds** (`Rule.prompt_passing`).
-/

namespace GraphWarden.Rule

/-- Whether the store can say of every stored node of a type whether the graph rules of a rule
cover it. -/
def DecidedOn (g : Graph) (claims : Claims) (typeName : String) (rule : Rule) : Prop :=
  ∀ part ∈ rule.graphRules, ∀ n ∈ g.toList, n.isA typeName = true → part.Decided g claims n

variable {t : Nat} {c : Client} {typeName : String}

/-- A probe is answered when its filter can be evaluated on every stored node of its type. -/
theorem answers_probe {p : Probe} (honline : c.store.offline = false)
    (hlive : c.request.isLive t = true)
    (haccepts : ∀ n ∈ c.store.graph.toList, n.isA p.typeName = true →
      ∃ b, p.filter.accepts c.store.graph n = .ok b) : (c.probe p).Answers t := by
  have hanswer : ∃ hits, c.store.graph.probe p = .ok hits := by
    unfold Graph.probe
    cases p.candidates with
    | none => exact takeUpTo_isOk (fun n hn => guarded_isOk (haccepts n hn) ⟨_, rfl⟩) p.limit
    | some candidates =>
        exact takeUpTo_isOk (fun n hn => guarded_isOk (haccepts n (Graph.mem_among_iff.1 hn).1)
          ⟨_, rfl⟩) p.limit
  obtain ⟨hits, hhits⟩ := hanswer
  have hprobe : c.store.probe p = .ok hits := by
    rw [Store.probe, Store.online_eq honline, hhits]
  exact ⟨hits, Client.prompt_call hprobe hlive⟩

/-- The filter of a graph rule, if it has one, can be evaluated where the rule is decided. -/
theorem exists_accepts_of_decided {g : Graph} {claims : Claims} {rule : GraphRule} {n : Node}
    (h : rule.Decided g claims n) {filter : Option Filter}
    (hbind : rule.bind? claims = some filter) (typeName : String) :
    ∃ b, (filter.getD (.isType typeName)).accepts g n = .ok b := by
  cases filter with
  | none => exact ⟨n.isA typeName, by rw [Option.getD_none, Filter.accepts]⟩
  | some f => exact h f hbind

/-- A probe for a graph rule is answered. -/
theorem answers_graphPassing {rule : GraphRule} (honline : c.store.offline = false)
    (hlive : c.request.isLive t = true)
    (hdecided : ∀ n ∈ c.store.graph.toList, n.isA typeName = true →
      rule.Decided c.store.graph c.request.claims n) (candidates : List String) :
    (graphPassing c rule typeName candidates).Answers t := by
  unfold graphPassing
  cases hbind : rule.bind? c.request.claims with
  | none => exact Job.answers_pure []
  | some filter =>
      obtain ⟨hits, hhits⟩ := answers_probe (c := c) (t := t)
        (p := { typeName, filter := filter.getD (.isType typeName), candidates := some candidates })
        honline hlive fun n hn hisA => exists_accepts_of_decided (hdecided n hn hisA) hbind typeName
      exact hhits.answers_bind (Job.answers_pure _)

mutual

/-- **A check is answered** when each of its probes is. -/
theorem answers_passing_of_probes : (rule : Rule) → rule.Negates →
    (∀ part ∈ rule.graphRules, ∀ ids, (graphPassing c part typeName ids).Answers t) →
    (candidates : List String) → (rule.passing c typeName candidates).Answers t
  | rule, hnegates, hparts, candidates => by
      unfold passing
      by_cases hnone : candidates.isEmpty = true
      · rw [if_pos hnone]
        exact Job.answers_pure []
      · rw [if_neg hnone]
        match rule, hnegates, hparts with
        | .role rule, _, _ => exact Job.answers_pure _
        | .graph rule, _, hparts => exact hparts rule (by simp [graphRules]) candidates
        | .combine .all rules, hnegates, hparts =>
            exact answers_passingAll_of_probes rules (by simpa [Negates] using hnegates)
              (by simpa [graphRules] using hparts) candidates
        | .combine .any rules, hnegates, hparts =>
            exact answers_passingAny_of_probes rules (by simpa [Negates] using hnegates)
              (by simpa [graphRules] using hparts) candidates []
        | .combine .not [], hnegates, _ => simp [Negates] at hnegates
        | .combine .not (rule :: rules), hnegates, hparts =>
            have hrule : rule.Negates := by
              simp only [Negates, AllNegate] at hnegates
              exact hnegates.1
            obtain ⟨hits, hhits⟩ := answers_passing_of_probes rule hrule
              (fun part hpart => hparts part (by simp [graphRules, graphRulesOf, hpart])) candidates
            exact hhits.answers_bind (Job.answers_pure _)

/-- A conjunction is answered when each probe of a graph rule in it is, among whatever nodes. -/
theorem answers_passingAll_of_probes : (rules : List Rule) → AllNegate rules →
    (∀ part ∈ graphRulesOf rules, ∀ ids, (graphPassing c part typeName ids).Answers t) →
    (candidates : List String) → (passingAll c typeName rules candidates).Answers t
  | [], _, _, candidates => by
      unfold passingAll
      exact Job.answers_pure candidates
  | rule :: rules, hnegates, hparts, candidates => by
      unfold passingAll
      obtain ⟨remaining, hremaining⟩ := answers_passing_of_probes rule hnegates.1
        (fun part hpart => hparts part (by simp [graphRulesOf, hpart])) candidates
      exact hremaining.answers_bind (answers_passingAll_of_probes rules hnegates.2
        (fun part hpart => hparts part (by simp [graphRulesOf, hpart])) remaining)

/-- A disjunction, which asks each of its rules about the nodes that none in front of it let pass,
is answered when each probe of a graph rule in it is. -/
theorem answers_passingAny_of_probes : (rules : List Rule) → AllNegate rules →
    (∀ part ∈ graphRulesOf rules, ∀ ids, (graphPassing c part typeName ids).Answers t) →
    (pending passed : List String) → (passingAny c typeName rules pending passed).Answers t
  | [], _, _, _, passed => by
      unfold passingAny
      exact Job.answers_pure passed
  | rule :: rules, hnegates, hparts, pending, passed => by
      unfold passingAny
      obtain ⟨hits, hhits⟩ := answers_passing_of_probes rule hnegates.1
        (fun part hpart => hparts part (by simp [graphRulesOf, hpart])) pending
      exact hhits.answers_bind (answers_passingAny_of_probes rules hnegates.2
        (fun part hpart => hparts part (by simp [graphRulesOf, hpart])) _ _)

end

/-- **A check lets pass at once the candidates for which the rule holds.** -/
theorem prompt_passing {rule : Rule} (hnegates : rule.Negates) (honline : c.store.offline = false)
    (hlive : c.request.isLive t = true)
    (hdecided : rule.DecidedOn c.store.graph c.request.claims typeName)
    (candidates : List String) :
    (rule.passing c typeName candidates).Prompt t fun ids => ∀ id, id ∈ ids ↔
      id ∈ candidates ∧ rule.holdsFor c.store.graph c.request.claims typeName id := by
  have hanswers : (rule.passing c typeName candidates).Answers t :=
    answers_passing_of_probes rule hnegates
      (fun part hpart => answers_graphPassing honline hlive (hdecided part hpart)) candidates
  obtain ⟨ids, hids⟩ := hanswers
  have hmem := (yields_passing rule candidates).of_prompt hids
  intro l hl
  obtain ⟨l', x, hcalm, rfl, hjob⟩ := hids l hl
  exact ⟨l', x, hcalm, hmem, hjob⟩

end GraphWarden.Rule
