import GraphWarden.Proofs.Rule.Answered
import GraphWarden.Proofs.Warden.PasswordCheck
import GraphWarden.Proofs.Warden.Refusal

/-!
# Asking for a filter and asking at the gate

What a type's rules say can be asked for in two ways: as what they leave visible, to be
evaluated by the store, or at the gate, as the nodes among given ones that they let pass.

The first way goes by the rule that governs the operation, the second one by the effective rule
for the operation alone, so that at the gate nothing stands in for a password rule that nobody
declared.  **The two ways select the same nodes exactly when that makes no difference**
(`modes_agree_iff`): when the request is refused in both, when the operation is another one,
when a password rule is declared, or when the query rule holds for every stored node of the
type.  Bots without a password rule show the difference (`portal_gate_lets_all_pass`).
-/

namespace GraphWarden

/-! ### Nodes of a type that are picked -/

namespace Graph

variable {g : Graph} {typeName : String} {p p' : Node → Bool} {ids ids' : List String}

/-- The ids of the stored nodes of a type. -/
def idsOf (g : Graph) (typeName : String) : List String :=
  (g.toList.filter fun n => n.isA typeName).map Node.id

/-- The ids are those of the stored nodes of a type that have a property. -/
def Picks (g : Graph) (typeName : String) (p : Node → Bool) (ids : List String) : Prop :=
  ∀ id, id ∈ ids ↔ ∃ n ∈ g.toList, n.isA typeName = true ∧ p n = true ∧ n.id = id

/-- Ids are picked by a property when they are those of the nodes of the type that have it. -/
theorem Picks.mem_iff (h : g.Picks typeName p ids) {n : Node} (hn : n ∈ g.toList)
    (hisA : n.isA typeName = true) : n.id ∈ ids ↔ p n = true := by
  constructor
  · intro hid
    obtain ⟨m, hm, _, hp, hmid⟩ := (h n.id).1 hid
    have hsame : m = n := by
      have hfind := mem_toList_iff.1 hm
      rw [hmid, mem_toList_iff.1 hn] at hfind
      exact (Option.some.inj hfind).symm
    exact hsame ▸ hp
  · intro hp
    exact (h n.id).2 ⟨n, hn, hisA, hp, rfl⟩

/-- The same nodes are picked exactly when the properties agree on the nodes of the type. -/
theorem Picks.same_iff (h : g.Picks typeName p ids) (h' : g.Picks typeName p' ids') :
    (∀ id, id ∈ ids ↔ id ∈ ids') ↔
      ∀ n ∈ g.toList, n.isA typeName = true → (p n = true ↔ p' n = true) := by
  constructor
  · intro hsame n hn hisA
    rw [← h.mem_iff hn hisA, ← h'.mem_iff hn hisA, hsame]
  · intro hagree id
    rw [h, h']
    constructor
    · rintro ⟨n, hn, hisA, hp, hid⟩
      exact ⟨n, hn, hisA, (hagree n hn hisA).1 hp, hid⟩
    · rintro ⟨n, hn, hisA, hp, hid⟩
      exact ⟨n, hn, hisA, (hagree n hn hisA).2 hp, hid⟩

end Graph

/-- Whether a rule that may be missing holds for a node; a missing rule does. -/
def Rule.holdsIfAny (g : Graph) (claims : Claims) (rule : Option Rule) (n : Node) : Bool :=
  rule.all fun rule => rule.holdsWith claims (GraphRule.covers g claims n)

/-! ### The filter -/

namespace Schema

variable {s : Schema} {complement : Bool} {g : Graph} {claims : Claims} {typeName : String}
  {op : Operation} {out : Visibility}

/-- What may be seen of a type holds for the nodes for which the governing rule does. -/
theorem meets_of_outcome (hopen : s.refuses claims = false)
    (h : s.outcome complement claims op typeName = .ok out) (n : Node) :
    (out.toFilter.all fun f => f.meets g n) =
      Rule.holdsIfAny g claims (s.governingRule? typeName op) n := by
  unfold outcome at h
  rw [hopen] at h
  cases hrule : s.governingRule? typeName op with
  | none =>
      rw [hrule] at h
      cases h
      rfl
  | some rule =>
      rw [hrule] at h
      exact Rule.meets_of_visibility (g := g) (n := n) h

/-- The store can evaluate what may be seen of a type, when it can evaluate the filters of the
graph rules. -/
theorem decides_of_outcome (hopen : s.refuses claims = false)
    (h : s.outcome complement claims op typeName = .ok out)
    (hdecided : ∀ rule, s.governingRule? typeName op = some rule →
      rule.DecidedOn g claims typeName)
    {n : Node} (hn : n ∈ g.toList) (hisA : n.isA typeName = true) : g.Decides out.toFilter n := by
  unfold outcome at h
  rw [hopen] at h
  cases hrule : s.governingRule? typeName op with
  | none =>
      rw [hrule] at h
      cases h
      exact ⟨true, rfl⟩
  | some rule =>
      rw [hrule] at h
      have hread := Rule.verdict_of_visibility (g := g) (n := n)
        (fun part hpart => hdecided rule hrule part hpart n hn hisA) h
      exact Visibilities.ofOption_verdict_isSome.1
        ⟨_, (Visibility.ofOption_toFilter (Filter.verdict_reading g n) out).trans hread⟩

/-- The store selects the nodes for which the governing rule holds. -/
theorem exists_selected (hopen : s.refuses claims = false)
    (h : s.outcome complement claims op typeName = .ok out)
    (hdecided : ∀ rule, s.governingRule? typeName op = some rule →
      rule.DecidedOn g claims typeName) :
    ∃ records, g.execute { typeName, filter := out.toFilter } = .ok records ∧
      g.Picks typeName (Rule.holdsIfAny g claims (s.governingRule? typeName op))
        (records.map Record.id) := by
  obtain ⟨records, hrecords⟩ := Graph.execute_isOk
    (g := g) (q := { typeName, filter := out.toFilter })
    (fun n hn hisA => decides_of_outcome hopen h hdecided hn hisA) trivial
  refine ⟨records, hrecords, fun id => ?_⟩
  have hselected := Graph.execute_eq hrecords
  simp only [upTo, meets_of_outcome hopen h] at hselected
  simp [hselected, Graph.shownRecord, and_assoc]

/-- At the gate another rule is asked only where no password rule is declared. -/
theorem rule?_eq_governingRule? (s : Schema) (typeName : String) {op : Operation}
    (h : op = .password → s.rule? typeName .password ≠ none) :
    s.rule? typeName op = s.governingRule? typeName op := by
  unfold governingRule? passwordRule?
  by_cases hop : op = .password
  · rw [if_pos hop, hop]
    cases hrule : s.rule? typeName .password with
    | none => exact absurd hrule (h hop)
    | some rule => rfl
  · rw [if_neg hop]

end Schema

/-! ### The gate -/

/-- At the gate those of the stored nodes of a type pass for which the rule holds.  Where there is
no rule all of them do, and nothing is asked of the store. -/
theorem Rule.exists_passed (rule : Option Rule) (typeName : String) {c : Client} {l : Line}
    (honline : c.store.offline = false) (hlive : c.request.isLive l.now = true)
    (hfaults : l.faults = []) (hnegates : ∀ r, rule = some r → r.Negates)
    (hdecided : ∀ r, rule = some r → r.DecidedOn c.store.graph c.request.claims typeName) :
    ∃ passed, ((Rule.evaluate c rule
        (.gate typeName (some (c.store.graph.idsOf typeName)))).run l).1 = .ok (.passed passed) ∧
      c.store.graph.Picks typeName
        (Rule.holdsIfAny c.store.graph c.request.claims rule) passed := by
  cases rule with
  | none =>
      refine ⟨Names.sorted (c.store.graph.idsOf typeName), rfl, fun id => ?_⟩
      rw [Names.mem_sorted]
      simp [Graph.idsOf, Rule.holdsIfAny, and_assoc]
  | some rule =>
      have hprompt := Rule.prompt_passing (hnegates rule rfl) honline hlive (hdecided rule rfl)
        (Names.sorted (c.store.graph.idsOf typeName))
      have hanswer : (Rule.evaluate c (some rule)
          (.gate typeName (some (c.store.graph.idsOf typeName)))).Prompt l.now fun verdict =>
            ∃ passed, verdict = .passed passed ∧ ∀ id, id ∈ passed ↔
              id ∈ Names.sorted (c.store.graph.idsOf typeName) ∧
                rule.holdsFor c.store.graph c.request.claims typeName id :=
        hprompt.bind fun passed hpassed => Job.prompt_pure ⟨passed, rfl, hpassed⟩
      obtain ⟨_, ⟨passed, rfl, hmem⟩, hrun⟩ := hanswer.run hfaults
      refine ⟨passed, hrun, fun id => ?_⟩
      rw [hmem, Names.mem_sorted]
      constructor
      · rintro ⟨hid, hholds⟩
        obtain ⟨n, hn, rfl⟩ := List.mem_map.1 hid
        obtain ⟨hstored, hisA⟩ := List.mem_filter.1 hn
        rw [Rule.holdsFor_of_isA hstored hisA] at hholds
        exact ⟨n, hstored, hisA, hholds, rfl⟩
      · rintro ⟨n, hn, hisA, hholds, rfl⟩
        refine ⟨List.mem_map_of_mem (List.mem_filter.2 ⟨hn, hisA⟩), ?_⟩
        rw [Rule.holdsFor_of_isA hn hisA]
        exact hholds

/-! ### The warden -/

namespace Warden

variable {w : Warden} {s : Schema} {r : Request} {typeName : String} {op : Operation}

/-- Asked for a filter, a warden gives the outcome of the type. -/
theorem perform_evaluate_filter (hw : Ready s r.claims w) (typeName : String) (op : Operation) :
    (w.perform (evaluate r typeName op .filter)).1 =
      (s.outcome w.store.complement r.claims op typeName).map .visible := by
  obtain ⟨w', hvisibility, _⟩ := perform_visibility hw typeName op
  unfold evaluate
  rw [perform_bind_ok (perform_schema hw.current)]
  simp only
  rw [perform_bind, hvisibility]
  cases s.outcome w.store.complement r.claims op typeName with
  | error problem => rfl
  | ok out => rfl

/-- At the gate a warden asks the effective rule for the operation. -/
theorem perform_evaluate_gate (hcurrent : w.catalog.current = some s)
    (hopen : s.refuses r.claims = false) (ids : List String) :
    (w.perform (evaluate r typeName op (.gate typeName (some ids)))).1 =
      ((Rule.evaluate ⟨w.store, w.policy, r⟩ (s.rule? typeName op)
        (.gate typeName (some ids))).run w.line).1 := by
  unfold evaluate
  rw [perform_bind_ok (perform_schema hcurrent)]
  simp only [hopen, Bool.false_eq_true, if_false]
  exact perform_ask r _

/-- **The two ways of asking agree exactly when no missing password rule is made up for.**  Each
way gives an answer, where filters can be negated and evaluated and the store works.  The nodes
of a type that the filter selects are those that pass at the gate, unless the claims are not
refused, the operation is checking a password, nothing in the hierarchy declares a password
rule, and the query rule does not hold for some stored node of the type. -/
theorem modes_agree_iff (typeName : String) (op : Operation)
    (hcurrent : w.catalog.current = some s) (haccepted : s.Accepted)
    (hfaithful : w.Faithful r.claims) (hcomplement : w.store.complement = true)
    (honline : w.store.offline = false) (hfaults : w.line.faults = [])
    (hlive : r.isLive w.line.now = true)
    (hdecided : ∀ rule, s.governingRule? typeName op = some rule →
      rule.DecidedOn w.store.graph r.claims typeName) :
    ∃ out records passed,
      (w.perform (evaluate r typeName op .filter)).1 = .ok (.visible out) ∧
      w.store.execute { typeName, filter := out.toFilter } = .ok records ∧
      (w.perform (evaluate r typeName op
        (.gate typeName (some (w.store.graph.idsOf typeName))))).1 = .ok (.passed passed) ∧
      ((∀ id, id ∈ passed ↔ id ∈ records.map Record.id) ↔
        (s.refuses r.claims = false → op = .password → s.rule? typeName .password = none →
          ∀ n ∈ w.store.graph.toList, n.isA typeName = true →
            Rule.holdsIfAny w.store.graph r.claims (s.rule? typeName .query) n = true)) := by
  have hs := haccepted.sound
  have hw : Ready s r.claims w := ⟨hcurrent, fun _ => hfaithful⟩
  cases hrefuses : s.refuses r.claims with
  | true =>
      obtain ⟨hfilter, _, hgate⟩ := evaluate_of_refused hcurrent hrefuses typeName op typeName
        (w.store.graph.idsOf typeName)
      have hnothing :
          w.store.execute { typeName, filter := Visibility.denied.toFilter } = .ok [] := by
        rw [Store.execute, Store.online_eq honline]
        exact Graph.execute_of_nothing _ rfl
      exact ⟨.denied, [], [], hfilter, hnothing, hgate, by simp⟩
  | false =>
      obtain ⟨out, hout⟩ := hs.outcome_isOk r.claims op typeName
      have hfilter := perform_evaluate_filter hw typeName op
      rw [hcomplement, hout] at hfilter
      obtain ⟨records, hrecords, hselected⟩ := Schema.exists_selected hrefuses hout hdecided
      have hgoverns : ∀ rule, s.rule? typeName op = some rule →
          s.governingRule? typeName op = some rule := by
        intro rule hrule
        rw [← Schema.rule?_eq_governingRule?, hrule]
        rintro rfl
        simp [hrule]
      obtain ⟨passed, hpassed, hpicked⟩ := Rule.exists_passed (s.rule? typeName op) typeName
        (c := ⟨w.store, w.policy, r⟩) honline hlive hfaults
        (fun rule hrule => hs.rules_negate typeName op rule hrule)
        fun rule hrule => hdecided rule (hgoverns rule hrule)
      refine ⟨out, records, passed, hfilter, ?_, ?_, ?_⟩
      · rw [Store.execute, Store.online_eq honline, hrecords]
      · rw [perform_evaluate_gate hcurrent hrefuses, hpassed]
      · rw [hpicked.same_iff hselected]
        by_cases hmissing : op = .password ∧ s.rule? typeName .password = none
        · -- nothing is asked at the gate, and the filter is the one of the query rule
          obtain ⟨rfl, hnone⟩ := hmissing
          have hgoverning : s.governingRule? typeName .password = s.rule? typeName .query := by
            simp [Schema.governingRule?, Schema.passwordRule?, hnone]
          rw [hgoverning, hnone]
          simp [Rule.holdsIfAny]
        · have hsame := Schema.rule?_eq_governingRule? s typeName
            fun hop hnone => hmissing ⟨hop, hnone⟩
          rw [hsame]
          simp only [implies_true, true_iff]
          exact fun _ hop hnone => absurd ⟨hop, hnone⟩ hmissing

/-- Bots have a query rule and no password rule: of the two bots the filter selects the public
one, and at the gate both pass. -/
theorem portal_gate_lets_all_pass :
    ∃ s out records, portal.catalog.current = some s ∧ s.Accepted ∧
      (s.find? "Bot").any (fun info => info.kind = .object) = true ∧
      s.refuses Claims.none = false ∧
      (portal.perform (evaluate {} "Bot" .password .filter)).1 = .ok (.visible out) ∧
      portal.store.execute { typeName := "Bot", filter := out.toFilter } = .ok records ∧
      (portal.perform (evaluate {} "Bot" .password
        (.gate "Bot" (some (portal.store.graph.idsOf "Bot"))))).1 = .ok (.passed ["b1", "b2"]) ∧
      records.map Record.id = ["b1"] := by
  have hschema : ((Catalog.empty.next accounts).toOption.any fun s =>
      (s.find? "Bot").any (fun info => info.kind = .object) && !s.refuses Claims.none) = true := by
    decide +kernel
  have hfilter : ((portal.perform (evaluate {} "Bot" .password .filter)).1.toOption.any fun
      | .visible out => (portal.store.execute
          { typeName := "Bot", filter := out.toFilter }).toOption.any fun records =>
            records.map Record.id = ["b1"]
      | _ => false) = true := by
    decide +kernel
  have hgate : ((portal.perform (evaluate {} "Bot" .password
      (.gate "Bot" (some (portal.store.graph.idsOf "Bot"))))).1.toOption.any fun
        | .passed passed => passed = ["b1", "b2"]
        | _ => false) = true := by
    decide +kernel
  obtain ⟨s, hnext, hschema⟩ := (Option.any_eq_true _ _).1 hschema
  obtain ⟨hobject, hopen⟩ := (Bool.and_eq_true _ _).mp hschema
  rw [toOption_eq_some_iff] at hnext
  obtain ⟨verdict, hvisible, hselected⟩ := (Option.any_eq_true _ _).1 hfilter
  obtain ⟨verdict', hpassed, hlisted⟩ := (Option.any_eq_true _ _).1 hgate
  rw [toOption_eq_some_iff] at hvisible hpassed
  split at hselected
  · next out =>
      split at hlisted
      · next passed =>
          obtain ⟨records, hrecords, hids⟩ := (Option.any_eq_true _ _).1 hselected
          rw [toOption_eq_some_iff] at hrecords
          have hall : passed = ["b1", "b2"] := by simpa using hlisted
          refine ⟨s, out, records, by simp [portal, Catalog.load, hnext],
            ⟨Catalog.empty, accounts, hnext⟩, hobject, by simpa using hopen, hvisible, hrecords,
            hall ▸ hpassed, by simpa using hids⟩
      · simp at hlisted
  · simp at hselected

/-- Users have a password rule, and both ways select the active one. -/
theorem portal_modes_agree :
    ∃ out records passed,
      (portal.perform (evaluate {} "User" .password .filter)).1 = .ok (.visible out) ∧
      portal.store.execute { typeName := "User", filter := out.toFilter } = .ok records ∧
      (portal.perform (evaluate {} "User" .password
        (.gate "User" (some (portal.store.graph.idsOf "User"))))).1 = .ok (.passed passed) ∧
      ∀ id, id ∈ passed ↔ id ∈ records.map Record.id := by
  have hschema : ((Catalog.empty.next accounts).toOption.any fun s =>
      (s.rule? "User" .password).isSome &&
        (s.governingRule? "User" .password).all fun rule => rule.graphRules.all fun part =>
          members.toList.all fun n => (part.bind? Claims.none).all fun f => f.all fun f =>
            (f.accepts members n).isOk) = true := by
    decide +kernel
  obtain ⟨s, hnext, hschema⟩ := (Option.any_eq_true _ _).1 hschema
  obtain ⟨hdeclared, hdecided⟩ := (Bool.and_eq_true _ _).mp hschema
  rw [toOption_eq_some_iff] at hnext
  have hcurrent : portal.catalog.current = some s := by
    simp [portal, Catalog.load, hnext]
  obtain ⟨out, records, passed, hfilter, hrecords, hgate, hagree⟩ :=
    modes_agree_iff "User" .password (w := portal) (r := {}) hcurrent
      ⟨Catalog.empty, accounts, hnext⟩ (faithful_of_nothing fun m hm => by cases hm) rfl rfl rfl rfl
      fun rule hrule part hpart n hn _ => by
        rw [hrule] at hdecided
        have hparts := List.all_eq_true.1 hdecided part hpart
        exact GraphRule.decided_of_all (List.all_eq_true.1 hparts n hn)
  refine ⟨out, records, passed, hfilter, hrecords, hgate, hagree.2 fun _ _ hnone => ?_⟩
  simp [hnone] at hdeclared

end Warden

end GraphWarden
