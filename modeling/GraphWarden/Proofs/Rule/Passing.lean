import GraphWarden.Check
import GraphWarden.Proofs.Rule.Meaning
import GraphWarden.Proofs.Store.Shown
import GraphWarden.Proofs.Timeline.Outage

/-!
# Two ways to apply a rule

A rule becomes a filter, which a query evaluates node by node; or it is taken apart, and
each of its graph rules is a probe among the nodes that are left to be decided.

Here the second way is shown to do what the rule means.  `Rule.yields_passing` says of
every run, whatever the store does meanwhile: if the rule lets nodes pass at all, it lets
pass those candidates that are stored, of the type, and for which the rule holds
(`Rule.holdsFor`).  A role rule passes every candidate, stored or not; that is what
`holdsFor` says as well, because a node that is not there is covered by no graph rule.

Together with what a rule leaves visible this gives `Rule.visible_iff_passing`: where
**both ways succeed they select the same nodes**.
-/

namespace GraphWarden

/-- The records that a query yields are those that the graph has for it. -/
theorem Client.yields_execute {c : Client} {q : Query} :
    (c.execute q).Yields fun records => c.store.graph.execute q = .ok records := by
  intro l hl
  refine Step.Always.map (fun records hrecords => ?_) (Client.yields_call l hl)
  cases records with
  | ok records => exact Store.of_online hrecords
  | error _ => trivial

namespace Rule

/-- Whether a graph rule covers what is stored under an id, as a node of a type. -/
def coversFor (g : Graph) (claims : Claims) (typeName id : String) (rule : GraphRule) : Bool :=
  (g.find? id).any fun n => n.isA typeName && rule.covers g claims n

/-- Whether a rule holds for what is stored under an id, as a node of a type. -/
def holdsFor (g : Graph) (claims : Claims) (typeName : String) (rule : Rule) (id : String) : Bool :=
  rule.holdsWith claims (coversFor g claims typeName id)

/-- For a stored node of the type, a rule holds when the graph rules are asked whether
they cover it. -/
theorem holdsFor_of_isA {g : Graph} {claims : Claims} {typeName : String} {n : Node}
    (hn : n ∈ g.toList) (hisA : n.isA typeName = true) (rule : Rule) :
    rule.holdsFor g claims typeName n.id = rule.holdsWith claims (GraphRule.covers g claims n) := by
  refine holdsWith_congr claims rule fun r _ => ?_
  simp [coversFor, Graph.mem_toList_iff.1 hn, hisA]

variable {c : Client} {typeName : String}

/-- What is taken away from some ids is gone, and nothing else is. -/
theorem mem_without {ids hits : List String} {id : String} :
    id ∈ without ids hits ↔ id ∈ ids ∧ id ∉ hits := by
  simp [without]

/-- A probe among candidates finds those that the graph rule covers.  A rule that lacks a claim is
not probed for and covers nothing. -/
theorem yields_graphPassing (rule : GraphRule) (candidates : List String) :
    (graphPassing c rule typeName candidates).Yields fun ids => ∀ id, id ∈ ids ↔
      id ∈ candidates ∧ (Rule.graph rule).holdsFor c.store.graph c.request.claims typeName id := by
  unfold graphPassing
  cases hbind : rule.bind? c.request.claims with
  | none =>
      refine Job.yields_pure fun id => ?_
      simp [holdsFor, holdsWith, coversFor, GraphRule.covers, hbind]
  | some filter =>
      refine Job.Yields.bind Client.yields_call fun hits hhits => Job.yields_pure fun id => ?_
      have hcovers : ∀ n : Node, (n.isA typeName && (filter.getD (.isType typeName)).meets
          c.store.graph n) = (n.isA typeName && rule.covers c.store.graph c.request.claims n) := by
        intro n
        rw [GraphRule.covers, hbind]
        cases filter with
        | none => simp [Filter.meets]
        | some f => simp
      have hids := Graph.probe_eq (Store.of_online hhits)
      simp only [upTo, Option.map_some, Option.getD_some, hcovers] at hids
      rw [Names.mem_sorted, hids, List.mem_map, holdsFor, holdsWith, coversFor, Option.any_eq_true]
      constructor
      · rintro ⟨n, hn, rfl⟩
        obtain ⟨hamong, hcovered⟩ := List.mem_filter.1 hn
        obtain ⟨hstored, hid⟩ := Graph.mem_among_iff.1 hamong
        exact ⟨hid, n, Graph.mem_toList_iff.1 hstored, hcovered⟩
      · rintro ⟨hid, n, hfind, hcovered⟩
        have hn := Graph.id_of_find? hfind
        refine ⟨n, List.mem_filter.2 ⟨?_, hcovered⟩, hn⟩
        exact Graph.mem_among_iff.2 ⟨Graph.mem_toList_of_find? hfind, hn ▸ hid⟩

mutual

/-- **A check lets those candidates pass for which the rule holds.**  By recursion on the rule; a
negation takes away those that pass the rule below, which is asked about all candidates. -/
theorem yields_passing : (rule : Rule) → (candidates : List String) →
    (rule.passing c typeName candidates).Yields fun ids => ∀ id, id ∈ ids ↔
      id ∈ candidates ∧ rule.holdsFor c.store.graph c.request.claims typeName id
  | rule, candidates => by
      unfold passing
      by_cases hnone : candidates.isEmpty = true
      · rw [if_pos hnone]
        refine Job.yields_pure fun id => ?_
        simp [List.isEmpty_iff.1 hnone]
      · rw [if_neg hnone]
        match rule with
        | .role rule =>
            refine Job.yields_pure fun id => ?_
            cases hrole : rule.holds c.request.claims <;> simp [holdsFor, holdsWith, hrole]
        | .graph rule => exact yields_graphPassing rule candidates
        | .combine .all rules =>
            refine (yields_passingAll rules candidates).mono fun ids hids id => ?_
            rw [hids id, holdsFor, holdsWith]
        | .combine .any rules =>
            refine (yields_passingAny rules candidates []).mono fun ids hids id => ?_
            rw [hids id, holdsFor, holdsWith]
            simp
        | .combine .not [] => exact Job.yields_fail
        | .combine .not (rule :: _) =>
            refine (yields_passing rule candidates).bind fun hits hhits => ?_
            refine Job.yields_pure fun id => ?_
            rw [mem_without, hhits id]
            by_cases hid : id ∈ candidates <;> simp [hid, holdsFor, holdsWith]

/-- One rule after the other narrows the candidates down. -/
theorem yields_passingAll : (rules : List Rule) → (candidates : List String) →
    (passingAll c typeName rules candidates).Yields fun ids => ∀ id, id ∈ ids ↔
      id ∈ candidates ∧ allHoldWith c.request.claims
        (coversFor c.store.graph c.request.claims typeName id) rules
  | [], candidates => by
      unfold passingAll
      refine Job.yields_pure fun id => ?_
      simp [allHoldWith]
  | rule :: rules, candidates => by
      unfold passingAll
      refine (yields_passing rule candidates).bind fun remaining hremaining => ?_
      refine (yields_passingAll rules remaining).mono fun ids hids id => ?_
      rw [hids id, hremaining id]
      simp only [holdsFor, allHoldWith, Bool.and_eq_true, and_assoc]

/-- What has passed stays, and of the pending candidates those are added for which some
rule holds. -/
theorem yields_passingAny : (rules : List Rule) → (pending passed : List String) →
    (passingAny c typeName rules pending passed).Yields fun ids => ∀ id, id ∈ ids ↔
      id ∈ passed ∨
        id ∈ pending ∧ anyHoldsWith c.request.claims
          (coversFor c.store.graph c.request.claims typeName id) rules
  | [], pending, passed => by
      unfold passingAny
      refine Job.yields_pure fun id => ?_
      simp [anyHoldsWith]
  | rule :: rules, pending, passed => by
      unfold passingAny
      refine (yields_passing rule pending).bind fun hits hhits => ?_
      refine (yields_passingAny rules _ _).mono fun ids hids id => ?_
      rw [hids id, Names.mem_sorted, List.mem_append, mem_without, hhits id]
      simp only [holdsFor, anyHoldsWith, Bool.or_eq_true]
      cases rule.holdsWith c.request.claims
        (coversFor c.store.graph c.request.claims typeName id) with
      | false => simp
      | true =>
          simp only [and_true]
          by_cases hid : id ∈ pending <;> simp [hid]

end

/-- **What a rule leaves visible and what it lets pass are the same nodes**, for all
nodes of a type, wherever both can be found out.  The two may be asked for by different
requests, under different policies and at different times. -/
theorem visible_iff_passing {store : Store} {rule : Rule} {claims : Claims} {typeName : String}
    {asking reading : Client} {l l' : Line} {out : Visibility} {records : List Record}
    {passed : List String} (hasking : asking.store = store) (hreading : reading.store = store)
    (hclaims : asking.request.claims = claims) (hout : rule.visibility true claims = .ok out)
    (hrecords : ((reading.execute { typeName, filter := out.toFilter }).run l).1 = .ok records)
    (hpassed : ((rule.passing asking typeName
      ((store.graph.toList.filter fun n => n.isA typeName).map Node.id)).run l').1 = .ok passed)
    (id : String) : id ∈ records.map Record.id ↔ id ∈ passed := by
  subst hasking hclaims
  have hseen := Graph.execute_eq (Client.yields_execute.of_run hrecords)
  have hgate := (yields_passing rule _).of_run hpassed id
  have hmeets : ∀ n, (out.toFilter.all fun f => f.meets asking.store.graph n) =
      rule.holdsWith asking.request.claims
        (GraphRule.covers asking.store.graph asking.request.claims n) :=
    fun n => meets_of_visibility hout
  simp only [hreading, upTo, hmeets] at hseen
  have hvisible : id ∈ records.map Record.id ↔ ∃ n ∈ asking.store.graph.toList,
      n.isA typeName = true ∧ rule.holdsWith asking.request.claims
        (GraphRule.covers asking.store.graph asking.request.claims n) = true ∧ n.id = id := by
    simp [hseen, Graph.shownRecord, and_assoc]
  rw [hvisible, hgate]
  constructor
  · rintro ⟨n, hn, hisA, hholds, rfl⟩
    refine ⟨List.mem_map.2 ⟨n, List.mem_filter.2 ⟨hn, hisA⟩, rfl⟩, ?_⟩
    rw [holdsFor_of_isA hn hisA]
    exact hholds
  · rintro ⟨hcandidate, hholds⟩
    obtain ⟨n, hn, rfl⟩ := List.mem_map.1 hcandidate
    obtain ⟨hstored, hisA⟩ := List.mem_filter.1 hn
    rw [holdsFor_of_isA hstored hisA] at hholds
    exact ⟨n, hstored, hisA, hholds, rfl⟩

/-- Two notes, one of them archived, and a user. -/
def notes : Store where
  graph := .ofList [
    ⟨"n1", "Note", [], .ofList [("archived", .scalar (.flag true))]⟩,
    ⟨"n2", "Note", [], .empty⟩,
    ⟨"u1", "User", [], .empty⟩]

/-- Administrators, or whatever is not archived. -/
def unlessArchived : Rule := .combine .any [
  .role ⟨"ROLE", .equal (.text "ADMIN")⟩,
  .combine .not [.graph ⟨"{ queryNote { archived } }", [], "Note", some (.has "archived"), []⟩]]

/-- The note that is not archived is seen, and passes; the other one does neither. -/
theorem visible_iff_passing_notes :
    ∃ records passed, ((Client.execute ⟨notes, {}, {}⟩ { typeName := "Note", filter :=
        (Visibility.restricted (.not (.has "archived"))).toFilter }).run {}).1 = .ok records ∧
      ((unlessArchived.passing ⟨notes, {}, {}⟩ "Note"
        ((notes.graph.toList.filter fun n => n.isA "Note").map Node.id)).run {}).1 = .ok passed ∧
      ∀ id, id ∈ records.map Record.id ↔ id ∈ passed := by
  have hout : unlessArchived.visibility true Claims.none =
      .ok (.restricted (.not (.has "archived"))) := by rfl
  have hanswered : ((Client.execute ⟨notes, {}, {}⟩ { typeName := "Note", filter :=
      (Visibility.restricted (.not (.has "archived"))).toFilter }).run {}).1.toOption.isSome =
        true := by decide +kernel
  have hpassed : ((unlessArchived.passing ⟨notes, {}, {}⟩ "Note"
      ((notes.graph.toList.filter fun n => n.isA "Note").map Node.id)).run {}).1.toOption =
        some ["n2"] := by decide +kernel
  obtain ⟨records, hrecords⟩ := Option.isSome_iff_exists.1 hanswered
  rw [toOption_eq_some_iff] at hrecords hpassed
  exact ⟨records, ["n2"], hrecords, hpassed,
    visible_iff_passing rfl rfl rfl hout hrecords hpassed⟩

end Rule

end GraphWarden
