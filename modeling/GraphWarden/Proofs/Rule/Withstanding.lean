import GraphWarden.Proofs.Rule.Passing
import GraphWarden.Proofs.Store.Merged
import GraphWarden.Write

/-!
# Checks and queries on a store that fails

A client is compared with a calm client, which asks the same of the same graph.  What the
store of the calm client can answer, the store of the other one can answer as well or is
offline.

Everything that clients do withstands: asking whether a rule holds and which nodes it lets
pass, however deeply it is nested; writing, where the types of an interface are checked
side by side; and queries over several types, where records arrive in any order.
-/

namespace GraphWarden

/-- The calm client asks the same of the same graph, and its store is not offline unless
that of the other one is. -/
structure Client.Calmed (c calm : Client) : Prop where
  request : calm.request = c.request
  graph : calm.store.graph = c.store.graph
  complement : calm.store.complement = c.store.complement
  offline : calm.store.offline = true → c.store.offline = true

namespace Job

variable {α β : Type} {t : Nat}

/-- A failure may be worded anew, as long as an outage remains one. -/
theorem Withstands.mapError {f : AccessProblem → AccessProblem}
    (hf : ∀ problem, problem.isOutage = true → (f problem).isOutage = true) {job calm : Job α}
    (h : Withstands t job calm) :
    Withstands t (fun l => (job l).map (Except.mapError f))
      (fun l => (calm l).map (Except.mapError f)) := by
  have hfails : ∀ {job : Job α}, job.Gives t Fails →
      Gives t Fails fun l => (job l).map (Except.mapError f) := by
    intro job hjob l hl
    refine (hjob l hl).map fun y hy => ?_
    cases y with
    | ok y => exact hy
    | error problem => trivial
  cases h with
  | failed undisturbed disturbed => exact .failed (hfails undisturbed) (hfails disturbed)
  | answered x prompt undisturbed disturbed =>
      exact .answered x prompt.mapError (undisturbed.mapError hf) (disturbed.mapError hf)

/-- What a job is sure to yield is what it yields on a calm line. -/
theorem Yields.of_prompt {Q : α → Prop} {job : Job α} {x : α} (h : job.Yields Q)
    (hprompt : job.Prompt t (· = x)) : Q x := by
  obtain ⟨l', y, _, rfl, hjob⟩ := hprompt { now := t } ⟨rfl, rfl⟩
  have hrun : (job.run { now := t }).1 = .ok y := by rw [Job.run, hjob, Step.run]
  exact h.of_run hrun

end Job

namespace Client

variable {α : Type} {t : Nat} {c calm : Client}

/-- What the store of a client answers at all, the store of the calm one answers too, and the same:
the graphs are one, and only one of them may be offline. -/
theorem online_calmed (h : c.Calmed calm) {answer : Answer α} {x : α}
    (hx : c.store.online answer = .ok x) : calm.store.online answer = .ok x := by
  have hanswer := Store.of_online hx
  unfold Store.online at hx ⊢
  split
  · next hoffline =>
      rw [if_pos (h.offline hoffline)] at hx
      simp at hx
  · exact hanswer

/-- A call that the calm store answers is answered alike or meets an outage.  When the request is
not live, or the calm store has no answer, both calls fail. -/
theorem withstands_call (h : c.Calmed calm) {call : Call} {answer : Answer α} :
    Job.Withstands t (c.call call fun _ => c.store.online answer)
      (calm.call call fun _ => calm.store.online answer) := by
  cases hlive : calm.request.isLive t with
  | false =>
      refine .failed (gives_call.mono fun x hx => ?_) (gives_call.mono fun x hx => ?_)
      · cases x with
        | ok x => exact absurd hx.2 (by simp [hlive])
        | error _ => trivial
      · cases x with
        | ok x => exact absurd hx.2 (by simp [← h.request, hlive])
        | error _ => trivial
  | true =>
      cases hanswer : calm.store.online answer with
      | ok x =>
          refine .answered x (prompt_call rfl hlive) (gives_call.mono fun y hy => ?_)
            (gives_call.mono fun y hy => ?_)
          · cases y with
            | ok y => exact (Except.ok.inj hy.1).symm
            | error _ => exact hy
          · cases y with
            | ok y =>
                have hcalm := online_calmed h hy.1
                exact Except.ok.inj (hcalm.symm.trans hanswer)
            | error _ => exact hy
      | error problem =>
          refine .failed (gives_call.mono fun y hy => ?_) (gives_call.mono fun y hy => ?_)
          · cases y with
            | ok y => exact absurd hy.1 (by simp)
            | error _ => trivial
          · cases y with
            | ok y =>
                have hcalm := online_calmed h hy.1
                rw [hanswer] at hcalm
                exact absurd hcalm (by simp)
            | error _ => trivial

/-- A probe withstands: it is one call, with the calm client's answer to it. -/
theorem withstands_probe (h : c.Calmed calm) (p : Probe) :
    Job.Withstands t (c.probe p) (calm.probe p) := by
  unfold probe Store.probe
  rw [h.graph]
  exact withstands_call h

/-- Asking for the types of nodes withstands what happens to the store. -/
theorem withstands_typesOf (h : c.Calmed calm) (ids : List String) :
    Job.Withstands t (c.typesOf ids) (calm.typesOf ids) := by
  unfold typesOf Store.typesOf
  rw [h.graph]
  exact withstands_call h

/-- A query withstands what happens to the store. -/
theorem withstands_execute (h : c.Calmed calm) (q : Query) :
    Job.Withstands t (c.execute q) (calm.execute q) := by
  have hexecute : ∀ c : Client, c.execute q = fun l =>
      (c.call (.execute q) (fun _ => c.store.online (c.store.graph.execute q)) l).map
        (Except.mapError asExecution) := fun _ => rfl
  rw [hexecute, hexecute, h.graph]
  exact Job.Withstands.mapError isOutage_asExecution (withstands_call h)

end Client

namespace Rule

variable {t : Nat} {c calm : Client}

/-- Whether a graph rule holds for a request is one probe, and what is done with its answer depends
on nothing else. -/
theorem withstands_graphHolds (h : c.Calmed calm) (rule : GraphRule) :
    Job.Withstands t (graphHolds c rule) (graphHolds calm rule) := by
  unfold graphHolds
  rw [h.request]
  cases rule.bind? c.request.claims with
  | none => exact Job.withstands_pure false
  | some filter =>
      exact (Client.withstands_probe h _).bind fun hits => Job.withstands_pure _

mutual

/-- Whether a rule holds for a request withstands, however deeply it is nested.  The induction is
along the rule, and a conjunction or disjunction stops for both clients at the same place. -/
theorem withstands_holds (h : c.Calmed calm) : (rule : Rule) →
    Job.Withstands t (rule.holds c) (rule.holds calm)
  | .role rule => by
      unfold holds
      rw [h.request]
      exact Job.withstands_pure _
  | .graph rule => by
      unfold holds
      exact withstands_graphHolds h rule
  | .combine .all rules => by
      unfold holds
      exact withstands_holdsAll h rules
  | .combine .any rules => by
      unfold holds
      exact withstands_holdsAny h rules
  | .combine .not [] => by
      unfold holds
      exact Job.withstands_fail _
  | .combine .not (rule :: _) => by
      unfold holds
      exact (withstands_holds h rule).bind fun b => Job.withstands_pure _

/-- The rules of a conjunction, asked until one of them does not hold. -/
theorem withstands_holdsAll (h : c.Calmed calm) : (rules : List Rule) →
    Job.Withstands t (holdsAll c rules) (holdsAll calm rules)
  | [] => by
      unfold holdsAll
      exact Job.withstands_pure true
  | rule :: rules => by
      unfold holdsAll
      refine (withstands_holds h rule).bind fun b => ?_
      cases b with
      | true => exact withstands_holdsAll h rules
      | false => exact Job.withstands_pure false

/-- The rules of a disjunction, asked until one of them holds. -/
theorem withstands_holdsAny (h : c.Calmed calm) : (rules : List Rule) →
    Job.Withstands t (holdsAny c rules) (holdsAny calm rules)
  | [] => by
      unfold holdsAny
      exact Job.withstands_pure false
  | rule :: rules => by
      unfold holdsAny
      refine (withstands_holds h rule).bind fun b => ?_
      cases b with
      | true => exact Job.withstands_pure true
      | false => exact withstands_holdsAny h rules

end

/-- Which nodes a graph rule lets pass is one probe as well. -/
theorem withstands_graphPassing (h : c.Calmed calm) (rule : GraphRule) (typeName : String)
    (candidates : List String) :
    Job.Withstands t (graphPassing c rule typeName candidates)
      (graphPassing calm rule typeName candidates) := by
  unfold graphPassing
  rw [h.request]
  cases rule.bind? c.request.claims with
  | none => exact Job.withstands_pure []
  | some filter =>
      exact (Client.withstands_probe h _).bind fun hits => Job.withstands_pure _

mutual

/-- Which of given nodes a rule lets pass withstands.  What each part is asked about is what the
parts before have let pass, which is the same for both clients. -/
theorem withstands_passing (h : c.Calmed calm) (typeName : String) : (rule : Rule) →
    (candidates : List String) →
    Job.Withstands t (rule.passing c typeName candidates) (rule.passing calm typeName candidates)
  | rule, candidates => by
      unfold passing
      by_cases hnone : candidates.isEmpty = true
      · rw [if_pos hnone, if_pos hnone]
        exact Job.withstands_pure []
      · rw [if_neg hnone, if_neg hnone]
        match rule with
        | .role rule =>
            rw [h.request]
            exact Job.withstands_pure _
        | .graph rule => exact withstands_graphPassing h rule typeName candidates
        | .combine .all rules => exact withstands_passingAll h typeName rules candidates
        | .combine .any rules => exact withstands_passingAny h typeName rules candidates []
        | .combine .not [] => exact Job.withstands_fail _
        | .combine .not (rule :: _) =>
            exact (withstands_passing h typeName rule candidates).bind fun hits =>
              Job.withstands_pure _

/-- The rules of a conjunction, on fewer candidates from one to the next. -/
theorem withstands_passingAll (h : c.Calmed calm) (typeName : String) : (rules : List Rule) →
    (candidates : List String) →
    Job.Withstands t (passingAll c typeName rules candidates)
      (passingAll calm typeName rules candidates)
  | [], candidates => by
      unfold passingAll
      exact Job.withstands_pure candidates
  | rule :: rules, candidates => by
      unfold passingAll
      exact (withstands_passing h typeName rule candidates).bind fun remaining =>
        withstands_passingAll h typeName rules remaining

/-- The rules of a disjunction, on the candidates that are still to pass. -/
theorem withstands_passingAny (h : c.Calmed calm) (typeName : String) : (rules : List Rule) →
    (pending passed : List String) →
    Job.Withstands t (passingAny c typeName rules pending passed)
      (passingAny calm typeName rules pending passed)
  | [], pending, passed => by
      unfold passingAny
      exact Job.withstands_pure passed
  | rule :: rules, pending, passed => by
      unfold passingAny
      exact (withstands_passing h typeName rule pending).bind fun hits =>
        withstands_passingAny h typeName rules _ _

end

/-- A rule that is evaluated withstands in each mode; where there is no rule, nothing is asked. -/
theorem withstands_evaluate (h : c.Calmed calm) (rule : Option Rule) (mode : Mode) :
    Job.Withstands t (Rule.evaluate c rule mode) (Rule.evaluate calm rule mode) := by
  cases mode with
  | filter =>
      unfold evaluate
      rw [h.complement, h.request]
      exact (Job.withstands_ofExcept _).bind fun v => Job.withstands_pure _
  | gate typeName candidates =>
      cases rule with
      | none => cases candidates <;> exact Job.withstands_pure _
      | some rule =>
          cases candidates with
          | none => exact (withstands_holds h rule).bind fun b => Job.withstands_pure _
          | some ids =>
              exact (withstands_passing h typeName rule _).bind fun passed =>
                Job.withstands_pure _

end Rule

namespace Client

variable {t : Nat} {c calm : Client} {s : Schema}

/-- Whether a node may be added is decided by a rule alone, and so withstands as the rule does. -/
theorem withstands_addAllowed (h : c.Calmed calm) (typeName : String) :
    Job.Withstands t (c.addAllowed s typeName) (calm.addAllowed s typeName) := by
  unfold addAllowed
  cases s.rule? typeName .add with
  | none => exact Job.withstands_pure true
  | some rule => exact Rule.withstands_holds h rule

/-- Which nodes of one type a write may touch withstands, be the type an object type or not. -/
theorem withstands_writable (h : c.Calmed calm) (op : Operation) (typeName : String)
    (ids : List String) :
    Job.Withstands t (c.writable s op typeName ids) (calm.writable s op typeName ids) := by
  unfold writable
  cases s.rule? typeName op with
  | none => exact Job.withstands_pure _
  | some rule => exact Rule.withstands_passing h typeName rule _

/-- The types of an interface may be checked in any order, because the nodes that pass are
put together into a set. -/
theorem withstands_writableThrough (h : c.Calmed calm) (op : Operation) (interface : String)
    (ids : List String) :
    Job.Withstands t (c.writableThrough s op interface ids)
      (calm.writableThrough s op interface ids) := by
  unfold writableThrough
  refine (withstands_typesOf h ids).bind fun types => ?_
  refine Job.withstands_gather (fun typeName _ => withstands_writable h op typeName _) ?_
  intro answer _ passed hpassed
  exact Names.sorted_congr fun id => hpassed.flatten.mem_iff

/-- **Authorizing a write withstands.**  For an interface the types of the nodes are asked for
first, and then each type is checked beside the others. -/
theorem withstands_authorize (h : c.Calmed calm) (op : Operation) (typeName : String)
    (ids : List String) :
    Job.Withstands t (c.authorize s op typeName ids) (calm.authorize s op typeName ids) := by
  unfold authorize
  refine (Job.withstands_ofExcept _).bind fun kind => ?_
  simp only [h.request]
  split
  · exact Job.withstands_pure []
  · split
    · refine (withstands_addAllowed h typeName).bind fun allowed => ?_
      cases allowed <;> exact Job.withstands_pure _
    · split
      · exact (withstands_writableThrough h op typeName _).bind fun passed =>
          Job.withstands_pure _
      · exact (withstands_writable h op typeName _).bind fun passed => Job.withstands_pure _

/-- Records may arrive in any order, because one id stands for one record when all queries
report the same of a node. -/
theorem withstands_executeUnion (h : c.Calmed calm) {queries : List Query}
    {selections : List Selection} (hsame : ∀ q ∈ queries, q.selections = selections)
    (first : Option Nat) :
    Job.Withstands t (c.executeUnion queries first) (calm.executeUnion queries first) := by
  unfold executeUnion
  refine Job.withstands_gather (fun q _ => withstands_execute h q) ?_
  intro answer hanswer answers hanswers
  have hshown : ∀ r ∈ ((queries.filter fun q => !q.filter.any Filter.isNothing).map
      answer).flatten, ∃ n ∈ calm.store.graph.toList,
        r = calm.store.graph.shownRecord (fun _ => true) selections n := by
    intro r hr
    obtain ⟨records, hrecords, hr⟩ := List.mem_flatten.1 hr
    obtain ⟨q, hq, rfl⟩ := List.mem_map.1 hrecords
    have hexecuted := Graph.execute_eq (yields_execute.of_prompt (hanswer q hq))
    rw [hexecuted, hsame q (List.mem_filter.1 hq).1] at hr
    obtain ⟨n, hn, rfl⟩ := List.mem_map.1 (mem_of_mem_upTo hr)
    exact ⟨n, (List.mem_filter.1 hn).1, rfl⟩
  rw [merged_congr (coherent_shownRecord hshown) fun r => hanswers.flatten.mem_iff]

end Client

end GraphWarden
