import GraphWarden.Proofs.Rule.Withstanding
import GraphWarden.Proofs.Warden.Acting

/-!
# Wardens whose store fails

A disturbed warden is compared with a calm one: with the same schema in force, the same
graph, policy and memory, but on a line on which the store works.  The two lines need not
agree on who goes on where several might, nor on anything that was recorded.

Acts that ask nothing of the store go the same way for both (`Steady`).  An act that asks
the store **withstands**: it never gives another answer than the calm warden does, and where
the calm warden answers it fails with an outage only (`answers_withstand_outages`).
-/

namespace GraphWarden

/-- What has become of an answer, compared with what is answered when nothing goes wrong:
it is the same, or there was an outage; and a failure is a failure. -/
def Withstood {α : Type} : (disturbed calm : Except AccessProblem α) → Prop
  | .ok x, .ok y => x = y
  | .error problem, .ok _ => problem.isOutage = true
  | .ok _, .error _ => False
  | .error _, .error _ => True

theorem Withstood.refl {α : Type} (x : Except AccessProblem α) : Withstood x x := by
  cases x with
  | ok x => rfl
  | error _ => trivial

/-- A job that withstands does so when it is run. -/
theorem Job.Withstands.run {α : Type} {job calm : Job α} {l l' : Line}
    (h : Withstands l.now job calm) (hl' : l'.Calm l.now) :
    Withstood (job.run l).1 (calm.run l').1 := by
  cases h with
  | answered x prompt undisturbed disturbed =>
      have hjob := disturbed.run
      have hcalm : (calm.run l').1 = .ok x := by
        obtain ⟨l'', y, _, rfl, hfinished⟩ := prompt l' hl'
        rw [Job.run, hfinished, Step.run]
      rw [hcalm]
      generalize (job.run l).1 = y at hjob
      cases y with
      | ok y => exact hjob
      | error problem => exact hjob
  | failed undisturbed disturbed =>
      have hjob := disturbed.run
      have hcalm := (undisturbed l' (Nat.le_of_eq hl'.now.symm)).run
      rw [Job.run] at hjob ⊢
      rw [Job.run]
      generalize (job l).run.1 = x at hjob
      generalize (calm l').run.1 = y at hcalm
      cases x with
      | ok x => exact hjob.elim
      | error _ =>
          cases y with
          | ok y => exact hcalm.elim
          | error _ => trivial

namespace Warden

/-- The calm warden differs from the disturbed one in what its line and its store have in
store for it, and in what was counted. -/
structure Calmed (w calm : Warden) : Prop where
  catalog : calm.catalog = w.catalog
  policy : calm.policy = w.policy
  memo : calm.memo = w.memo
  graph : calm.store.graph = w.store.graph
  complement : calm.store.complement = w.store.complement
  offline : calm.store.offline = true → w.store.offline = true
  line : calm.line.Calm w.line.now

variable {α β : Type}

/-- The act goes the same way for both wardens, and they stay comparable. -/
def Steady (act : Act α) : Prop :=
  ∀ w calm : Warden, w.Calmed calm → (w.perform act).1 = (calm.perform act).1 ∧
    (w.perform act).2.Calmed (calm.perform act).2

/-- The act gives no other answer to the disturbed warden than to the calm one. -/
def Withstands (act : Act α) : Prop :=
  ∀ w calm : Warden, w.Calmed calm → Withstood (w.perform act).1 (calm.perform act).1

/-- An act that goes the same way on every line never gives another answer than on the calm one. -/
theorem Steady.withstands {act : Act α} (h : Steady act) : Withstands act := by
  intro w calm hcalm
  rw [(h w calm hcalm).1]
  exact Withstood.refl _

theorem steady_pure (x : α) : Steady (pure x) :=
  agrees_pure x

theorem steady_throw (problem : AccessProblem) : Steady (throw problem : Act α) :=
  agrees_throw problem

theorem Steady.bind {act : Act α} {next : α → Act β} (h : Steady act)
    (hnext : ∀ x, Steady (next x)) : Steady (act >>= next) :=
  Agrees.bind h hnext

/-- An act that goes on after a steady one withstands when what it goes on with does: up to there
the two wardens have not parted. -/
theorem Steady.bind_withstands {act : Act α} {next : α → Act β} (h : Steady act)
    (hnext : ∀ x, Withstands (next x)) : Withstands (act >>= next) := by
  intro w calm hcalm
  obtain ⟨answer, after, after', hw, hcalm', hafter⟩ := Agrees.outcome h hcalm
  rw [perform_bind, perform_bind, hw, hcalm']
  cases answer with
  | ok x => exact hnext x after after' hafter
  | error problem => trivial

/-- What follows an act may not look at the warden any more, because after an outage the two
wardens may differ in everything that happened on the way. -/
theorem Withstands.bind {act : Act α} {next : α → Act β} {f : α → β} (h : Withstands act)
    (hnext : ∀ x w, (Warden.perform w (next x)).1 = .ok (f x)) : Withstands (act >>= next) := by
  intro w calm hcalm
  have hanswer := h w calm hcalm
  have hend : ∀ w : Warden, (w.perform (act >>= next)).1 = (w.perform act).1.map f := by
    intro w
    rw [perform_bind]
    generalize w.perform act = done
    obtain ⟨answer, after⟩ := done
    cases answer with
    | ok x => exact hnext x after
    | error problem => rfl
  rw [hend, hend]
  cases hw : (w.perform act).1 with
  | ok x =>
      cases hcalm : (calm.perform act).1 with
      | ok y =>
          rw [hw, hcalm] at hanswer
          exact congrArg f hanswer
      | error problem =>
          rw [hw, hcalm] at hanswer
          exact hanswer
  | error problem =>
      cases hcalm : (calm.perform act).1 with
      | ok y =>
          rw [hw, hcalm] at hanswer
          exact hanswer
      | error problem => trivial

/-- That an act failed is counted, and the count is no part of what the two wardens share. -/
theorem Withstands.counted {act : Act α} (h : Withstands act) : Withstands (counted act) := by
  intro w calm hcalm
  rw [perform_counted, perform_counted]
  exact h w calm hcalm

/-- Acts may look at what both wardens have in common. -/
theorem steady_get {next : Warden → Act α} (hsame : ∀ w calm : Warden, w.Calmed calm →
    next w = next calm) (hnext : ∀ w, Steady (next w)) : Steady (get >>= next) := by
  intro w calm hcalm
  rw [perform_bind_ok perform_get, perform_bind_ok perform_get, hsame w calm hcalm]
  exact hnext calm w calm hcalm

theorem steady_count (change : Meter → Meter) : Steady (count change) :=
  fun _ _ hcalm => ⟨rfl, { hcalm with }⟩

/-- Asking the store withstands when the job that asks does.  The calm warden asks the same job
with a client that only differs in what the store is about to do. -/
theorem withstands_ask (r : Request) {job : Client → Job α}
    (h : ∀ c calm : Client, c.Calmed calm → ∀ t, Job.Withstands t (job c) (job calm)) :
    Withstands (ask r job) := by
  intro w calm hcalm
  rw [perform_ask, perform_ask]
  refine Job.Withstands.run (h _ _ ?_ _) hcalm.line
  exact ⟨rfl, hcalm.graph, hcalm.complement, hcalm.offline⟩

/-! ### What a request may see -/

/-- The schema in force is the same for both. -/
theorem steady_schema : Steady schema := by
  refine steady_get (fun w calm hcalm => by simp only [hcalm.catalog]) fun w => ?_
  cases w.catalog.current with
  | none => exact steady_throw _
  | some s => exact steady_pure s

/-- Both have the same memory, so they remember an outcome or do not. -/
theorem steady_lookUp (k : OutcomeKey) : Steady (lookUp k) := by
  refine steady_get (fun w calm hcalm => by simp only [hcalm.memo]) fun w => ?_
  cases w.memo with
  | none => exact steady_pure none
  | some memo =>
      simp only
      generalize memo.get k = looked
      obtain ⟨found, memo'⟩ := looked
      refine Steady.bind (fun w calm hcalm => ⟨rfl, { hcalm with memo := rfl }⟩) fun _ => ?_
      cases found with
      | none => exact (steady_count _).bind fun _ => steady_pure none
      | some v => exact (steady_count _).bind fun _ => steady_pure (some v)

/-- Both remember what they have worked out, and have worked out the same. -/
theorem steady_remember (k : OutcomeKey) (v : Visibility) : Steady (remember k v) :=
  fun w calm hcalm => ⟨rfl, { hcalm with memo := by simp only [remember, perform_modify, hcalm.memo] }⟩

/-- What a request may see is never asked of the store. -/
theorem steady_visibility (s : Schema) (r : Request) (typeName : String) (op : Operation) :
    Steady (visibility s r typeName op) := by
  unfold visibility
  split
  · exact steady_pure _
  · cases s.governingRule? typeName op with
    | none => exact steady_pure _
    | some rule =>
        refine (steady_lookUp _).bind fun found => ?_
        cases found with
        | some v => exact steady_pure v
        | none =>
            refine steady_get (fun w calm hcalm => by simp only [hcalm.complement]) fun w => ?_
            cases rule.visibility w.store.complement r.claims with
            | error problem => exact steady_throw problem
            | ok v => exact (steady_remember _ v).bind fun _ => steady_pure v

/-- Several outcomes are worked out without the store, so the outages cannot make them different.
-/
theorem steady_visibilities (s : Schema) (r : Request) (op : Operation) (types : List String) :
    Steady (visibilities s r op types) := by
  induction types with
  | nil => exact steady_pure []
  | cons t ts ih =>
      exact (steady_visibility s r t op).bind fun v => ih.bind fun vs => steady_pure _

/-- The kind of a type is looked up in the schema. -/
theorem steady_rootKind (s : Schema) (typeName : String) : Steady (rootKind s typeName) := by
  unfold rootKind
  cases s.find? typeName with
  | none => exact steady_throw _
  | some info => exact steady_pure _

/-! ### Requests -/

/-- The queries that a query is split into all report the same of a node. -/
theorem selections_of_mem_split {vs root : Visibilities} {s : Schema} {q q' : Query}
    (h : q' ∈ (q.split s).map (vs.restrict root s)) :
    q'.selections = vs.restrictAll s q.selections := by
  obtain ⟨q'', hq'', rfl⟩ := List.mem_map.1 h
  obtain ⟨t, _, rfl⟩ := List.mem_map.1 hq''
  rfl

/-- A query is authorized without the store and then sent to it: only the second part can fail for
an outage. -/
theorem query_withstands (r : Request) (q : Query) : Withstands (query r q) := by
  refine Withstands.counted ?_
  refine steady_schema.bind_withstands fun s => ?_
  refine (steady_rootKind s q.typeName).bind_withstands fun kind => ?_
  refine (steady_visibilities s r .query _).bind_withstands fun vs => ?_
  refine (steady_count _).bind_withstands fun _ => ?_
  split
  · exact withstands_ask r fun c calm hcalm t => Client.withstands_execute hcalm _
  · exact withstands_ask r fun c calm hcalm t =>
      Client.withstands_executeUnion hcalm (fun _ => selections_of_mem_split) q.first

/-- A write is authorized by asking the store, and then counted. -/
theorem authorizeWrite_withstands (r : Request) (op : Operation) (typeName : String)
    (ids : List String) : Withstands (authorizeWrite r op typeName ids) := by
  refine Withstands.bind (f := fun allowed => allowed) (Withstands.counted ?_) fun _ _ => rfl
  refine steady_schema.bind_withstands fun s => ?_
  exact withstands_ask r fun c calm hcalm t => Client.withstands_authorize hcalm op typeName ids

/-- The authorization of a node that is to be added, which asks for no node, withstands an outage.
-/
theorem authorizeAdd_withstands (r : Request) (typeName : String) :
    Withstands (authorizeAdd r typeName) :=
  (authorizeWrite_withstands r .add typeName [newNode]).bind fun _ _ => rfl

/-- Evaluating a rule asks the store in one mode only, as a gate. -/
theorem evaluate_withstands (r : Request) (typeName : String) (op : Operation) (mode : Mode) :
    Withstands (evaluate r typeName op mode) := by
  refine steady_schema.bind_withstands fun s => ?_
  cases mode with
  | filter =>
      exact ((steady_visibility s r typeName op).bind fun v => steady_pure _).withstands
  | gate gated candidates =>
      simp only
      split
      · exact (steady_pure _).withstands
      · exact withstands_ask r fun c calm hcalm t => Rule.withstands_evaluate hcalm _ _

/-- **A store that fails never changes an answer.**  Whatever a warden answers, it answers
as well when its store works; and where it would then answer, but does not, there was an
outage. -/
theorem answers_withstand_outages {w calm : Warden} (h : w.Calmed calm) (r : Request) :
    (∀ q, Withstood (w.perform (query r q)).1 (calm.perform (query r q)).1) ∧
    (∀ op typeName ids, Withstood (w.perform (authorizeWrite r op typeName ids)).1
      (calm.perform (authorizeWrite r op typeName ids)).1) ∧
    (∀ typeName, Withstood (w.perform (authorizeAdd r typeName)).1
      (calm.perform (authorizeAdd r typeName)).1) ∧
    (∀ typeName op mode, Withstood (w.perform (evaluate r typeName op mode)).1
      (calm.perform (evaluate r typeName op mode)).1) :=
  ⟨fun q => query_withstands r q w calm h,
    fun op typeName ids => authorizeWrite_withstands r op typeName ids w calm h,
    fun typeName => authorizeAdd_withstands r typeName w calm h,
    fun typeName op mode => evaluate_withstands r typeName op mode w calm h⟩

/-- A warden of one note. -/
def settled : Warden where
  catalog := (Catalog.empty.load ⟨[{ name := "Note", kind := .object }], none⟩).2
  store := { graph := .ofList [⟨"n1", "Note", [], .empty⟩] }
  line := { now := 5 }

/-- The same warden, while its store fails once and then takes its time. -/
def shaken : Warden :=
  { settled with
    line := { now := 5, faults := [.fails (.query "lost"), .delays 40], turns := [1, 0, 2] } }

/-- The store fails once and then takes its time: a query is answered all the same, at the second
attempt, and whatever else is asked of the shaken warden withstands. -/
theorem shaken_answers_withstand :
    (((shaken.perform (query {} { typeName := "Note" })).1.map fun records =>
      records.map Record.id).toOption = some ["n1"]) ∧ shaken.Calmed settled ∧
    (∀ q, Withstood (shaken.perform (query {} q)).1 (settled.perform (query {} q)).1) ∧
    (∀ op typeName ids, Withstood (shaken.perform (authorizeWrite {} op typeName ids)).1
      (settled.perform (authorizeWrite {} op typeName ids)).1) ∧
    (∀ typeName, Withstood (shaken.perform (authorizeAdd {} typeName)).1
      (settled.perform (authorizeAdd {} typeName)).1) ∧
    (∀ typeName op mode, Withstood (shaken.perform (evaluate {} typeName op mode)).1
      (settled.perform (evaluate {} typeName op mode)).1) := by
  have hcalm : shaken.Calmed settled :=
    ⟨rfl, rfl, rfl, rfl, rfl, fun h => h, ⟨rfl, rfl⟩⟩
  exact ⟨by decide +kernel, hcalm, answers_withstand_outages hcalm {}⟩

end Warden

end GraphWarden
