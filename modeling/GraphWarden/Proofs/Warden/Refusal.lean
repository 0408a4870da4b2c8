import GraphWarden.Proofs.Position.Shut
import GraphWarden.Proofs.Warden.Query

/-!
# Requests that are refused

A schema that is closed by default refuses requests without claims.  Such a request is denied
everything, and a denial is an answer: the query that is authorized lets no node through, no
record is shown, no node may be written to, and every rule says no (`Refused`).

The warden need not ask its rules for that, and its store it asks in **one place only**: a
query on an object type is run, filter `nothing` and all.  A store that works answers it with
no record, but where the store cannot be reached the request ends with an outage in place of
the denial.  A query on an interface or a union is not run, since none of its parts is.
-/

namespace GraphWarden

namespace Schema

variable {s : Schema} {complement : Bool} {claims : Claims} {op : Operation}
  {types : List String} {vs : List (String × Visibility)}

/-- For refused claims the outcome of every type is that it is denied, so no rule is asked. -/
theorem outcome_of_refused (h : s.refuses claims = true) (typeName : String) :
    s.outcome complement claims op typeName = .ok .denied := by
  unfold outcome
  rw [h]
  rfl

/-- Claims that are refused are denied every type. -/
theorem denies_of_refused (h : s.refuses claims = true)
    (hvs : s.outcomes complement claims op types = .ok vs) :
    Visibilities.Denies (Keyed.ofList vs) := by
  intro t out hout
  have houtcome := (outcomes_spec hvs).2 (t, out) (Keyed.mem_of_find?_ofList hout)
  rw [outcome_of_refused h] at houtcome
  exact (Except.ok.inj houtcome).symm

/-- The outcomes of any types are there, and all of them deny.  None of them can fail on the way.
-/
theorem exists_outcomes_of_refused (h : s.refuses claims = true) (complement : Bool)
    (op : Operation) (types : List String) :
    ∃ vs, s.outcomes complement claims op types = .ok vs ∧
      Visibilities.Denies (Keyed.ofList vs) := by
  have hdenied : ∀ t ∈ types, ∃ out, s.outcome complement claims op t = .ok out :=
    fun t _ => ⟨.denied, outcome_of_refused h t⟩
  obtain ⟨vs, hvs⟩ := outcomes_isOk hdenied
  exact ⟨vs, hvs, denies_of_refused h hvs⟩

end Schema

namespace Client

variable {c : Client} {vs : Visibilities} {s : Schema} {q : Query} {kind : TypeKind}

/-- A split query none of whose parts is left is answered without asking the store, on
whatever line. -/
theorem run_read_of_denied (h : vs.Denies) (hkind : kind ≠ .object) (l : Line) :
    ((c.read vs s kind q).run l).1 = .ok [] := by
  have hsent := Visibilities.sent_of_denied (s := s) h q
  unfold Visibilities.sent at hsent
  unfold read
  rw [if_neg hkind]
  unfold executeUnion
  rw [hsent]
  cases q.first with
  | none => rfl
  | some n => exact congrArg Except.ok (List.take_nil (i := n))

/-- On an object type the query is run, and ends with no record or with an outage. -/
theorem gives_read_of_denied (h : vs.Denies) {t : Nat} :
    (c.read vs s .object q).Gives t (Job.Ends []) := by
  unfold read
  rw [if_pos rfl, Visibilities.restrict_of_denied h h]
  refine gives_execute fun answer hanswer => ?_
  have hnone := c.store.graph.execute_of_nothing (q := q.shut) rfl
  rw [Store.of_online hanswer] at hnone
  exact Except.ok.inj hnone

/-- Reading a query on an object type, of which nothing may be seen, gives no record at once where
the store works. -/
theorem prompt_read_of_denied (h : vs.Denies) {t : Nat} (honline : c.store.offline = false)
    (hlive : c.request.isLive t = true) : (c.read vs s .object q).Prompt t (· = []) := by
  unfold read
  rw [if_pos rfl, Visibilities.restrict_of_denied h h]
  refine prompt_execute ?_ hlive
  exact (Store.online_eq honline).trans (c.store.graph.execute_of_nothing rfl)

/-- A write to a type that can be written to touches nothing. -/
theorem authorize_of_refused {op : Operation} {typeName : String}
    (h : s.refuses c.request.claims = true) (htarget : s.writeTarget op typeName = .ok kind)
    (ids : List String) (l : Line) : ((c.authorize s op typeName ids).run l).1 = .ok [] := by
  unfold authorize
  rw [htarget, h]
  rfl

end Client

namespace Warden

variable {w : Warden} {s : Schema} {r : Request}

/-- What a request gets that is denied everything. -/
structure Refused (w : Warden) (s : Schema) (r : Request) : Prop where
  /-- Queries are authorized, for reading and for checking a password, with the filter
  `nothing` at every position. -/
  authorizes : ∀ q, (s.find? q.typeName).isSome = true →
    (w.perform (authorizeQuery r q)).1 = .ok q.shut ∧
      (w.perform (authorizePasswordCheck r q)).1 = .ok q.shut
  /-- A query on an interface or a union is answered with no record. -/
  answers : ∀ q info, s.find? q.typeName = some info → info.kind ≠ .object →
    (w.perform (query r q)).1 = .ok []
  /-- So is a query on an object type, unless there is an outage. -/
  answers_object : ∀ q info, s.find? q.typeName = some info → info.kind = .object →
    ((w.perform (query r q)).1 = .ok [] ∨
      ∃ problem, problem.isOutage = true ∧ (w.perform (query r q)).1 = .error problem) ∧
    (w.store.offline = false → w.line.faults = [] → r.isLive w.line.now = true →
      (w.perform (query r q)).1 = .ok [])
  /-- No node may be written to. -/
  writes : ∀ op typeName kind ids, s.writeTarget op typeName = .ok kind →
    (w.perform (authorizeWrite r op typeName ids)).1 = .ok []
  /-- No node may be added. -/
  adds : ∀ typeName info, s.find? typeName = some info → info.kind = .object →
    (w.perform (authorizeAdd r typeName)).1 = .ok false
  /-- No rule leaves anything visible, and none lets a node pass. -/
  evaluates : ∀ typeName op gated ids,
    (w.perform (evaluate r typeName op .filter)).1 = .ok (.visible .denied) ∧
      (w.perform (evaluate r typeName op (.gate gated none))).1 = .ok (.allowed false) ∧
      (w.perform (evaluate r typeName op (.gate gated (some ids)))).1 = .ok (.passed [])

/-! ### Requests that are refused -/

/-- A warden need not remember anything right for claims that are refused. -/
theorem ready_of_refused (hcurrent : w.catalog.current = some s)
    (hrefuses : s.refuses r.claims = true) : Ready s r.claims w :=
  ⟨hcurrent, fun hopen => by simp [hrefuses] at hopen⟩

/-- The query that is authorized has the filter `nothing` at every position. -/
theorem authorizeQuery_of_refused (hcurrent : w.catalog.current = some s)
    (hrefuses : s.refuses r.claims = true) {q : Query} {info : TypeInfo}
    (hroot : s.find? q.typeName = some info) :
    (w.perform (authorizeQuery r q)).1 = .ok q.shut := by
  obtain ⟨vs, hvs, hdenies⟩ := Schema.exists_outcomes_of_refused hrefuses w.store.complement
    .query (s.governedTypes q)
  obtain ⟨w', hauthorize, _, _⟩ :=
    perform_authorizeQuery (ready_of_refused hcurrent hrefuses) hroot
  rw [hauthorize, hvs]
  exact congrArg Except.ok (Visibilities.restrict_of_denied hdenies hdenies q)

/-- A query that is authorized for checking a password has the filter `nothing` at every position.
-/
theorem authorizePasswordCheck_of_refused (hcurrent : w.catalog.current = some s)
    (hrefuses : s.refuses r.claims = true) {q : Query} {info : TypeInfo}
    (hroot : s.find? q.typeName = some info) :
    (w.perform (authorizePasswordCheck r q)).1 = .ok q.shut := by
  obtain ⟨vs, hvs, hdenies⟩ := Schema.exists_outcomes_of_refused hrefuses w.store.complement
    .query (s.governedTypes q)
  obtain ⟨root, hrootvs, hrootdenies⟩ := Schema.exists_outcomes_of_refused hrefuses
    w.store.complement .password (Names.sorted (s.positionTypes q.typeName))
  rw [perform_authorizePasswordCheck (ready_of_refused hcurrent hrefuses) hroot, hvs, hrootvs]
  exact congrArg Except.ok (Visibilities.restrict_of_denied hrootdenies hdenies q)

/-- What is left of a query that is refused is a question to the store, with nothing visible of
any type. -/
theorem query_of_refused (hcurrent : w.catalog.current = some s)
    (hrefuses : s.refuses r.claims = true) {q : Query} {info : TypeInfo}
    (hroot : s.find? q.typeName = some info) :
    ∃ vs : Visibilities, vs.Denies ∧ (w.perform (query r q)).1 =
      (((⟨w.store, w.policy, r⟩ : Client).read vs s info.kind q).run w.line).1 := by
  obtain ⟨vs, hvs, hdenies⟩ := Schema.exists_outcomes_of_refused hrefuses w.store.complement
    .query (s.governedTypes q)
  refine ⟨Keyed.ofList vs, hdenies, ?_⟩
  rw [perform_query (ready_of_refused hcurrent hrefuses) hroot, hvs]
  rfl

/-- A query on an object type is answered with no record or ends with an outage. -/
theorem query_object_of_refused (hcurrent : w.catalog.current = some s)
    (hrefuses : s.refuses r.claims = true) {q : Query} {info : TypeInfo}
    (hroot : s.find? q.typeName = some info) (hkind : info.kind = .object) :
    ((w.perform (query r q)).1 = .ok [] ∨
      ∃ problem, problem.isOutage = true ∧ (w.perform (query r q)).1 = .error problem) ∧
    (w.store.offline = false → w.line.faults = [] → r.isLive w.line.now = true →
      (w.perform (query r q)).1 = .ok []) := by
  let c : Client := ⟨w.store, w.policy, r⟩
  obtain ⟨vs, hdenies, hquery⟩ := query_of_refused hcurrent hrefuses hroot
  rw [hquery, hkind]
  refine ⟨?_, fun honline hfaults hlive => ?_⟩
  · have hends : Job.Ends [] ((c.read vs s .object q).run w.line).1 :=
      (Client.gives_read_of_denied (c := c) hdenies).run
    cases hresult : ((c.read vs s .object q).run w.line).1 with
    | ok records =>
        rw [hresult] at hends
        exact Or.inl (congrArg Except.ok hends)
    | error problem =>
        rw [hresult] at hends
        exact Or.inr ⟨problem, hends, rfl⟩
  · have hprompt : (c.read vs s .object q).Prompt w.line.now (· = []) :=
      Client.prompt_read_of_denied (c := c) hdenies honline hlive
    obtain ⟨records, rfl, hrun⟩ := hprompt.run hfaults
    exact hrun

/-- Whatever rule is asked about, it says no: as a filter it denies, without nodes it does not
allow, and of the nodes that are named none passes. -/
theorem evaluate_of_refused (hcurrent : w.catalog.current = some s)
    (hrefuses : s.refuses r.claims = true) (typeName : String) (op : Operation) (gated : String)
    (ids : List String) :
    (w.perform (evaluate r typeName op .filter)).1 = .ok (.visible .denied) ∧
      (w.perform (evaluate r typeName op (.gate gated none))).1 = .ok (.allowed false) ∧
      (w.perform (evaluate r typeName op (.gate gated (some ids)))).1 = .ok (.passed []) := by
  obtain ⟨w', hvisibility, _⟩ :=
    perform_visibility (ready_of_refused hcurrent hrefuses) typeName op
  rw [Schema.outcome_of_refused hrefuses] at hvisibility
  unfold evaluate
  rw [perform_bind_ok (perform_schema hcurrent), perform_bind_ok (perform_schema hcurrent),
    perform_bind_ok (perform_schema hcurrent)]
  simp only [hrefuses, if_true]
  rw [perform_bind_ok hvisibility]
  exact ⟨rfl, rfl, rfl⟩

/-- **A request that is anonymous on a schema that is closed by default is denied
everything**, whatever the store does; only a query on an object type can end with an outage
instead. -/
theorem anonymous_refused (hcurrent : w.catalog.current = some s)
    (hclosed : s.closedByDefault = true) (hanonymous : r.claims.isEmpty = true) :
    w.Refused s r := by
  have hrefuses : s.refuses r.claims = true := by
    unfold Schema.refuses
    rw [hclosed, hanonymous]
    rfl
  constructor
  · intro q hknown
    obtain ⟨info, hroot⟩ := Option.isSome_iff_exists.1 hknown
    exact ⟨authorizeQuery_of_refused hcurrent hrefuses hroot,
      authorizePasswordCheck_of_refused hcurrent hrefuses hroot⟩
  · intro q info hroot hkind
    obtain ⟨vs, hdenies, hquery⟩ := query_of_refused hcurrent hrefuses hroot
    rw [hquery]
    exact Client.run_read_of_denied hdenies hkind w.line
  · intro q info hroot hkind
    exact query_object_of_refused hcurrent hrefuses hroot hkind
  · intro op typeName kind ids htarget
    rw [perform_authorizeWrite hcurrent]
    exact Client.authorize_of_refused hrefuses htarget ids w.line
  · intro typeName info hfind hkind
    have htarget : s.writeTarget .add typeName = .ok .object := by
      simp [Schema.writeTarget, Operation.isWrite, hfind, hkind]
    rw [perform_authorizeAdd, perform_authorizeWrite hcurrent,
      Client.authorize_of_refused hrefuses htarget]
    rfl
  · intro typeName op gated ids
    exact evaluate_of_refused hcurrent hrefuses typeName op gated ids

/-- Notes that are closed to anonymous requests. -/
def closedNotes : SchemaDefinition where
  types := [{ name := "Note", kind := .object }]
  descriptor := some ⟨"X-Auth", "https://app.io/claims", none, none, none, [], true⟩

/-- A warden whose store cannot be reached. -/
def outpost : Warden where
  catalog := (Catalog.empty.load closedNotes).2
  store := { graph := .ofList [⟨"n1", "Note", [], .empty⟩], offline := true }

/-- There an anonymous query on notes is not denied but fails. -/
theorem outpost_reports_outage :
    ∃ s problem, outpost.catalog.current = some s ∧ s.Accepted ∧ s.closedByDefault = true ∧
      (s.find? "Note").isSome = true ∧ ({} : Request).claims.isEmpty = true ∧
      (outpost.perform (query {} { typeName := "Note" })).1 = .error problem ∧
      problem.isOutage = true := by
  have hfails : (outpost.catalog.current.any fun s =>
      (s.closedByDefault && (s.find? "Note").isSome) &&
        match (outpost.perform (query {} { typeName := "Note" })).1 with
        | .ok _ => false
        | .error problem => problem.isOutage) = true := by
    decide +kernel
  obtain ⟨s, hs, hfails⟩ := (Option.any_eq_true _ _).1 hfails
  obtain ⟨hschema, hfails⟩ := (Bool.and_eq_true _ _).mp hfails
  obtain ⟨hclosed, hfind⟩ := (Bool.and_eq_true _ _).mp hschema
  have hload : (Catalog.empty.load closedNotes).2.current = some s := hs
  split at hfails
  · simp at hfails
  · next problem herror =>
    exact ⟨s, problem, hs, Catalog.accepted_of_load hload, hclosed, hfind, rfl, herror, hfails⟩

/-- The outpost refuses anonymous requests, as every accepted schema that is closed does. -/
theorem outpost_refuses_anonymous :
    ∃ s, outpost.catalog.current = some s ∧ s.closedByDefault = true ∧
      outpost.Refused s {} := by
  have hclosed : (outpost.catalog.current.any fun s => s.closedByDefault) = true := by
    decide +kernel
  obtain ⟨s, hs, hclosed⟩ := (Option.any_eq_true _ _).1 hclosed
  exact ⟨s, hs, hclosed, anonymous_refused hs hclosed rfl⟩

end Warden

end GraphWarden
