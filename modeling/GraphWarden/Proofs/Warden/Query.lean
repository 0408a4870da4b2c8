import GraphWarden.Proofs.Timeline.Outage
import GraphWarden.Proofs.Warden.Outcome

/-!
# Queries that are answered

A warden asks its memory or its rules what may be seen of each type of a query, restricts
the query, and has a client run it: as it is, when it is on an object type, or split.

**It answers just what is to be answered, or reports an outage** (`query_exact`), and where
the store works and no filter fails there is no outage.
-/

namespace GraphWarden

/-- The records that a warden reports: those of the query, but none of records that are put
together under a limit of zero. -/
def Schema.reported (s : Schema) (g : Graph) (sees : Node → Bool) (kind : TypeKind) (q : Query) :
    List Record :=
  if kind ≠ .object ∧ q.first = some 0 then [] else s.answerSeeing g sees q

/-- Reporting what a request sees answers the query, unless the query asks for no record. -/
theorem Schema.reported_eq {s : Schema} {g : Graph} {sees : Node → Bool} {kind : TypeKind}
    {q : Query} (hfirst : q.first ≠ some 0) : s.reported g sees kind q = s.answerSeeing g sees q :=
  if_neg fun h => hfirst h.2

/-! ### Jobs -/

namespace Client

variable {c : Client} {vs : Visibilities} {s : Schema} {sees : Node → Bool} {q : Query}
  {info : TypeInfo} {t : Nat}

/-- A client that executes a query gets what the graph has for it, or reports an outage. -/
theorem gives_selected (q : Query) :
    (c.execute q).Gives t (Job.Ends (c.store.graph.selected q)) :=
  gives_execute fun _ h => Graph.execute_eq (Store.of_online h)

/-- Where the store works, the request is live and no filter fails, the client gets this at once.
-/
theorem prompt_selected (honline : c.store.offline = false) (hlive : c.request.isLive t = true)
    {q : Query} (hanswers : ∃ records, c.store.graph.execute q = .ok records) :
    (c.execute q).Prompt t (· = c.store.graph.selected q) := by
  obtain ⟨records, hrecords⟩ := hanswers
  have hselected : records = c.store.graph.selected q := Graph.execute_eq hrecords
  refine prompt_execute ?_ hlive
  rw [← hselected]
  exact (Store.online_eq honline).trans hrecords

/-- As many of a list as a limit on what is put together allows; here a limit of zero allows
none. -/
def capped {α : Type} (first : Option Nat) (xs : List α) : List α :=
  match first with
  | none => xs
  | some n => xs.take n

/-- A limit other than zero is a limit. -/
theorem capped_eq_upTo {α : Type} {first : Option Nat} (xs : List α) (hfirst : first ≠ some 0) :
    capped first xs = upTo first xs := by
  cases first with
  | none => rfl
  | some n =>
      have hmax : max n 1 = n := by
        have hn : n ≠ 0 := fun h => hfirst (h ▸ rfl)
        omega
      simp only [capped, upTo, hmax]

/-- What a warden has its client do for a query. -/
def read (c : Client) (vs : Visibilities) (s : Schema) (kind : TypeKind) (q : Query) :
    Job (List Record) :=
  if kind = .object then c.execute (vs.restrict vs s q)
  else c.executeUnion ((q.split s).map (vs.restrict vs s)) q.first

/-- What is put together of the parts of a query is what is reported of it. -/
theorem limited_merged (hs : s.Sound) (hfits : c.store.graph.Fits s)
    (htells : vs.TellsTypesOf s c.store.graph (Visibilities.plainly c.store.graph) sees q)
    (hroot : s.find? q.typeName = some info) (hobject : info.kind ≠ .object)
    {answers : List (List Record)}
    (hanswers : answers.Perm ((vs.sent s q).map c.store.graph.selected)) :
    capped q.first (answers.foldl merge Keyed.empty).values =
      s.reported c.store.graph sees info.kind q := by
  unfold Schema.reported
  by_cases hfirst : q.first = some 0
  · rw [if_pos ⟨hobject, hfirst⟩, hfirst]
    rfl
  · rw [if_neg fun h => hfirst h.2]
    exact (capped_eq_upTo _ hfirst).trans
      (Visibilities.merged_sent hs hfits htells hroot hanswers)

/-- **Whatever the store does meanwhile**, the job ends with the right answer or with an
outage. -/
theorem gives_reported (hs : s.Sound) (hfits : c.store.graph.Fits s)
    (htells : vs.TellsTypesOf s c.store.graph (Visibilities.plainly c.store.graph) sees q)
    (hroot : s.find? q.typeName = some info) :
    (c.read vs s info.kind q).Gives t
      (Job.Ends (s.reported c.store.graph sees info.kind q)) := by
  unfold read
  split
  · next hobject =>
      rw [Schema.reported, if_neg (by simp [hobject]),
        ← Visibilities.selected_restrict_whole hs hfits htells hroot (by simp [hobject])]
      exact gives_selected _
  · next hobject =>
      exact Job.Gives.bind_gather (fun part _ => gives_selected part) fun answers hanswers =>
        limited_merged hs hfits htells hroot hobject hanswers

/-- Reading gives what is seen, or ends with an outage, whether the root is an object type and the
query is run as it is, or the query is split. -/
theorem gives_read (hs : s.Sound) (hfits : c.store.graph.Fits s)
    (htells : vs.TellsTypesOf s c.store.graph (Visibilities.plainly c.store.graph) sees q)
    (hroot : s.find? q.typeName = some info) (hfirst : q.first ≠ some 0) :
    (c.read vs s info.kind q).Gives t (Job.Ends (s.answerSeeing c.store.graph sees q)) := by
  rw [← Schema.reported_eq hfirst]
  exact gives_reported hs hfits htells hroot

/-- Where the store works and can evaluate the filters, the answer is there at once, for a query
that is run as it is and for one that is split. -/
theorem prompt_reported (hs : s.Sound) (hfits : c.store.graph.Fits s)
    (htells : vs.TellsTypesOf s c.store.graph (Visibilities.plainly c.store.graph) sees q)
    (hverdict : vs.TellsTypesOf s c.store.graph (Filter.verdict c.store.graph) sees q)
    (hroot : s.find? q.typeName = some info)
    (honline : c.store.offline = false) (hlive : c.request.isLive t = true)
    (hdecides : ∀ n ∈ c.store.graph.toList, n.typeName ∈ s.positionTypes q.typeName →
      c.store.graph.Decides q.filter n)
    (hanswerable : c.store.graph.Answerable q.selections) :
    (c.read vs s info.kind q).Prompt t (· = s.reported c.store.graph sees info.kind q) := by
  have hprompt : ∀ typeName ∈ s.positionTypes q.typeName,
      (c.execute (vs.restrict vs s { q with typeName })).Prompt t
        (· = c.store.graph.selected (vs.restrict vs s { q with typeName })) :=
    fun typeName ht => prompt_selected honline hlive
      (Visibilities.execute_restrict_copy_isOk hs hfits hverdict hdecides hanswerable hroot ht)
  unfold read
  split
  · next hobject =>
      rw [Schema.reported, if_neg (by simp [hobject]),
        ← Visibilities.selected_restrict_whole hs hfits htells hroot (by simp [hobject])]
      exact hprompt q.typeName (by simp [Schema.positionTypes, hroot, hobject])
  · next hobject =>
      have hsent : ∀ part ∈ vs.sent s q,
          (c.execute part).Prompt t (· = c.store.graph.selected part) := by
        intro part hpart
        obtain ⟨copy, hcopy, rfl⟩ := List.mem_map.1 (List.mem_filter.1 hpart).1
        obtain ⟨typeName, ht, rfl⟩ := List.mem_map.1 hcopy
        exact hprompt typeName ht
      refine (Job.prompt_gather hsent).bind fun answers hanswers => Job.prompt_pure ?_
      exact limited_merged hs hfits htells hroot hobject (AnswersTo.perm_map hanswers)

/-- Reading is over at once, and gives what is seen, where the store works and no filter fails.
The filters that may fail are those of the query and those that restrict it, so two things are
known of the outcomes: what they let through, and that the store can tell. -/
theorem prompt_read (hs : s.Sound) (hfits : c.store.graph.Fits s)
    (htells : vs.TellsTypesOf s c.store.graph (Visibilities.plainly c.store.graph) sees q)
    (hverdict : vs.TellsTypesOf s c.store.graph (Filter.verdict c.store.graph) sees q)
    (hroot : s.find? q.typeName = some info) (hfirst : q.first ≠ some 0)
    (honline : c.store.offline = false) (hlive : c.request.isLive t = true)
    (hdecides : ∀ n ∈ c.store.graph.toList, n.typeName ∈ s.positionTypes q.typeName →
      c.store.graph.Decides q.filter n)
    (hanswerable : c.store.graph.Answerable q.selections) :
    (c.read vs s info.kind q).Prompt t (· = s.answerSeeing c.store.graph sees q) := by
  rw [← Schema.reported_eq hfirst]
  exact prompt_reported hs hfits htells hverdict hroot honline hlive hdecides hanswerable

end Client

/-! ### Requests -/

namespace Warden

variable {w : Warden} {s : Schema} {r : Request} {q : Query} {info : TypeInfo}

/-- A query is answered by a job that is given what may be seen of each type. -/
theorem perform_query (hw : Ready s r.claims w) (hroot : s.find? q.typeName = some info) :
    (w.perform (query r q)).1 =
      (s.outcomes w.store.complement r.claims .query (s.governedTypes q)).bind fun vs =>
        (((⟨w.store, w.policy, r⟩ : Client).read (Keyed.ofList vs) s info.kind q).run
          w.line).1 := by
  obtain ⟨w', hperform, halike, _⟩ := perform_visibilities hw .query (s.governedTypes q)
  unfold query
  rw [perform_counted]
  unfold answer
  rw [perform_bind_ok (perform_schema hw.current), perform_bind_ok (perform_rootKind hroot),
    perform_bind, hperform]
  cases s.outcomes w.store.complement r.claims .query (s.governedTypes q) with
  | error problem => rfl
  | ok vs =>
      obtain ⟨memo, meter, rfl⟩ := halike
      simp only [Except.bind]
      rw [perform_bind_ok (perform_count _)]
      unfold Client.read
      split
      · exact perform_ask r _
      · exact perform_ask r _

/-- **A warden answers a query with what its rules let the claims see of the nodes that the
query, as it was asked, selects**, each once and in the order of their ids; or there is an
outage, which a store that works and can evaluate the filters does not have.  The warden
is faithful to the claims after every run of demands (`faithful_run`). -/
theorem query_exact (hcurrent : w.catalog.current = some s) (haccepted : s.Accepted)
    (hfits : w.store.graph.Fits s) (hfaithful : w.Faithful r.claims)
    (hcomplement : w.store.complement = true) (hopen : s.refuses r.claims = false)
    (hroot : s.find? q.typeName = some info) (hfirst : q.first ≠ some 0) :
    ((s.answer w.store.graph r.claims q).Pairwise fun a b => a.id < b.id) ∧
    ((w.perform (query r q)).1 = .ok (s.answer w.store.graph r.claims q) ∨
      ∃ problem, problem.isOutage = true ∧ (w.perform (query r q)).1 = .error problem) ∧
    (w.store.offline = false → w.line.faults = [] → r.isLive w.line.now = true →
      s.Evaluable w.store.graph r.claims q →
      (w.perform (query r q)).1 = .ok (s.answer w.store.graph r.claims q)) := by
  have hs := haccepted.sound
  have hw : Ready s r.claims w := ⟨hcurrent, fun _ => hfaithful⟩
  obtain ⟨vs, hvs⟩ := hs.outcomes_isOk r.claims .query (s.governedTypes q)
  have hknows := Schema.knows_of_outcomes hopen hvs
  have hperform := perform_query hw hroot
  rw [hcomplement, hvs] at hperform
  simp only [Except.bind] at hperform
  refine ⟨Schema.answer_rising _ _ _ _, ?_, fun honline hfaults hlive hevaluable => ?_⟩
  · have hends := (Client.gives_read (c := ⟨w.store, w.policy, r⟩) (t := w.line.now) hs hfits
      hknows.tellsTypes hroot hfirst).run
    rw [← Schema.answer_eq_answerSeeing] at hends
    rw [hperform]
    cases hresult : (((⟨w.store, w.policy, r⟩ : Client).read (Keyed.ofList vs) s info.kind q).run
        w.line).1 with
    | ok records =>
        rw [hresult] at hends
        exact Or.inl (congrArg Except.ok hends)
    | error problem =>
        rw [hresult] at hends
        exact Or.inr ⟨problem, hends, rfl⟩
  · obtain ⟨records, rfl, hrun⟩ := (Client.prompt_read (c := ⟨w.store, w.policy, r⟩) hs hfits
      hknows.tellsTypes (hknows.tellsTypes_verdict hevaluable) hroot hfirst honline hlive
      hevaluable.root hevaluable.below).run hfaults
    exact hperform.trans hrun

/-- Two notes and a task about both; notes are shown when they are public. -/
def entryNodes : List Node := [
  ⟨"n1", "Note", ["Entry"], .ofList [("public", .scalar (.flag true))]⟩,
  ⟨"n2", "Note", ["Entry"], .empty⟩,
  ⟨"t1", "Task", ["Entry"], .ofList [("about", .edges ["n2", "n1"])]⟩]

def entries : Graph := .ofList entryNodes

def entryTypes : SchemaDefinition where
  types := [
    { name := "Entry", kind := .interface },
    TypeDefinition.withRule { name := "Note", kind := .object, interfaces := ["Entry"] } .query
      (.rule "query \x7b queryNote \x7b public \x7d \x7d"),
    { name := "Task", kind := .object, interfaces := ["Entry"] }]

def board : Warden where
  catalog := (Catalog.empty.load entryTypes).2
  store := { graph := entries }
  memo := some { capacity := 4, lifetime := .endless }

def latest : Query where
  typeName := "Entry"
  filter := some (.not (.has "hidden"))
  selections := [.edge "about" "Note" [.scalar "id"]]
  first := some 2

/-- The entries are of types that the schema in force knows, with the interfaces it knows. -/
theorem board_fits {s : Schema} (hs : board.catalog.current = some s) : entries.Fits s := by
  have hobjects : (board.catalog.current.all fun s => entries.toList.all fun n =>
      (s.find? n.typeName).any fun info =>
        info.kind = .object ∧ info.interfaces = n.interfaces) = true := by
    decide +kernel
  rw [hs] at hobjects
  exact Graph.fits_of_all hobjects

/-- None of the filters involved fails on any entry: neither that of the query, nor those of the
rules, nor any below the root. -/
theorem board_evaluable {s : Schema} (hs : board.catalog.current = some s) :
    s.Evaluable entries Claims.none latest := by
  have hfilter : ∀ n ∈ entries.toList,
      (Filter.acceptsIfAny entries latest.filter n).isOk = true := by decide +kernel
  have hrules : (board.catalog.current.all fun s => entries.toList.all fun n =>
      (s.rule? n.typeName .query).all fun rule => rule.graphRules.all fun part =>
        (part.bind? Claims.none).all fun f => f.all fun f => (f.accepts entries n).isOk) =
          true := by
    decide +kernel
  rw [hs] at hrules
  constructor
  · intro n hn _
    exact exists_of_isOk (hfilter n hn)
  · simp only [latest, Selection.edge, Selection.scalar, Graph.Answerable, Graph.AnswerableAt,
      and_true]
    exact ⟨fun m _ _ => ⟨true, rfl⟩, fun m _ _ => ⟨true, rfl⟩⟩
  · intro n hn _ rule hrule part hpart
    have hdecided := List.all_eq_true.1 hrules n hn
    simp only [hrule, Option.all_some, List.all_eq_true] at hdecided
    exact GraphRule.decided_of_all (hdecided part hpart)

/-- The query that asks for two entries gets the public note and the task.  The note that is not
public is left out, though it comes second. -/
theorem board_query_exact :
    ∃ s, board.catalog.current = some s ∧
      (board.perform (query {} latest)).1 = .ok (s.answer entries Claims.none latest) ∧
      (s.answer entries Claims.none latest).map Record.id = ["n1", "t1"] := by
  have hsome : board.catalog.current.isSome = true := by decide +kernel
  obtain ⟨s, hs⟩ := Option.isSome_iff_exists.1 hsome
  have hroot : (board.catalog.current.bind fun s => s.find? latest.typeName).isSome = true := by
    decide +kernel
  have hopen : board.catalog.current.any (fun s => s.refuses Claims.none) = false := by
    decide +kernel
  have hids : ((board.perform (query {} latest)).1.map fun (records : List Record) =>
      records.map Record.id).toOption = some ["n1", "t1"] := by
    decide +kernel
  rw [hs] at hroot hopen
  obtain ⟨info, hinfo⟩ := Option.isSome_iff_exists.1 hroot
  have haccepted : s.Accepted := by
    have hload := hs
    simp only [board] at hload
    exact Catalog.accepted_of_load hload
  have hexact := query_exact (w := board) (r := {}) (q := latest) hs
    haccepted (board_fits hs) (faithful_of_nothing fun m hm => by
      rw [← Option.some.inj hm]) rfl hopen hinfo (by decide)
  have hanswer := hexact.2.2 rfl rfl rfl (board_evaluable hs)
  refine ⟨s, hs, hanswer, ?_⟩
  rw [hanswer] at hids
  exact Option.some.inj hids

end Warden

end GraphWarden
