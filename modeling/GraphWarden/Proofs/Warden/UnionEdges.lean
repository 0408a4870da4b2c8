import GraphWarden.Proofs.Store.Places
import GraphWarden.Proofs.Warden.Query

/-!
# Edges to unions

At an edge to a union stand the members of the union: so says the schema, and so does the filter
that the rules add there, with one branch for each member (`Schema.dueBehind`).  But a store takes
a node for one of a type only by the node's own type or by an interface that it lists, and a
union is neither.

So **an edge to a union comes back empty from everywhere** (`union_edges_empty`), which is right
only where it has no visible member.  At the root of a query it is otherwise, because there a
query on a union is split.
-/

namespace GraphWarden

/-- The selection is an edge to a union that leads from the node at a place to some ids, and that
is reported under a key of its own. -/
structure Place.EdgeToUnion (place : Place) (s : Schema) (x : Selection) (u : String)
    (targets : List String) : Prop where
  lone : x.Lone place.selections
  name : x.name ≠ "id"
  target : x.targetType = some u
  union : ∃ info, s.find? u = some info ∧ info.kind = .union
  edges : place.node.fields.find? x.name = some (.edges targets)

namespace Schema

variable {s : Schema} {g : Graph} {sees : Node → Bool} {u : String} {info : TypeInfo} {n : Node}

/-- The members of a union. -/
def members (s : Schema) (name : String) : List String :=
  ((s.find? name).map TypeInfo.members).getD []

/-- The nodes behind an edge to a union that are to be shown, in the order of the edge: the
members that may be seen and that the filter of the edge accepts. -/
def dueBehind (s : Schema) (g : Graph) (sees : Node → Bool) (x : Selection) (u : String)
    (targets : List String) : List Node :=
  (g.among targets).filter fun m =>
    (s.members u).contains m.typeName && (sees m && x.filter.all fun f => f.meets g m)

/-- No stored node counts as one of a union. -/
theorem isA_union (hs : s.Sound) (hfits : g.Fits s) (hn : n ∈ g.toList)
    (hu : s.find? u = some info) (hunion : info.kind = .union) : n.isA u = false := by
  obtain ⟨own, hown, hobject, _⟩ := hfits n hn
  cases hisA : n.isA u with
  | false => rfl
  | true =>
      have hname := (isA_iff_of_object hs hfits hn hu (by simp [hunion])).1 hisA
      rw [hname, hu] at hown
      obtain rfl := Option.some.inj hown
      simp [hunion] at hobject

/-- Behind an edge to a union nothing is shown. -/
theorem shownBehind_union (hs : s.Sound) (hfits : g.Fits s) {x : Selection}
    (hx : x.targetType = some u) (hu : s.find? u = some info) (hunion : info.kind = .union)
    (targets : List String) : g.shownBehind sees x targets = [] := by
  refine List.filter_eq_nil_iff.2 fun m hm => ?_
  have hother := isA_union hs hfits (Graph.mem_among_iff.1 hm).1 hu hunion
  simp [hx, hother]

/-- Under the key of an edge to a union stands the empty list. -/
theorem under?_union (hs : s.Sound) (hfits : g.Fits s) {place : Place} {x : Selection}
    {targets : List String} (hedge : place.EdgeToUnion s x u targets)
    (hdatum : place.datum = g.datum sees place.selections place.node) :
    place.datum.under? x.key = some (.list []) := by
  obtain ⟨info, hu, hunion⟩ := hedge.union
  rw [hdatum, Graph.under?_datum hedge.lone, Graph.shownOne_edges hedge.name hedge.edges,
    shownBehind_union hs hfits hedge.target hu hunion, List.map_nil]

/-- What is reported are stored nodes, each with what the query shows of it. -/
theorem exists_of_reported {kind : TypeKind} {q : Query} {record : Record}
    (h : record ∈ s.reported g sees kind q) :
    ∃ n ∈ g.toList, record = g.shownRecord sees q.selections n := by
  unfold reported at h
  split at h
  · simp at h
  · obtain ⟨n, hn, rfl⟩ := List.mem_map.1 (mem_of_mem_upTo h)
    exact ⟨n, (List.mem_filter.1 hn).1, rfl⟩

end Schema

namespace Warden

variable {w : Warden} {s : Schema} {r : Request} {q : Query} {info : TypeInfo}

/-- **Edges to unions come back empty.**  In every record of an answer, and at every place in it,
stands just what is selected there shows of the node; and under the key of an edge to a union
stands the empty list.  That is what is due there exactly if no member behind the edge may be seen
and meets its filter.  A store that works and can evaluate the filters gives an answer. -/
theorem union_edges_empty (hcurrent : w.catalog.current = some s) (haccepted : s.Accepted)
    (hfits : w.store.graph.Fits s) (hfaithful : w.Faithful r.claims)
    (hcomplement : w.store.complement = true) (hopen : s.refuses r.claims = false)
    (hroot : s.find? q.typeName = some info) :
    (∀ records, (w.perform (query r q)).1 = .ok records → ∀ record ∈ records,
      ∃ n ∈ w.store.graph.toList, record.id = n.id ∧ record.typeName = n.typeName ∧
        ∀ place, w.store.graph.Leads (s.sees w.store.graph r.claims)
            ⟨q.selections, n, record.data⟩ place →
          place.datum = w.store.graph.datum (s.sees w.store.graph r.claims) place.selections
            place.node ∧
          ∀ x u targets, place.EdgeToUnion s x u targets →
            place.datum.under? x.key = some (.list []) ∧
            ((∃ datum : Node → Json, place.datum.under? x.key = some (.list
                ((s.dueBehind w.store.graph (s.sees w.store.graph r.claims) x u targets).map
                  datum))) ↔
              s.dueBehind w.store.graph (s.sees w.store.graph r.claims) x u targets = [])) ∧
    (w.store.offline = false → w.line.faults = [] → r.isLive w.line.now = true →
      s.Evaluable w.store.graph r.claims q → ∃ records, (w.perform (query r q)).1 = .ok records) := by
  have hs := haccepted.sound
  have hw : Ready s r.claims w := ⟨hcurrent, fun _ => hfaithful⟩
  obtain ⟨vs, hvs⟩ := hs.outcomes_isOk r.claims .query (s.governedTypes q)
  have hknows := Schema.knows_of_outcomes hopen hvs
  have hperform := perform_query hw hroot
  rw [hcomplement, hvs] at hperform
  simp only [Except.bind] at hperform
  refine ⟨?_, fun honline hfaults hlive hevaluable => ?_⟩
  · intro records hrecords record hrecord
    have hends := (Client.gives_reported (c := ⟨w.store, w.policy, r⟩) (t := w.line.now) hs hfits
      hknows.tellsTypes hroot).run
    rw [← hperform, hrecords] at hends
    obtain rfl : records = _ := hends
    obtain ⟨n, hn, rfl⟩ := Schema.exists_of_reported hrecord
    refine ⟨n, hn, rfl, rfl, fun place hplace => ?_⟩
    have hdatum := Graph.datum_of_leads hplace rfl
    refine ⟨hdatum, fun x u targets hedge => ?_⟩
    have hempty : place.datum.under? x.key = some (.list []) :=
      Schema.under?_union hs hfits hedge hdatum
    refine ⟨hempty, ?_⟩
    rw [hempty]
    constructor
    · rintro ⟨datum, hdue⟩
      have hnone := Json.list.inj (Option.some.inj hdue)
      exact List.map_eq_nil_iff.1 hnone.symm
    · intro hnone
      exact ⟨fun _ => .null, by rw [hnone, List.map_nil]⟩
  · obtain ⟨records, rfl, hrun⟩ := (Client.prompt_reported (c := ⟨w.store, w.policy, r⟩) hs hfits
      hknows.tellsTypes (hknows.tellsTypes_verdict hevaluable) hroot honline hlive
      hevaluable.root hevaluable.below).run hfaults
    exact ⟨_, hperform.trans hrun⟩

/-- What is found on a page are articles and authors. -/
def foundPages : SchemaDefinition where
  types := [{ name := "Page", kind := .object }, { name := "Article", kind := .object },
    { name := "Author", kind := .object },
    { name := "Hit", kind := .union, members := ["Article", "Author"] }]

/-- A page on which an article and an author are found. -/
def page : Node :=
  ⟨"p1", "Page", [], .ofList [("hits", .edges ["a1", "b1"])]⟩

/-- The page, and what is found on it. -/
def pages : Graph := .ofList [
  page,
  ⟨"a1", "Article", [], .empty⟩,
  ⟨"b1", "Author", [], .empty⟩]

/-- A warden of pages. -/
def index : Warden where
  catalog := (Catalog.empty.load foundPages).2
  store := { graph := pages }

/-- What is found. -/
def hits : Selection :=
  .edge "hits" "Hit" [.scalar "id"]

/-- What is found on each page. -/
def hitsOfPages : Query where
  typeName := "Page"
  selections := [hits]

/-- The page is found, but nothing of what is found on it. -/
theorem index_union_empty :
    ∃ records, (index.perform (query {} hitsOfPages)).1 = .ok records ∧
      records.map Record.id = ["p1"] ∧
      ∀ record ∈ records, record.data.under? "hits" = some (.list []) := by
  have hschema : (index.catalog.current.any fun s =>
      (!s.refuses Claims.none && (s.find? hitsOfPages.typeName).isSome) &&
        ((s.find? "Hit").any fun info => info.kind = .union) &&
        pages.toList.all fun n => (s.find? n.typeName).any fun info =>
          info.kind = .object ∧ info.interfaces = n.interfaces) = true := by
    decide +kernel
  have hids : ((index.perform (query {} hitsOfPages)).1.toOption.any fun records =>
      records.map Record.id = ["p1"]) = true := by
    decide +kernel
  obtain ⟨s, hs, hschema⟩ := (Option.any_eq_true _ _).1 hschema
  have hload : (Catalog.empty.load foundPages).2.current = some s := hs
  obtain ⟨hschema, hfits⟩ := (Bool.and_eq_true _ _).mp hschema
  obtain ⟨hrequest, hunion⟩ := (Bool.and_eq_true _ _).mp hschema
  obtain ⟨hopen, hroot⟩ := (Bool.and_eq_true _ _).mp hrequest
  obtain ⟨info, hinfo⟩ := Option.isSome_iff_exists.1 hroot
  obtain ⟨union, hu, hkind⟩ := (Option.any_eq_true _ _).1 hunion
  obtain ⟨records, hrecords, hids⟩ := (Option.any_eq_true _ _).1 hids
  rw [toOption_eq_some_iff] at hrecords
  have hids := of_decide_eq_true hids
  refine ⟨records, hrecords, hids, fun record hrecord => ?_⟩
  obtain ⟨n, hn, hid, _, hplaces⟩ := (union_edges_empty (w := index) (r := {}) (q := hitsOfPages)
    hs (Catalog.accepted_of_load hload) (Graph.fits_of_all hfits)
    (faithful_of_nothing fun m hm => by cases hm) rfl (by simpa using hopen) hinfo).1
    records hrecords record hrecord
  have hpage : n.id = "p1" := by
    have hmem : record.id ∈ records.map Record.id := List.mem_map_of_mem hrecord
    rw [hids, List.mem_singleton] at hmem
    exact hid.symm.trans hmem
  obtain rfl : page = n := by
    have hfind : pages.find? n.id = some n := Graph.mem_toList_iff.1 hn
    rw [hpage] at hfind
    exact Option.some.inj hfind
  have hedge : Place.EdgeToUnion ⟨hitsOfPages.selections, page, record.data⟩ s hits "Hit"
      ["a1", "b1"] := by
    refine ⟨⟨List.mem_cons_self, ?_⟩, by decide, rfl, ⟨union, hu, by simpa using hkind⟩, rfl⟩
    intro y hy _
    exact List.mem_singleton.1 hy
  exact ((hplaces _ .here).2 hits "Hit" _ hedge).1

/-- Of what is found on the page all may be seen, and nothing is shown: by the schema an article
and an author are due at the edge, and the answer has an empty list there. -/
theorem index_loses_hits :
    ∃ s record, index.catalog.current = some s ∧ s.Accepted ∧ pages.Fits s ∧
      s.refuses Claims.none = false ∧
      (index.perform (query {} hitsOfPages)).1 = .ok [record] ∧ record.id = "p1" ∧
      (record.data.under? "hits").map Json.compact = some "[]" ∧
      (s.dueBehind pages (s.sees pages Claims.none) hits "Hit" ["a1", "b1"]).map Node.id =
        ["a1", "b1"] := by
  have hschema : (index.catalog.current.any fun s =>
      (!s.refuses Claims.none && (pages.toList.all fun n => (s.find? n.typeName).any fun info =>
          info.kind = .object ∧ info.interfaces = n.interfaces)) &&
        (s.dueBehind pages (s.sees pages Claims.none) hits "Hit" ["a1", "b1"]).map Node.id =
          ["a1", "b1"]) = true := by
    decide +kernel
  have hanswer : ((index.perform (query {} hitsOfPages)).1.toOption.any fun records =>
      records.length = 1 && records.all fun record => record.id = "p1" &&
        (record.data.under? "hits").map Json.compact = some "[]") = true := by
    decide +kernel
  obtain ⟨s, hs, hschema⟩ := (Option.any_eq_true _ _).1 hschema
  have hload : (Catalog.empty.load foundPages).2.current = some s := hs
  obtain ⟨hschema, hdue⟩ := (Bool.and_eq_true _ _).mp hschema
  obtain ⟨hopen, hfits⟩ := (Bool.and_eq_true _ _).mp hschema
  obtain ⟨records, hrecords, hanswer⟩ := (Option.any_eq_true _ _).1 hanswer
  obtain ⟨hone, hall⟩ := (Bool.and_eq_true _ _).mp hanswer
  obtain ⟨record, rfl⟩ := List.length_eq_one_iff.1 (of_decide_eq_true hone)
  obtain ⟨hid, hempty⟩ := (Bool.and_eq_true _ _).mp (List.all_eq_true.1 hall record (by simp))
  exact ⟨s, record, hs, Catalog.accepted_of_load hload, Graph.fits_of_all hfits,
    by simpa using hopen, toOption_eq_some_iff.1 hrecords,
    of_decide_eq_true hid, of_decide_eq_true hempty, of_decide_eq_true hdue⟩

end Warden

end GraphWarden
