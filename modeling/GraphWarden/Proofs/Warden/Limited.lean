import GraphWarden.Proofs.Rule.Narrowing
import GraphWarden.Proofs.Warden.Outage
import GraphWarden.Proofs.Warden.Query

/-!
# Queries with a limit

A query on an interface or a union is split, and under a limit each part is cut off before the
parts are put together, in whichever order they come, and then the whole is cut off again.  None
of the first records is lost on the way: what stands before a record in its own part stands before
it in the whole (`upTo_merged_parts`).

A query that was answered without a limit could be answered, part by part, when it was asked
(`gives_canAnswer_union`), and then it can be answered under every limit (`prompt_union`).  So
**a limit takes the first records of the answer and changes nothing else** (`limited_query`), for
all orders in which the parts may be done; the turns of a line stand for each of these orders
(`Line.exists_shuffle`).
-/

namespace GraphWarden

/-- Things that might all come first may come in every order; the turns of the line decide. -/
theorem Line.exists_shuffle {α : Type} (l : Line) {xs : List α} : ∀ {ys : List α}, ys.Perm xs →
    ∃ turns, ({ l with turns } : Line).shuffle xs = (ys, { l with turns := [] }) := by
  induction xs with
  | nil =>
      intro ys h
      exact ⟨[], by rw [h.eq_nil]; rfl⟩
  | cons x xs ih =>
      intro ys h
      obtain ⟨before, after, rfl⟩ := List.append_of_mem (h.mem_iff.2 List.mem_cons_self)
      obtain ⟨turns, hturns⟩ := ih (List.perm_middle.symm.trans h).cons_inv
      refine ⟨before.length :: turns, ?_⟩
      simp only [Line.shuffle, Line.turn, List.headD_cons, List.tail_cons, hturns]
      simp

/-! ### Jobs -/

/-- There is an answer only if `P` holds. -/
def Job.OnlyIf {α : Type} (P : Prop) : Except AccessProblem α → Prop
  | .ok _ => P
  | .error _ => True

namespace Client

variable {c : Client} {t : Nat} {q : Query} {first : Option Nat} {selections : List Selection}
  {queries : List Query}

/-- A query is answered at a time, with a limit or without: the store works, the request is live,
and each stored node can be reported or passed over. -/
structure CanAnswer (c : Client) (t : Nat) (q : Query) : Prop where
  online : c.store.offline = false
  live : c.request.isLive t = true
  evaluates : ∀ n ∈ c.store.graph.toList, ∃ record, c.store.graph.record? q n = .ok record

/-- A query that was answered without a limit could be answered when it was asked. -/
theorem gives_canAnswer (q : Query) :
    (c.execute { q with first := none }).Gives t (Job.OnlyIf (c.CanAnswer t q)) := by
  intro l hl
  refine (gives_call l hl).map fun x hx => ?_
  cases x with
  | error _ => trivial
  | ok records =>
      obtain ⟨hanswer, hlive⟩ := hx
      exact ⟨Store.offline_eq_false hanswer, hlive, isOk_of_takeUpTo (Store.of_online hanswer)⟩

/-- And it is answered under every limit. -/
theorem CanAnswer.prompt (h : c.CanAnswer t q) (first : Option Nat) :
    (c.execute { q with first }).Prompt t (· = c.store.graph.selected { q with first }) :=
  prompt_selected h.online h.live (takeUpTo_isOk h.evaluates first)

/-- The queries that are run of several ones. -/
def sentOf (queries : List Query) : List Query :=
  queries.filter fun q => !q.filter.any Filter.isNothing

/-- Running the parts of a union under a limit runs those that are sent, each under the limit, and
cuts off what is put together of their answers. -/
theorem executeUnion_limited (c : Client) (queries : List Query) (first : Option Nat) :
    c.executeUnion (queries.map fun q => { q with first }) first =
      (Job.gather ((sentOf queries).map fun q => c.execute { q with first })).bind fun answers =>
        Job.pure (capped first (answers.foldl merge Keyed.empty).values) := by
  have hsent : ((queries.map fun q => { q with first }).filter fun q : Query =>
      !q.filter.any Filter.isNothing).map c.execute =
        (sentOf queries).map fun q => c.execute { q with first } := by
    rw [List.filter_map, List.map_map]
    rfl
  exact congrArg (fun jobs => (Job.gather jobs).bind fun answers =>
    Job.pure (capped first (answers.foldl merge Keyed.empty).values)) hsent

/-- What is put together of queries that are cut off is the whole, cut off. -/
theorem capped_merged (hsame : ∀ q ∈ queries, q.selections = selections)
    {answers : List (List Record)}
    (hanswers : answers.Perm
      ((sentOf queries).map fun q => c.store.graph.selected { q with first })) :
    capped first (answers.foldl merge Keyed.empty).values =
      capped first (c.store.graph.wholeOf selections (sentOf queries)) := by
  by_cases hfirst : first = some 0
  · rw [hfirst]
    rfl
  · rw [capped_eq_upTo _ hfirst, capped_eq_upTo _ hfirst]
    exact upTo_merged_parts (fun q hq => hsame q (List.mem_filter.1 hq).1) hanswers

/-- **Whatever the store does meanwhile**, queries that are cut off end with the whole, cut off,
or with an outage. -/
theorem gives_union (hsame : ∀ q ∈ queries, q.selections = selections) (first : Option Nat) :
    (c.executeUnion (queries.map fun q => { q with first }) first).Gives t
      (Job.Ends (capped first (c.store.graph.wholeOf selections (sentOf queries)))) := by
  rw [executeUnion_limited]
  exact Job.Gives.bind_gather (fun q _ => gives_selected { q with first }) fun answers hanswers =>
    capped_merged hsame hanswers

/-- Where each of the queries can be answered, the whole is there at once. -/
theorem prompt_union (hsame : ∀ q ∈ queries, q.selections = selections)
    (hcan : ∀ q ∈ sentOf queries, c.CanAnswer t q) (first : Option Nat) :
    (c.executeUnion (queries.map fun q => { q with first }) first).Prompt t
      (· = capped first (c.store.graph.wholeOf selections (sentOf queries))) := by
  rw [executeUnion_limited]
  exact (Job.prompt_gather fun q hq => (hcan q hq).prompt first).bind fun answers hanswers =>
    Job.prompt_pure (capped_merged hsame (AnswersTo.perm_map hanswers))

/-- When queries were answered together without a limit, each of them could be. -/
theorem gives_canAnswer_union (queries : List Query) :
    (c.executeUnion (queries.map fun q => { q with first := none }) none).Gives t
      (Job.OnlyIf (∀ q ∈ sentOf queries, c.CanAnswer t q)) := by
  rw [executeUnion_limited]
  refine (Job.gives_gather fun q _ => gives_canAnswer q).bind (fun answers hanswers => ?_)
    fun _ _ => trivial
  refine Job.gives_pure fun q hq => ?_
  obtain ⟨_, _, hcan⟩ := hanswers.exists_answer hq
  exact hcan

end Client

/-! ### Requests -/

/-- A query is split and restricted in the same way under every limit. -/
theorem Visibilities.restrict_split_limited (vs : Visibilities) (s : Schema) (q : Query)
    (first : Option Nat) : (({ q with first } : Query).split s).map (vs.restrict vs s) =
      ((q.split s).map (vs.restrict vs s)).map fun part => { part with first } := by
  simp only [Query.split, List.map_map]
  rfl

namespace Warden

variable {w w' : Warden} {s : Schema} {r : Request} {q : Query} {info : TypeInfo}

/-- A query on an interface or a union is answered by its parts, cut off, and put together. -/
theorem perform_query_on_types (hw : Ready s r.claims w) (hroot : s.find? q.typeName = some info)
    (hkind : info.kind ≠ .object) (first : Option Nat) :
    (w.perform (query r { q with first })).1 =
      (s.outcomes w.store.complement r.claims .query (s.governedTypes q)).bind fun vs =>
        (((⟨w.store, w.policy, r⟩ : Client).executeUnion
          (((q.split s).map (Visibilities.restrict (Keyed.ofList vs) (Keyed.ofList vs) s)).map
            fun part => { part with first }) first).run w.line).1 := by
  have hperform := perform_query (q := { q with first }) hw hroot
  simp only [Client.read, if_neg hkind, Visibilities.restrict_split_limited] at hperform
  exact hperform

/-- **Queries with a limit.**  When a query on an interface or a union is answered without a
limit, the records stand in the order of their ids, each once.  Under a limit it is answered with
the first of them, whatever the order in which its parts are done; a store that does not work may
stand in the way, and nothing else. -/
theorem limited_query (hw : Ready s r.claims w) (hw' : Ready s r.claims w')
    (hstore : w'.store = w.store) (hroot : s.find? q.typeName = some info)
    (hkind : info.kind ≠ .object) {records : List Record}
    (h : (w.perform (query r { q with first := none })).1 = .ok records) :
    (records.Pairwise fun a b => a.id < b.id) ∧ ∀ first,
      Job.Ends (Client.capped first records) (w'.perform (query r { q with first })).1 ∧
      (w'.line.faults = [] → w'.line.now ≤ w.line.now →
        (w'.perform (query r { q with first })).1 = .ok (Client.capped first records)) := by
  rw [perform_query_on_types hw hroot hkind] at h
  cases hvs : s.outcomes w.store.complement r.claims .query (s.governedTypes q) with
  | error problem => simp [hvs, Except.bind] at h
  | ok vs =>
      simp only [hvs, Except.bind] at h
      let parts := (q.split s).map (Visibilities.restrict (Keyed.ofList vs) (Keyed.ofList vs) s)
      have hsame : ∀ part ∈ parts, part.selections =
          Visibilities.restrictAll (Keyed.ofList vs) s q.selections :=
        fun _ => selections_of_mem_split
      have hends := (Client.gives_union (c := ⟨w.store, w.policy, r⟩) hsame none).run (l := w.line)
      have hcan := (Client.gives_canAnswer_union (c := ⟨w.store, w.policy, r⟩) parts).run
        (l := w.line)
      rw [h] at hends hcan
      obtain rfl : records = w.store.graph.wholeOf _ (Client.sentOf parts) := hends
      refine ⟨Graph.wholeOf_rising _ _ _, fun first => ?_⟩
      rw [perform_query_on_types hw' hroot hkind, hstore, hvs]
      refine ⟨(Client.gives_union (c := ⟨w.store, w'.policy, r⟩) hsame first).run,
        fun hfaults hnow => ?_⟩
      have hcan' : ∀ part ∈ Client.sentOf parts,
          (⟨w.store, w'.policy, r⟩ : Client).CanAnswer w'.line.now part := by
        intro part hpart
        obtain ⟨online, live, evaluates⟩ := hcan part hpart
        exact ⟨online, Request.isLive_mono hnow live, evaluates⟩
      obtain ⟨_, rfl, hrun⟩ := (Client.prompt_union hsame hcan' first).run hfaults
      exact hrun

/-- The same warden where the part for tasks is done before the part for notes. -/
def turned : Warden := { board with line := { turns := [1] } }

/-- The parts are done in one order without a limit, and in the other one under a limit. -/
theorem limited_query_board :
    ∃ records, (board.perform (query {} { latest with first := none })).1 = .ok records ∧
      records.map Record.id = ["n1", "t1"] ∧
      ∀ n, (turned.perform (query {} { latest with first := some n })).1 =
        .ok (records.take n) := by
  have hids : ((board.perform (query {} { latest with first := none })).1.map
      fun (records : List Record) => records.map Record.id).toOption = some ["n1", "t1"] := by
    decide +kernel
  have hroot : (board.catalog.current.any fun s =>
      (s.find? latest.typeName).any fun info => info.kind ≠ .object) = true := by
    decide +kernel
  obtain ⟨s, hs, hroot⟩ := (Option.any_eq_true _ _).1 hroot
  obtain ⟨info, hinfo, hkind⟩ := (Option.any_eq_true _ _).1 hroot
  have hready : Ready s Claims.none board :=
    ⟨hs, fun _ => faithful_of_nothing fun m hm => by rw [← Option.some.inj hm]⟩
  have hturned : Ready s Claims.none turned :=
    ⟨by simpa only [turned] using hs,
      fun _ => faithful_of_nothing fun m hm => by rw [← Option.some.inj hm]⟩
  cases hrecords : (board.perform (query {} { latest with first := none })).1 with
  | error problem => simp [hrecords, Except.map, Except.toOption] at hids
  | ok records =>
      have hobject : info.kind ≠ .object := by simpa using hkind
      have hlimited := limited_query (r := {}) (q := latest) hready hturned rfl hinfo hobject
        hrecords
      refine ⟨records, rfl, ?_, fun n => (hlimited.2 (some n)).2 rfl (Nat.le_refl _)⟩
      rw [hrecords] at hids
      exact Option.some.inj hids

end Warden

end GraphWarden
