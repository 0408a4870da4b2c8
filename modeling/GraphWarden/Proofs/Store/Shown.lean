import GraphWarden.Proofs.Filter.Verdict
import GraphWarden.Store.Answer

/-!
# What a store's answers show

An answer is put together node by node, may fail on the way, and stops at a limit.
Here is what it amounts to.

* `Graph.shown` is what selections show of a node: plain truth instead of verdicts, and
  it never fails.  It leaves out, at every edge with a target type, the nodes that must
  not be seen; a store knows nothing of that and shows all nodes alike.
* **A store that answers shows just that** (`report_eq`, `execute_eq`, `probe_eq`),
  wherever a failing filter was not reached.
* **A store answers** when its filters can be evaluated on the nodes at their positions
  (`report_isOk`, `execute_isOk`).
-/

namespace GraphWarden

/-- As many of a list as a limit allows; a limit of zero allows one. -/
def upTo {β : Type} : Option Nat → List β → List β
  | none, bs => bs
  | some n, bs => bs.take (max n 1)

/-- What a limit lets through was there before. -/
theorem mem_of_mem_upTo {β : Type} {limit : Option Nat} {b : β} {bs : List β}
    (h : b ∈ upTo limit bs) : b ∈ bs := by
  cases limit with
  | none => exact h
  | some n => exact List.mem_of_mem_take h

/-- Where a changed answer is there, the answer was there before it was changed. -/
theorem exists_of_map_eq_ok {ε α β : Type} {f : α → β} {x : Except ε α} {b : β}
    (h : x.map f = .ok b) : ∃ a, x = .ok a ∧ f a = b := by
  cases x with
  | error problem => simp [Except.map] at h
  | ok a => exact ⟨a, rfl, Except.ok.inj h⟩

/-- Where an answer is there after two steps, each of them has given one.  Computations that may
fail are taken apart with this wherever one of their answers is known. -/
theorem exists_of_bind_eq_ok {ε α β : Type} {f : α → Except ε β} {x : Except ε α} {b : β}
    (h : (do let a ← x; f a) = .ok b) : ∃ a, x = .ok a ∧ f a = .ok b := by
  cases x with
  | error problem => simp [bind, Except.bind] at h
  | ok a => exact ⟨a, rfl, h⟩

section Taking

variable {α β : Type} {step : α → Answer (Option β)} {as : List α}

/-- Taking that succeeds takes what there is to be taken, up to the limit.  The limit is looked at
after each element that is taken, so a limit of one or less stops behind the first of them. -/
theorem takeUpTo_eq {p : α → Bool} {f : α → β}
    (hstep : ∀ a ∈ as, ∀ b, step a = .ok b → b = if p a then some (f a) else none) :
    ∀ limit bs, takeUpTo step limit as = .ok bs → bs = upTo limit ((as.filter p).map f) := by
  induction as with
  | nil =>
      intro limit bs h
      rw [takeUpTo] at h
      cases h
      cases limit <;> simp [upTo]
  | cons a as ih =>
      intro limit bs h
      have hrest := ih fun x hx => hstep x (List.mem_cons_of_mem _ hx)
      rw [takeUpTo] at h
      cases ha : step a with
      | error problem => simp [ha, bind, Except.bind] at h
      | ok b =>
          have hb := hstep a List.mem_cons_self b ha
          by_cases hp : p a = true
          · rw [if_pos hp] at hb
            subst hb
            rw [List.filter_cons_of_pos hp, List.map_cons]
            cases limit with
            | none =>
                cases htail : takeUpTo step none as with
                | error problem => simp [ha, htail, bind, Except.bind] at h
                | ok tail =>
                    simp only [ha, htail, bind, Except.bind, Option.any_none, Option.map_none,
                      Bool.false_eq_true, if_false, Except.ok.injEq] at h
                    rw [← h, hrest none tail htail]
                    rfl
            | some n =>
                by_cases hn : n ≤ 1
                · have hmax : max n 1 = 1 := by omega
                  simp only [ha, bind, Except.bind, Option.any_some, hn, decide_true, if_true,
                    Except.ok.injEq] at h
                  rw [← h, upTo, hmax]
                  rfl
                · cases htail : takeUpTo step (some (n - 1)) as with
                  | error problem => simp [ha, htail, hn, bind, Except.bind] at h
                  | ok tail =>
                      have hmax : max n 1 = max (n - 1) 1 + 1 := by omega
                      simp only [ha, htail, hn, bind, Except.bind, Option.any_some, Option.map_some,
                        decide_false, Bool.false_eq_true, if_false, Except.ok.injEq] at h
                      rw [← h, hrest _ tail htail, upTo, upTo, hmax, List.take_succ_cons]
          · rw [if_neg hp] at hb
            subst hb
            rw [List.filter_cons_of_neg hp]
            exact hrest limit bs (by simpa [ha, bind, Except.bind] using h)

/-- What taking without a limit did with the first of a list. -/
theorem cases_of_takeUpTo_cons {a : α} {bs : List β}
    (h : takeUpTo step none (a :: as) = .ok bs) :
    (step a = .ok none ∧ takeUpTo step none as = .ok bs) ∨
      ∃ b tail, step a = .ok (some b) ∧ takeUpTo step none as = .ok tail ∧ bs = b :: tail := by
  rw [takeUpTo] at h
  obtain ⟨taken, ha, h⟩ := exists_of_bind_eq_ok h
  cases taken with
  | none => exact Or.inl ⟨ha, h⟩
  | some b =>
      obtain ⟨tail, htail, h⟩ := exists_of_bind_eq_ok h
      exact Or.inr ⟨b, tail, ha, htail, (Except.ok.inj h).symm⟩

/-- A walk that succeeds at every step succeeds at any limit, since a limit only ends it earlier.
-/
theorem takeUpTo_isOk (hstep : ∀ a ∈ as, ∃ b, step a = .ok b) :
    ∀ limit, ∃ bs, takeUpTo step limit as = .ok bs := by
  induction as with
  | nil => exact fun limit => ⟨[], by rw [takeUpTo]⟩
  | cons a as ih =>
      intro limit
      have hrest := ih fun x hx => hstep x (List.mem_cons_of_mem _ hx)
      obtain ⟨b, ha⟩ := hstep a List.mem_cons_self
      rw [takeUpTo]
      cases b with
      | none =>
          obtain ⟨bs, hbs⟩ := hrest limit
          exact ⟨bs, by simpa [ha, bind, Except.bind] using hbs⟩
      | some b =>
          by_cases hlimit : limit.any (fun n => n ≤ 1) = true
          · exact ⟨[b], by simp only [ha, hlimit, bind, Except.bind, if_true]⟩
          · obtain ⟨bs, hbs⟩ := hrest (limit.map fun n => n - 1)
            exact ⟨b :: bs, by simp [ha, hlimit, hbs, bind, Except.bind]⟩

/-! A step asks whether a node is at its position, whether a filter accepts it, and then
puts something together. -/

/-- What becomes of one node: it is built into the answer when it is at a place of the query and
satisfies the filter, and left out otherwise. -/
theorem guarded_eq {place met : Bool} {accepts : Answer Bool} {build : Answer (Option β)} {x : β}
    (hmet : ∀ b, accepts = .ok b → met = b) (hbuild : ∀ b, build = .ok b → b = some x)
    {b : Option β}
    (h : (if place then accepts >>= fun accepted => if accepted then build else .ok none
      else .ok none) = Except.ok b) : b = if place && met then some x else none := by
  cases place with
  | false =>
      cases h
      rfl
  | true =>
      rw [if_pos rfl] at h
      cases haccepts : accepts with
      | error problem => simp [haccepts, bind, Except.bind] at h
      | ok accepted =>
          rw [hmet accepted haccepts]
          cases accepted with
          | false =>
              rw [haccepts] at h
              cases h
              rfl
          | true => exact hbuild b (by simpa [haccepts, bind, Except.bind] using h)

/-- There is an answer for one node when its filter can be evaluated wherever it is asked. -/
theorem guarded_isOk {place : Bool} {accepts : Answer Bool} {build : Answer (Option β)}
    (haccepts : place = true → ∃ b, accepts = .ok b) (hbuild : ∃ b, build = .ok b) :
    ∃ b, (if place then accepts >>= fun accepted => if accepted then build else .ok none
      else .ok none) = Except.ok b := by
  cases place with
  | false => exact ⟨none, rfl⟩
  | true =>
      obtain ⟨accepted, haccepted⟩ := haccepts rfl
      obtain ⟨b, hb⟩ := hbuild
      cases accepted with
      | false => exact ⟨none, by simp [haccepted, bind, Except.bind]⟩
      | true => exact ⟨b, by simpa [haccepted, bind, Except.bind] using hb⟩

end Taking

namespace Graph

/-! ### Stored nodes -/

variable {g : Graph}

theorem id_of_find? {id : String} {n : Node} (h : g.find? id = some n) : n.id = id :=
  g.id_eq _ (Keyed.find?_eq_some_iff.1 h)

/-- The nodes of a graph are those that are found under their ids. -/
theorem mem_toList_iff {n : Node} : n ∈ g.toList ↔ g.find? n.id = some n := by
  constructor
  · intro h
    obtain ⟨e, he, rfl⟩ := List.mem_map.1 h
    have hid := g.id_eq e he
    exact Keyed.find?_eq_some_iff.2 (hid ▸ he)
  · intro h
    exact List.mem_map.2 ⟨_, Keyed.find?_eq_some_iff.1 h, rfl⟩

theorem mem_toList_of_find? {id : String} {n : Node} (h : g.find? id = some n) :
    n ∈ g.toList :=
  mem_toList_iff.2 (id_of_find? h ▸ h)

/-- Of listed ids the nodes are taken that exist, each once and in the order of the graph. -/
theorem mem_among_iff {ids : List String} {n : Node} :
    n ∈ g.among ids ↔ n ∈ g.toList ∧ n.id ∈ ids := by
  unfold among
  rw [List.mem_filterMap]
  constructor
  · rintro ⟨id, hid, hn⟩
    exact ⟨mem_toList_of_find? hn, id_of_find? hn ▸ hid⟩
  · rintro ⟨hn, hid⟩
    exact ⟨n.id, hid, mem_toList_iff.1 hn⟩

/-- The nodes are listed in the order of their ids, each once. -/
theorem toList_rising (g : Graph) : g.toList.Pairwise fun m n => m.id < n.id := by
  unfold toList Keyed.values
  rw [List.pairwise_map]
  refine g.nodes.rising.imp_of_mem fun {a b} ha hb hab => ?_
  rw [g.id_eq a ha, g.id_eq b hb]
  exact hab

/-! ### What selections show -/

mutual

/-- What selections show of a node, when of the nodes at edges with a target type only
those with `sees` may be seen: for each selection its key and datum. -/
def shown (g : Graph) (sees : Node → Bool) (selections : List Selection) (n : Node) :
    Entries Json :=
  match selections with
  | [] => []
  | s :: ss => shownOne g sees s n :: shown g sees ss n

def shownOne (g : Graph) (sees : Node → Bool) (s : Selection) (n : Node) : String × Json :=
  match s with
  | ⟨name, label, targetType, filter, selections⟩ =>
    let key := label.getD name
    if name = "id" then (key, .text n.id)
    else
      match n.fields.find? name with
      | none => (key, .null)
      | some (.scalar v) => (key, v.toJson)
      | some (.edges targets) =>
        let atPosition := fun (m : Node) =>
          (targetType.all fun t => m.isA t && sees m) && filter.all fun f => f.meets g m
        (key, .list (((g.among targets).filter atPosition).map fun m =>
          .object (Entries.ofList (shown g sees selections m))))

end

/-- The record that selections make of a node. -/
def shownRecord (g : Graph) (sees : Node → Bool) (selections : List Selection) (n : Node) :
    Record :=
  ⟨n.id, n.typeName, .object (Entries.ofList (g.shown sees selections n))⟩

/-- A store that answers about an optional filter tells the truth; where there is none, that is a
yes. -/
theorem meets_of_acceptsIfAny {f : Option Filter} {n : Node} {b : Bool}
    (h : Filter.acceptsIfAny g f n = .ok b) : (f.all fun f => f.meets g n) = b := by
  cases f with
  | none =>
      cases h
      rfl
  | some f => exact Filter.meets_of_accepts f n b h

mutual

/-- **A report that succeeds shows what selections show**, nothing left out. -/
theorem report_eq : (selections : List Selection) → (n : Node) → (entries : Entries Json) →
    g.report selections n = .ok entries → entries = g.shown (fun _ => true) selections n
  | [], n, entries, h => by
      rw [report] at h
      cases h
      rw [shown]
  | s :: ss, n, entries, h => by
      rw [report] at h
      rw [shown]
      cases hs : g.reportOne s n with
      | error problem => simp [hs, bind, Except.bind] at h
      | ok here =>
          cases hss : g.report ss n with
          | error problem => simp [hs, hss, bind, Except.bind] at h
          | ok others =>
              rw [← reportOne_eq s n here hs, ← report_eq ss n others hss]
              simpa [hs, hss, bind, Except.bind] using h.symm

/-- One selection, in the recursion over all of them: what is reported behind an edge is what is
shown there. -/
theorem reportOne_eq : (s : Selection) → (n : Node) → (entry : String × Json) →
    g.reportOne s n = .ok entry → entry = g.shownOne (fun _ => true) s n
  | ⟨name, label, targetType, filter, selections⟩, n, entry, h => by
      rw [reportOne] at h
      rw [shownOne]
      simp only at h ⊢
      split at h
      · next hid =>
          rw [if_pos hid]
          cases h
          rfl
      · next hid =>
          rw [if_neg hid]
          cases hfield : n.fields.find? name with
          | none =>
              rw [hfield] at h
              cases h
              rfl
          | some value =>
              rw [hfield] at h
              cases value with
              | scalar v =>
                  cases h
                  rfl
              | edges targets =>
                  obtain ⟨items, htaken, rfl⟩ := exists_of_map_eq_ok h
                  have hitems := takeUpTo_eq (p := fun m => (targetType.all m.isA) &&
                      filter.all fun f => f.meets g m)
                    (f := fun m => Json.object (Entries.ofList
                      (g.shown (fun _ => true) selections m))) ?_ none items htaken
                  · simp only [hitems, upTo, Bool.and_true]
                  · intro m _ o ho
                    refine guarded_eq (fun b hb => meets_of_acceptsIfAny hb) ?_ ho
                    intro o ho
                    cases hreport : g.report selections m with
                    | error problem => simp [hreport, bind, Except.bind] at ho
                    | ok entries =>
                        rw [← report_eq selections m entries hreport]
                        simpa [hreport, bind, Except.bind] using ho.symm

end

/-! ### When a store answers -/

/-- Whether the store can evaluate a filter, if there is one, on a node. -/
def Decides (g : Graph) (f : Option Filter) (n : Node) : Prop :=
  ∃ b, Filter.acceptsIfAny g f n = .ok b

mutual

/-- Whether the store can evaluate the filters of selections on the nodes at their
positions. -/
def Answerable (g : Graph) : List Selection → Prop
  | [] => True
  | s :: ss => AnswerableAt g s ∧ Answerable g ss

def AnswerableAt (g : Graph) : Selection → Prop
  | ⟨_, _, targetType, filter, selections⟩ =>
    (∀ m ∈ g.toList, targetType.all m.isA = true → g.Decides filter m) ∧
      Answerable g selections

end

mutual

/-- A report succeeds where every filter in it can be evaluated at the nodes that it is asked of.
-/
theorem report_isOk : (selections : List Selection) → g.Answerable selections → (n : Node) →
    ∃ entries, g.report selections n = .ok entries
  | [], _, n => ⟨[], by rw [report]⟩
  | s :: ss, h, n => by
      rw [Answerable] at h
      obtain ⟨here, hs⟩ := reportOne_isOk s h.1 n
      obtain ⟨others, hss⟩ := report_isOk ss h.2 n
      exact ⟨here :: others, by simp [report, hs, hss, bind, Except.bind]⟩

/-- One selection succeeds with the selections below it, on all nodes behind the edge. -/
theorem reportOne_isOk : (s : Selection) → g.AnswerableAt s → (n : Node) →
    ∃ entry, g.reportOne s n = .ok entry
  | ⟨name, label, targetType, filter, selections⟩, h, n => by
      rw [AnswerableAt] at h
      rw [reportOne]
      simp only
      split
      · exact ⟨_, rfl⟩
      · split
        · exact ⟨_, rfl⟩
        · exact ⟨_, rfl⟩
        · next targets _ =>
            have hitems : ∃ items, takeUpTo (fun m =>
                if targetType.all m.isA then do
                  if ← Filter.acceptsIfAny g filter m then do
                    let entries ← g.report selections m
                    .ok (some (Json.object (Entries.ofList entries)))
                  else .ok none
                else .ok none) none (g.among targets) = .ok items := by
              refine takeUpTo_isOk (fun m hm => ?_) none
              refine guarded_isOk (h.1 m (mem_among_iff.1 hm).1) ?_
              obtain ⟨entries, hentries⟩ := report_isOk selections h.2 m
              exact ⟨_, by rw [hentries]; rfl⟩
            obtain ⟨items, hitems⟩ := hitems
            exact ⟨_, by rw [hitems, Except.map]⟩

end

/-! ### Queries and probes -/

/-- A record is made of a node exactly when the node is of the type and satisfies the filter in
plain truth; it then shows what the selections show. -/
theorem record?_eq {q : Query} {n : Node} {r : Option Record} (h : g.record? q n = .ok r) :
    r = if n.isA q.typeName && q.filter.all (fun f => f.meets g n) then
      some (g.shownRecord (fun _ => true) q.selections n) else none := by
  refine guarded_eq (fun b hb => meets_of_acceptsIfAny hb) ?_ h
  intro r hr
  cases hreport : g.report q.selections n with
  | error problem => simp [hreport, bind, Except.bind] at hr
  | ok entries =>
      rw [shownRecord, ← report_eq q.selections n entries hreport]
      simpa [hreport, bind, Except.bind] using hr.symm

/-- **A query that is answered selects the nodes of its type that meet its filter.** -/
theorem execute_eq {q : Query} {records : List Record} (h : g.execute q = .ok records) :
    records = upTo q.first ((g.toList.filter fun n =>
      n.isA q.typeName && q.filter.all fun f => f.meets g n).map
        (g.shownRecord (fun _ => true) q.selections)) :=
  takeUpTo_eq (fun _ _ _ hr => record?_eq hr) q.first records h

/-- A query is answered when its filter can be evaluated on every node of its type, and those below
on every node. -/
theorem execute_isOk {q : Query}
    (hroot : ∀ n ∈ g.toList, n.isA q.typeName = true → g.Decides q.filter n)
    (hbelow : g.Answerable q.selections) : ∃ records, g.execute q = .ok records := by
  refine takeUpTo_isOk (fun n hn => guarded_isOk (hroot n hn) ?_) q.first
  obtain ⟨entries, hentries⟩ := report_isOk q.selections hbelow n
  exact ⟨_, by rw [hentries]; rfl⟩

/-- A probe that is answered finds the candidates of its type that meet its filter. -/
theorem probe_eq {p : Probe} {ids : List String} (h : g.probe p = .ok ids) :
    ids = upTo p.limit ((((p.candidates.map g.among).getD g.toList).filter fun n =>
      n.isA p.typeName && p.filter.meets g n).map Node.id) := by
  have hprobed : ∀ nodes, takeUpTo (g.probed? p) p.limit nodes = .ok ids →
      ids = upTo p.limit ((nodes.filter fun n =>
        n.isA p.typeName && p.filter.meets g n).map Node.id) := by
    intro nodes hnodes
    refine takeUpTo_eq (fun n _ id hid => ?_) p.limit ids hnodes
    refine guarded_eq (fun b hb => Filter.meets_of_accepts p.filter n b hb) ?_ hid
    intro id hid
    exact (Except.ok.inj hid).symm
  unfold probe at h
  cases hcandidates : p.candidates with
  | none => exact hprobed _ (by simpa [hcandidates] using h)
  | some candidates => exact hprobed _ (by simpa [hcandidates] using h)

end Graph

namespace Store

variable {α : Type} {s : Store} {answer : Answer α} {x : α}

/-- A store that answers at all answers what the graph says. -/
theorem of_online (h : s.online answer = .ok x) : answer = .ok x := by
  unfold online at h
  split at h
  · simp at h
  · exact h

theorem online_eq (h : s.offline = false) : s.online answer = answer := by
  simp [online, h]

/-- A store that answers is not offline. -/
theorem offline_eq_false (h : s.online answer = .ok x) : s.offline = false := by
  cases hoffline : s.offline with
  | false => rfl
  | true => simp [online, hoffline] at h

end Store

end GraphWarden
