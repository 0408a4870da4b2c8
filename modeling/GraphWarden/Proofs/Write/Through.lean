import GraphWarden.Proofs.Rule.Narrowing
import GraphWarden.Proofs.Schema.Closure
import GraphWarden.Proofs.Write.Reach

/-!
# Writes through an interface

A write through an interface is taken apart: the nodes are looked up, each type's nodes are
checked together, and all that pass are put in the order in which they were named.  What
comes of it is a decision **node by node** (`writes_through_each_alone`): a node may be
touched exactly when it is stored, its type is an object type that implements the interface,
and a write on it alone, through its own type, is allowed.  What else is named, who is
checked first, and on how many ways the type implements the interface make no difference.

One direction needs an argument of its own.  A check of one node alone could fail where the
check of many did not, but it does not, because checking fewer nodes never fails more often
(`answers_writable_of_subset`).
-/

namespace GraphWarden

namespace Job

variable {α β : Type} {t : Nat}

/-- Jobs side by side answer only if each of them does. -/
theorem Answers.of_gather [Inhabited α] {ι : Type} {f : ι → Job α} {xs : List ι}
    {combine : List α → β}
    (h : ((gather (xs.map f)).bind fun ys => Job.pure (combine ys)).Answers t)
    (hjobs : ∀ x ∈ xs, Withstands t (f x) (f x)) : ∀ x ∈ xs, (f x).Answers t := by
  obtain ⟨_, hall⟩ := h
  rcases answers_or_fails hjobs with ⟨answer, hanswer⟩ | ⟨x, hx, hfails, _⟩
  · intro x hx
    exact ⟨answer x, (hanswer x hx).1⟩
  · have hgathered := Gives.gather_fails (fun y hy => (hjobs y hy).exists_gives.1) hx hfails
    exact absurd hgathered.bind_fails hall.not_fails

end Job

namespace Schema

variable {s : Schema} {op : Operation} {typeName : String} {info : TypeInfo}

/-- Changing and removing nodes may name any type that is not a union. -/
theorem writeTarget_eq (hop : op = .update ∨ op = .delete) (hinfo : s.find? typeName = some info)
    (hkind : info.kind ≠ .union) : s.writeTarget op typeName = .ok info.kind := by
  rcases hop with rfl | rfl <;> simp [writeTarget, Operation.isWrite, hinfo, hkind]

end Schema

namespace Client

variable {t : Nat} {c : Client} {s : Schema} {op : Operation} {typeName interface : String}
  {ids : List String}

/-- A write that is not refused checks the nodes, each once, and keeps the order in which
they are named. -/
theorem authorize_eq (hop : op = .update ∨ op = .delete) {kind : TypeKind}
    (htarget : s.writeTarget op typeName = .ok kind) (hopen : s.refuses c.request.claims = false) :
    c.authorize s op typeName ids =
      (if kind = .interface then c.writableThrough s op typeName (Names.distinct ids)
        else c.writable s op typeName (Names.distinct ids)).bind fun passed =>
          Job.pure ((Names.distinct ids).filter passed.contains) := by
  have hadd : op ≠ .add := by
    rintro rfl
    simp at hop
  unfold authorize
  rw [htarget]
  show (if s.refuses c.request.claims = true then _ else _) = _
  rw [if_neg (by simp [hopen]), if_neg hadd]
  split <;> rfl

/-- What can be checked through an interface can be checked for each node through its own
type. -/
theorem answers_writable_of_through {id : String} {n : Node}
    (h : (c.writableThrough s op interface ids).Answers t) (hid : id ∈ ids)
    (hn : c.store.graph.find? id = some n) (himplements : n.typeName ∈ s.implementers interface) :
    (c.writable s op n.typeName [id]).Answers t := by
  unfold writableThrough at h
  obtain ⟨types, htypes, hchecks⟩ := Job.Answers.of_bind h (withstands_typesOf c.calmed_self ids)
    fun types => by
      refine Job.withstands_gather (fun t' _ => withstands_writable c.calmed_self op t' _) ?_
      intro answer _ passed hpassed
      exact Names.sorted_congr fun id => hpassed.flatten.mem_iff
  have htypes' : types = c.store.graph.typesOf ids := by
    have hanswer := (answer_of_prompt htypes).1
    exact (Except.ok.inj (Store.of_online hanswer)).symm
  subst htypes'
  have hfind := find?_typesOf.2 ⟨hid, n, hn, rfl⟩
  have hvalue : n.typeName ∈ (c.store.graph.typesOf ids).values :=
    List.mem_map_of_mem (Keyed.find?_eq_some_iff.1 hfind)
  have hconcrete : n.typeName ∈ (Names.sorted (c.store.graph.typesOf ids).values).filter
      (s.implementers interface).contains :=
    List.mem_filter.2 ⟨Names.mem_sorted.2 hvalue, by simpa using himplements⟩
  have htogether := Job.Answers.of_gather hchecks
    (fun t' _ => withstands_writable c.calmed_self op t' _) n.typeName hconcrete
  refine answers_writable_of_subset (fun x hx => ?_) htogether
  have hx' : x = id := by simpa using hx
  subst hx'
  exact List.mem_filter.2 ⟨hid, by simpa using hfind⟩

/-- A node's own type lets a write on it pass, alone. -/
def Alone (c : Client) (s : Schema) (op : Operation) (l : Line) (typeName id : String) : Prop :=
  ∃ allowed, ((c.authorize s op typeName [id]).run l).1 = .ok allowed ∧ id ∈ allowed

/-- A write on a node alone that is allowed is one that the rule of its type permits. -/
theorem permits_of_alone (hop : op ≠ .add) {l : Line} {id : String} {info : TypeInfo}
    (hinfo : s.find? typeName = some info) (hkind : info.kind = .object)
    (h : c.Alone s op l typeName id) :
    s.permits c.store.graph c.request.claims op typeName id = true := by
  obtain ⟨allowed, hrun, hid⟩ := h
  obtain ⟨info', hinfo', _, hallowed⟩ := (yields_authorize hop).of_run hrun
  rw [hinfo] at hinfo'
  cases hinfo'
  have hreaches := ((hallowed id).1 hid).2.2
  rw [hkind] at hreaches
  exact hreaches

/-- A write that the rule of the node's type permits is allowed on the node alone, provided the
check can be answered there at all. -/
theorem alone_of_permits (hop : op = .update ∨ op = .delete) {l : Line} (hl : l.Calm t) {id : String}
    {info : TypeInfo} (hinfo : s.find? typeName = some info) (hkind : info.kind = .object)
    (hopen : s.refuses c.request.claims = false) (hanswers : (c.writable s op typeName [id]).Answers t)
    (hpermits : s.permits c.store.graph c.request.claims op typeName id = true) :
    c.Alone s op l typeName id := by
  obtain ⟨passed, hpassed⟩ := hanswers
  have htarget := Schema.writeTarget_eq hop hinfo (by simp [hkind])
  have hmem : id ∈ passed := ((yields_writable typeName [id]).of_prompt hpassed id).2
    ⟨by simp, hpermits⟩
  have hprompt : (c.authorize s op typeName [id]).Prompt t (· = [id].filter passed.contains) := by
    rw [authorize_eq hop htarget hopen, hkind]
    exact hpassed.bind fun x hx => Job.prompt_pure (hx ▸ rfl)
  obtain ⟨_, rfl, hrun⟩ := Job.Prompt.run (l := l) (hl.now ▸ hprompt) hl.faults
  exact ⟨_, hrun, by simpa using hmem⟩

/-- A write through an interface that is answered is one check, put in order. -/
theorem checked_of_authorize (hop : op = .update ∨ op = .delete)
    (htarget : s.writeTarget op interface = .ok .interface)
    (hopen : s.refuses c.request.claims = false) {l : Line} (hl : l.Calm t) {allowed : List String}
    (hrun : ((c.authorize s op interface ids).run l).1 = .ok allowed) :
    ∃ passed, (c.writableThrough s op interface (Names.distinct ids)).Prompt t (· = passed) ∧
      allowed = (Names.distinct ids).filter passed.contains := by
  have hprompt := (withstands_authorize c.calmed_self op interface ids).prompt_of_run hl hrun
  rw [authorize_eq hop htarget hopen, if_pos rfl] at hprompt
  obtain ⟨passed, hpassed, _⟩ := Job.Answers.of_bind ⟨allowed, hprompt⟩
    (withstands_writableThrough c.calmed_self op interface _) fun _ => Job.withstands_pure _
  refine ⟨passed, hpassed, hprompt.unique ?_⟩
  exact hpassed.bind fun x hx => Job.prompt_pure (hx ▸ rfl)

variable {catalog : Catalog} {definition : SchemaDefinition}

/-- **A write through an interface decides node by node.**  On a store that works, what it
allows are those ids, in the order in which they are first named, that have a verdict of
their own: the node is stored, its type is an object type that implements the interface, and
a write on the node alone through that type allows it. -/
theorem writes_through_each_alone (hs : catalog.next definition = .ok s) {d : TypeDefinition}
    (hd : d ∈ definition.types) (hinterface : d.kind = .interface)
    (hop : op = .update ∨ op = .delete) (hopen : s.refuses c.request.claims = false)
    {alone : Line} (halone : alone.faults = []) :
    ∃ verdict : String → Bool,
      (∀ id, verdict id = true ↔ ∃ n, c.store.graph.find? id = some n ∧
        (∃ o ∈ definition.types, o.name = n.typeName ∧ o.kind = .object) ∧
        definition.Implements n.typeName d.name ∧ c.Alone s op alone n.typeName id) ∧
      ∀ (l : Line) (ids allowed : List String), l.Calm alone.now →
        ((c.authorize s op d.name ids).run l).1 = .ok allowed →
          allowed = (Names.distinct ids).filter verdict := by
  classical
  refine ⟨fun id => decide (∃ n, c.store.graph.find? id = some n ∧
    (∃ o ∈ definition.types, o.name = n.typeName ∧ o.kind = .object) ∧
    definition.Implements n.typeName d.name ∧ c.Alone s op alone n.typeName id),
    fun id => decide_eq_true_iff, ?_⟩
  intro l ids allowed hl hrun
  obtain ⟨hier, own, hfrom⟩ := Schema.compiledFrom_of_next hs
  have hadd : op ≠ .add := by
    rintro rfl
    simp at hop
  have hobject : ∀ t, (∃ o ∈ definition.types, o.name = t ∧ o.kind = .object) →
      ∃ info, s.find? t = some info ∧ info.kind = .object := by
    rintro t ⟨o, ho, rfl, hk⟩
    obtain ⟨info, hinfo, hkind⟩ := hfrom.find?_of_mem ho
    exact ⟨info, hinfo, hkind.trans hk⟩
  obtain ⟨info, hinfo, hkind⟩ := hfrom.find?_of_mem hd
  have htarget := Schema.writeTarget_eq hop hinfo (by simp [hkind, hinterface])
  rw [hkind, hinterface] at htarget
  obtain ⟨passed, hpassed, rfl⟩ := checked_of_authorize hop htarget hopen hl hrun
  refine List.filter_congr fun id hid => ?_
  rw [List.contains_eq_mem, decide_eq_decide,
    (yields_writableThrough d.name _).of_prompt hpassed id]
  constructor
  · rintro ⟨_, n, hn, himplements, hpermits⟩
    obtain ⟨hown, habove⟩ := (hfrom.mem_implementers_iff_implements hd hinterface).1 himplements
    obtain ⟨below, hbelow, hbelowKind⟩ := hobject _ hown
    have hanswers := answers_writable_of_through ⟨passed, hpassed⟩ hid hn himplements
    exact ⟨n, hn, hown, habove,
      alone_of_permits hop ⟨rfl, halone⟩ hbelow hbelowKind hopen hanswers hpermits⟩
  · rintro ⟨n, hn, hown, habove, hallowed⟩
    obtain ⟨below, hbelow, hbelowKind⟩ := hobject _ hown
    have himplements := (hfrom.mem_implementers_iff_implements hd hinterface).2 ⟨hown, habove⟩
    exact ⟨hid, n, hn, himplements, permits_of_alone hadd hbelow hbelowKind hallowed⟩

/-- Pages may be deleted once they are archived, and notes are pages; memos nobody guards. -/
def shelf : SchemaDefinition where
  types := [
    { name := "Entity", kind := .interface },
    TypeDefinition.withRule { name := "Page", kind := .interface, interfaces := ["Entity"] } .delete
      (.rule "\x7b queryPage \x7b archived \x7d \x7d"),
    { name := "Note", kind := .object, interfaces := ["Page"] },
    { name := "Memo", kind := .object, interfaces := ["Entity"] },
    { name := "User", kind := .object }]
  descriptor := none

/-- Two notes, one of them archived, a memo and a user. -/
def shelved : Client where
  store.graph := .ofList [
    ⟨"n1", "Note", ["Entity", "Page"], .ofList [("archived", .scalar (.flag true))]⟩,
    ⟨"n2", "Note", ["Entity", "Page"], .empty⟩,
    ⟨"m1", "Memo", ["Entity"], .empty⟩,
    ⟨"u1", "User", [], .empty⟩]

/-- Of all that is named, the memo and the archived note may be deleted, in the order in which they
are named first.  The other note is not archived, one id is unknown, and users are no entities. -/
theorem shelf_writes_through_each_alone :
    ∃ s, Catalog.empty.next shelf = .ok s ∧
      ((shelved.authorize s .delete "Entity" ["m1", "n2", "x", "n1", "m1", "u1"]).run {}).1 =
        .ok ["m1", "n1"] ∧
      ∃ verdict : String → Bool,
        (∀ id, verdict id = true ↔ ∃ n, shelved.store.graph.find? id = some n ∧
          (∃ o ∈ shelf.types, o.name = n.typeName ∧ o.kind = .object) ∧
          shelf.Implements n.typeName "Entity" ∧ shelved.Alone s .delete {} n.typeName id) ∧
        ["m1", "n1"] = (Names.distinct ["m1", "n2", "x", "n1", "m1", "u1"]).filter verdict := by
  have hanswered : ((Catalog.empty.next shelf).toOption.bind fun s =>
      ((shelved.authorize s .delete "Entity" ["m1", "n2", "x", "n1", "m1", "u1"]).run
        {}).1.toOption) = some ["m1", "n1"] := by decide +kernel
  have hopen : (Catalog.empty.next shelf).toOption.all (fun s =>
      !s.refuses shelved.request.claims) = true := by decide +kernel
  obtain ⟨s, hs, hrun⟩ := Option.bind_eq_some_iff.1 hanswered
  rw [hs] at hopen
  rw [toOption_eq_some_iff] at hs hrun
  obtain ⟨verdict, hverdict, hallowed⟩ := writes_through_each_alone (c := shelved) hs
    (d := { name := "Entity", kind := .interface }) (by simp [shelf]) rfl (Or.inr rfl)
    (by simpa using hopen) (show ({} : Line).faults = [] from rfl)
  exact ⟨s, hs, hrun, verdict, hverdict, hallowed {} _ _ ⟨rfl, rfl⟩ hrun⟩

end Client

end GraphWarden
