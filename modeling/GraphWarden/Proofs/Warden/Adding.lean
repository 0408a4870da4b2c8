import GraphWarden.Proofs.Rule.Unbound
import GraphWarden.Proofs.Timeline.Course
import GraphWarden.Proofs.Warden.Refusal

/-!
# Adding nodes

A node that is to be added is not there yet, so the rule of its type is asked unbound.  A warden
that is asked whether a node of an object type may be added answers with what the rule says
(`perform_authorizeAdd_of_rule`), unless the request is refused for being anonymous; the id that
stands for the new node plays no part in it.

With what the rule says being its value, **a node may be added exactly when the rule of its type
is true for the request** (`adding_is_boolean`).
-/

namespace GraphWarden

/-- A write that adds a node of a type with a rule, and is not refused, is the question whether
the rule holds. -/
theorem Client.run_authorize_add {c : Client} {s : Schema} {typeName : String} {kind : TypeKind}
    {rule : Rule} (htarget : s.writeTarget .add typeName = .ok kind)
    (hopen : s.refuses c.request.claims = false) (hrule : s.rule? typeName .add = some rule)
    (id : String) (l : Line) : ((c.authorize s .add typeName [id]).run l).1 =
      ((rule.holds c).run l).1.map fun b => if b then [id] else [] := by
  have hasked : c.authorize s .add typeName [id] =
      (rule.holds c).bind fun b => Job.pure (if b then [id] else []) := by
    unfold authorize addAllowed
    rw [htarget, hopen, hrule]
    refine congrArg (Job.bind (rule.holds c)) (funext fun b => ?_)
    have hself : [id].filter [id].contains = [id] := by simp
    cases b with
    | true => exact congrArg Job.pure hself
    | false => rfl
  rw [hasked, Job.run_bind]
  obtain ⟨result, l'⟩ := (rule.holds c).run l
  cases result with
  | error problem => rfl
  | ok b => rfl

namespace Warden

variable {w : Warden} {s : Schema} {r : Request} {typeName : String} {info : TypeInfo} {rule : Rule}

/-- **Whether a node may be added is what the rule of its type says**, for a request that is not
refused. -/
theorem perform_authorizeAdd_of_rule (hcurrent : w.catalog.current = some s)
    (hfind : s.find? typeName = some info) (hkind : info.kind = .object)
    (hrule : s.rule? typeName .add = some rule) :
    (w.perform (authorizeAdd r typeName)).1 = if s.refuses r.claims then .ok false
      else ((rule.holds ⟨w.store, w.policy, r⟩).run w.line).1 := by
  have htarget : s.writeTarget .add typeName = .ok .object := by
    simp [Schema.writeTarget, Operation.isWrite, hfind, hkind]
  rw [perform_authorizeAdd, perform_authorizeWrite hcurrent]
  cases hrefuses : s.refuses r.claims with
  | true =>
      rw [Client.authorize_of_refused hrefuses htarget]
      rfl
  | false =>
      rw [Client.run_authorize_add htarget hrefuses hrule]
      cases ((rule.holds ⟨w.store, w.policy, r⟩).run w.line).1 with
      | error problem => rfl
      | ok b => cases b <;> rfl

/-- Nothing stands in the way of asking a rule: the store is there and does not fail, the request
is live, and the filter of each graph rule can be evaluated on the nodes that it selects from. -/
structure Unhindered (w : Warden) (r : Request) (rule : Rule) : Prop where
  online : w.store.offline = false
  faultless : w.line.faults = []
  live : r.isLive w.line.now = true
  decided : rule.DecidedAtRoots w.store.graph r.claims

/-- Where nothing stands in the way, the gate answers with the value of the rule. -/
theorem Unhindered.run_holds (h : w.Unhindered r rule) (hnegates : rule.Negates) :
    ((rule.holds ⟨w.store, w.policy, r⟩).run w.line).1 =
      .ok (rule.value w.store.graph r.claims) := by
  obtain ⟨_, rfl, hrun⟩ := (Rule.prompt_holds (c := ⟨w.store, w.policy, r⟩) hnegates h.online
    h.live h.decided).run h.faultless
  exact hrun

/-- **The unbound gate reads rules as combinations of truth values.**  What it says of a rule in
which every negation has something to negate is the value of the rule, on whatever line it is
asked; and it does say something where nothing stands in its way.

So a warden that answers whether a node of an object type with such a rule may be added says
yes exactly when the request is not refused and the value is true. -/
theorem adding_is_boolean (w : Warden) (r : Request) (hnegates : rule.Negates) :
    (∀ b, ((rule.holds ⟨w.store, w.policy, r⟩).run w.line).1 = .ok b →
      b = rule.value w.store.graph r.claims) ∧
    (w.Unhindered r rule → ((rule.holds ⟨w.store, w.policy, r⟩).run w.line).1 =
      .ok (rule.value w.store.graph r.claims)) ∧
    ∀ s typeName info, w.catalog.current = some s → s.find? typeName = some info →
      info.kind = .object → s.rule? typeName .add = some rule →
        (∀ b, (w.perform (authorizeAdd r typeName)).1 = .ok b →
          (b = true ↔ s.refuses r.claims = false ∧ rule.value w.store.graph r.claims = true)) ∧
        ((∃ b, ((rule.holds ⟨w.store, w.policy, r⟩).run w.line).1 = .ok b) →
          ((w.perform (authorizeAdd r typeName)).1 = .ok true ↔
            s.refuses r.claims = false ∧ rule.value w.store.graph r.claims = true)) ∧
        (w.Unhindered r rule → (w.perform (authorizeAdd r typeName)).1 =
          .ok (!s.refuses r.claims && rule.value w.store.graph r.claims)) := by
  have hvalue : ∀ b, ((rule.holds ⟨w.store, w.policy, r⟩).run w.line).1 = .ok b →
      b = rule.value w.store.graph r.claims :=
    fun b hb => (Rule.yields_holds (c := ⟨w.store, w.policy, r⟩) rule).of_run hb
  refine ⟨hvalue, fun hfree => hfree.run_holds hnegates, ?_⟩
  intro s typeName info hcurrent hfind hkind hrule
  rw [perform_authorizeAdd_of_rule hcurrent hfind hkind hrule]
  cases hrefuses : s.refuses r.claims with
  | true => simp
  | false =>
      simp only [Bool.false_eq_true, if_false, true_and, Bool.not_false, Bool.true_and]
      refine ⟨fun b hb => hvalue b hb ▸ Iff.rfl, ?_, fun hfree => hfree.run_holds hnegates⟩
      rintro ⟨b, hb⟩
      rw [hb, Except.ok.injEq, hvalue b hb]

/-- Notes may be added by those who have one, except guests. -/
def ownersAdd : SchemaDefinition where
  types := [TypeDefinition.withRule { name := "Note", kind := .object } .add
    (.not (.any [.rule "\x7b $ROLE: \x7b eq: \"GUEST\" \x7d \x7d",
      .not (.rule
        "query($USER: String) \x7b queryNote(filter: \x7b owner: \x7b eq: $USER \x7d \x7d) \x7b id \x7d \x7d")]))]

/-- A warden over two notes, one of them amit's. -/
def bureau : Warden where
  catalog := (Catalog.empty.load ownersAdd).2
  store := { graph := .ofList [
    ⟨"n1", "Note", [], .ofList [("owner", .scalar (.text "bea"))]⟩,
    ⟨"n2", "Note", [], .ofList [("owner", .scalar (.text "amit"))]⟩] }

/-- A request of one who is no guest. -/
def amitAsks : Request where
  claims := Claims.none.claiming "USER" (.text "amit")

/-- Amit may add a note at the bureau.  That is the value of the rule, what the gate says of it,
and the answer of the warden. -/
theorem bureau_adding_is_boolean :
    ∃ s info rule, bureau.catalog.current = some s ∧ s.find? "Note" = some info ∧
      info.kind = .object ∧ s.rule? "Note" .add = some rule ∧ rule.Negates ∧
      bureau.Unhindered amitAsks rule ∧ rule.value bureau.store.graph amitAsks.claims = true ∧
      ((rule.holds ⟨bureau.store, bureau.policy, amitAsks⟩).run bureau.line).1 = .ok true ∧
      (bureau.perform (authorizeAdd amitAsks "Note")).1 = .ok true := by
  have hschema : (bureau.catalog.current.any fun s =>
      (s.find? "Note").any (fun info => info.kind = .object) && !s.refuses amitAsks.claims &&
        (s.rule? "Note" .add).any fun rule =>
          rule.value bureau.store.graph amitAsks.claims && rule.graphRules.all fun part =>
            bureau.store.graph.toList.all fun n => (part.bind? amitAsks.claims).all fun f =>
              f.all fun f => (f.accepts bureau.store.graph n).isOk) = true := by
    decide +kernel
  obtain ⟨s, hs, hschema⟩ := (Option.any_eq_true _ _).1 hschema
  obtain ⟨hopen, hrule⟩ := (Bool.and_eq_true _ _).mp hschema
  obtain ⟨hobject, hrefuses⟩ := (Bool.and_eq_true _ _).mp hopen
  obtain ⟨info, hfind, hkind⟩ := (Option.any_eq_true _ _).1 hobject
  obtain ⟨rule, hrule, hasked⟩ := (Option.any_eq_true _ _).1 hrule
  obtain ⟨hvalue, hparts⟩ := (Bool.and_eq_true _ _).mp hasked
  have hload : (Catalog.empty.load ownersAdd).2.current = some s := hs
  have hnegates : rule.Negates :=
    (Catalog.accepted_of_load hload).sound.rules_negate "Note" .add rule hrule
  have hfree : bureau.Unhindered amitAsks rule :=
    ⟨rfl, rfl, rfl, fun part hpart n hn _ =>
      GraphRule.decided_of_all (List.all_eq_true.1 (List.all_eq_true.1 hparts part hpart) n hn)⟩
  obtain ⟨-, hholds, hadds⟩ := adding_is_boolean bureau amitAsks hnegates
  obtain ⟨-, -, hadded⟩ := hadds s "Note" info hs hfind (by simpa using hkind) hrule
  have hanswer := hadded hfree
  have hopen' : s.refuses amitAsks.claims = false := by simpa using hrefuses
  rw [hopen', hvalue] at hanswer
  exact ⟨s, info, rule, hs, hfind, by simpa using hkind, hrule, hnegates, hfree, hvalue,
    hvalue ▸ hholds hfree, hanswer⟩

end Warden

end GraphWarden
