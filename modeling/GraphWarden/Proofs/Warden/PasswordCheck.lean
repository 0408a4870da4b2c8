import GraphWarden.Proofs.Schema.Declared
import GraphWarden.Proofs.Warden.Outcome

/-!
# Checking a password

A query for checking a password goes by two maps of outcomes: password outcomes at its root,
query outcomes at every position below, also where the types are the same.  The query that
comes back is run on the store by whoever asked for it.

**It finds at its root the nodes on which the password may be checked, and shows below them
what may be seen** (`password_check_exact`).  Both are read off the definition of the schema:
which password rules are declared in the hierarchy of a node's own type, and which query rules
stand in where there are none.  The choice is made for each type anew, so that below one
interface some nodes may go by password rules and others by query rules.
-/

namespace GraphWarden

/-- Whether the store can evaluate the filters of a query, as it was asked, and the graph rules
of the nodes at their positions: at the root those that guard checking a password. -/
structure Schema.CheckEvaluable (s : Schema) (g : Graph) (claims : Claims) (q : Query) :
    Prop where
  root : ∀ n ∈ g.toList, n.typeName ∈ s.positionTypes q.typeName → g.Decides q.filter n
  below : g.Answerable q.selections
  guards : ∀ n ∈ g.toList, n.typeName ∈ s.positionTypes q.typeName → ∀ rule,
    s.passwordRule? n.typeName = some rule → ∀ part ∈ rule.graphRules, part.Decided g claims n
  rules : ∀ n ∈ g.toList, n.typeName ∈ s.typesBelow q.selections → ∀ rule,
    s.rule? n.typeName .query = some rule → ∀ part ∈ rule.graphRules, part.Decided g claims n

namespace Schema.CheckEvaluable

variable {s : Schema} {g : Graph} {claims : Claims} {q : Query} {vs : Visibilities}

/-- At the root the store decides the filter of the query, and the password outcomes tell it
of which nodes a password may be checked. -/
theorem decides_root (h : s.CheckEvaluable g claims q) (hs : s.Sound) (hfits : g.Fits s)
    (hknows : vs.Knows s claims .password (Names.sorted (s.positionTypes q.typeName))) :
    ∀ n ∈ g.toList, n.isA q.typeName = true → g.Decides q.filter n ∧
      vs.Tells g (Filter.verdict g) (s.allows g claims .password) n.typeName := by
  intro n hn hisA
  have hplaced : n.typeName ∈ s.positionTypes q.typeName :=
    mem_positionTypes_of_isA hs hfits hn hisA
  refine ⟨h.root n hn hplaced, hknows.tells_verdict (Names.mem_sorted.2 hplaced) ?_⟩
  intro m hm hname rule hrule
  exact h.guards m hm (hname ▸ hplaced) rule (hname ▸ hrule)

/-- Below it the query outcomes tell the store which nodes may be seen. -/
theorem decides_below (h : s.CheckEvaluable g claims q) {types : List String}
    (hknows : vs.Knows s claims .query types)
    (hbelow : ∀ t ∈ s.typesBelow q.selections, t ∈ types) :
    ∀ t ∈ s.typesBelow q.selections,
      vs.Tells g (Filter.verdict g) (s.allows g claims .query) t := by
  intro t ht
  refine hknows.tells_verdict (hbelow t ht) fun m hm hname rule hrule => ?_
  rw [governingRule?_query] at hrule
  exact h.rules m hm (hname ▸ ht) rule (hname ▸ hrule)

end Schema.CheckEvaluable

namespace Warden

variable {w : Warden} {s : Schema} {r : Request} {q q₁ : Query} {info : TypeInfo}
  {catalog : Catalog} {definition : SchemaDefinition}

/-- When a password check is authorized there are outcomes for both parts of the query, and what
comes back is restricted by password outcomes at the root and by query outcomes below. -/
theorem exists_of_authorizePasswordCheck (hw : Ready s r.claims w)
    (hroot : s.find? q.typeName = some info)
    (hauthorized : (w.perform (authorizePasswordCheck r q)).1 = .ok q₁) :
    ∃ vs root,
      s.outcomes w.store.complement r.claims .query (s.governedTypes q) = .ok vs ∧
      s.outcomes w.store.complement r.claims .password
        (Names.sorted (s.positionTypes q.typeName)) = .ok root ∧
      q₁ = Visibilities.restrict (Keyed.ofList vs) (Keyed.ofList root) s q := by
  rw [perform_authorizePasswordCheck hw hroot] at hauthorized
  cases hvs : s.outcomes w.store.complement r.claims .query (s.governedTypes q) with
  | error problem => simp [hvs, Except.bind] at hauthorized
  | ok vs =>
      rw [hvs] at hauthorized
      obtain ⟨root, hrootvs, hq₁⟩ := exists_of_map_eq_ok hauthorized
      exact ⟨vs, root, rfl, hrootvs, hq₁.symm⟩

/-- **The query that comes back finds the nodes of its root type that its filter accepts and on
which the password may be checked**: all password rules declared by the node's type and what
it implements hold for it, or all query rules where no password rule is declared.  At every
edge it shows the nodes for which all declared query rules hold.  A store that works and can
evaluate the filters answers it. -/
theorem password_check_exact (hnext : catalog.next definition = .ok s)
    (hcurrent : w.catalog.current = some s) (hfits : w.store.graph.Fits s)
    (hfaithful : w.Faithful r.claims) (hopen : s.refuses r.claims = false)
    (hroot : s.find? q.typeName = some info)
    (hauthorized : (w.perform (authorizePasswordCheck r q)).1 = .ok q₁) :
    ∃ mayCheck sees : Node → Bool,
      (∀ n ∈ w.store.graph.toList,
        (mayCheck n = true ↔ definition.LetsCheck w.store.graph r.claims n) ∧
        (sees n = true ↔ definition.HoldsFor w.store.graph r.claims .query n)) ∧
      (∀ records, w.store.execute q₁ = .ok records →
        records = w.store.graph.selectedSeeing mayCheck sees q) ∧
      (w.store.offline = false → s.CheckEvaluable w.store.graph r.claims q →
        w.store.execute q₁ = .ok (w.store.graph.selectedSeeing mayCheck sees q)) := by
  have haccepted : s.Accepted := ⟨catalog, definition, hnext⟩
  have hs := haccepted.sound
  have hw : Ready s r.claims w := ⟨hcurrent, fun _ => hfaithful⟩
  obtain ⟨vs, root, hvs, hrootvs, rfl⟩ := exists_of_authorizePasswordCheck hw hroot hauthorized
  have hknows := Schema.knows_of_outcomes hopen hvs
  have hguards := Schema.knows_of_outcomes hopen hrootvs
  have hbelow : ∀ t ∈ s.typesBelow q.selections, t ∈ s.governedTypes q :=
    fun t ht => Schema.mem_governedTypes.2 (Or.inr ht)
  have hselected : w.store.graph.selected
      (Visibilities.restrict (Keyed.ofList vs) (Keyed.ofList root) s q) =
        w.store.graph.selectedSeeing (s.allows w.store.graph r.claims .password)
          (s.allows w.store.graph r.claims .query) q := by
    refine Visibilities.selected_restrict hs hfits (fun n hn hisA => ?_)
      (fun t ht => hknows.tells (hbelow t ht))
    exact hguards.tells (Names.mem_sorted.2 (Schema.mem_positionTypes_of_isA hs hfits hn hisA))
  refine ⟨s.allows w.store.graph r.claims .password, s.allows w.store.graph r.claims .query,
    fun n hn => ⟨Schema.allows_password_iff hnext hfits hn, Schema.allows_query_iff hnext hfits hn⟩,
    fun records hrecords => ?_, fun honline hevaluable => ?_⟩
  · exact (Graph.execute_eq (Store.of_online hrecords)).trans hselected
  · obtain ⟨records, hrecords⟩ := Visibilities.execute_restrict_isOk hs hfits
      (hevaluable.decides_root hs hfits hguards) (hevaluable.decides_below hknows hbelow)
      hevaluable.below
    have hown := (Graph.execute_eq hrecords).trans hselected
    rw [← hown]
    exact (Store.online_eq honline).trans hrecords

/-- Users sign in when they are active and are seen when they are public; bots have no
password rule. -/
def accounts : SchemaDefinition where
  types := [
    { name := "Account", kind := .interface },
    TypeDefinition.withRule
      (TypeDefinition.withRule { name := "User", kind := .object, interfaces := ["Account"] }
        .query (.rule "query \x7b queryUser \x7b public \x7d \x7d"))
      .password (.rule "query \x7b queryUser \x7b active \x7d \x7d"),
    TypeDefinition.withRule { name := "Bot", kind := .object, interfaces := ["Account"] } .query
      (.rule "query \x7b queryBot \x7b public \x7d \x7d")]

/-- A public bot and another one, an active user and a public one. -/
def members : Graph := .ofList [
  ⟨"b1", "Bot", ["Account"], .ofList [("public", .scalar (.flag true))]⟩,
  ⟨"b2", "Bot", ["Account"], .empty⟩,
  ⟨"u1", "User", ["Account"], .ofList [("active", .scalar (.flag true)),
    ("friends", .edges ["u1", "u2"])]⟩,
  ⟨"u2", "User", ["Account"], .ofList [("public", .scalar (.flag true))]⟩]

def portal : Warden where
  catalog := (Catalog.empty.load accounts).2
  store := { graph := members }

def signIn : Query where
  typeName := "Account"
  filter := some (.not (.has "locked"))
  selections := [.edge "friends" "User" [.scalar "id"]]

/-- No filter that is involved fails on any member of the portal. -/
theorem portal_evaluable {s : Schema} (hnext : Catalog.empty.next accounts = .ok s) :
    s.CheckEvaluable members Claims.none signIn := by
  have hfilter : ∀ n ∈ members.toList,
      (Filter.acceptsIfAny members signIn.filter n).isOk = true := by decide +kernel
  have hrules : ((Catalog.empty.next accounts).toOption.all fun s =>
      members.toList.all fun n => [s.passwordRule? n.typeName, s.rule? n.typeName .query].all
        fun rule => rule.all fun rule => rule.graphRules.all fun part =>
          (part.bind? Claims.none).all fun f => f.all fun f => (f.accepts members n).isOk) =
            true := by
    decide +kernel
  rw [hnext] at hrules
  have hdecided : ∀ n ∈ members.toList, ∀ rule,
      s.passwordRule? n.typeName = some rule ∨ s.rule? n.typeName .query = some rule →
        ∀ part ∈ rule.graphRules, part.Decided members Claims.none n := by
    intro n hn rule hrule part hpart
    have hnode := List.all_eq_true.1 hrules n hn
    simp only [List.all_cons, List.all_nil, Bool.and_true, Bool.and_eq_true] at hnode
    rcases hrule with hrule | hrule
    · rw [hrule] at hnode
      exact GraphRule.decided_of_all (List.all_eq_true.1 hnode.1 part hpart)
    · rw [hrule] at hnode
      exact GraphRule.decided_of_all (List.all_eq_true.1 hnode.2 part hpart)
  constructor
  · exact fun n hn _ => exists_of_isOk (hfilter n hn)
  · simp only [signIn, Selection.edge, Selection.scalar, Graph.Answerable, Graph.AnswerableAt,
      and_true]
    exact ⟨fun m _ _ => ⟨true, rfl⟩, fun m _ _ => ⟨true, rfl⟩⟩
  · exact fun n hn _ rule hrule => hdecided n hn rule (Or.inl hrule)
  · exact fun n hn _ rule hrule => hdecided n hn rule (Or.inr hrule)

/-- The public bot and the active user may sign in; of the user's friends only the public one
is shown. -/
theorem portal_password_check :
    ∃ q₁ mayCheck sees, (portal.perform (authorizePasswordCheck {} signIn)).1 = .ok q₁ ∧
      (∀ n ∈ members.toList, (mayCheck n = true ↔ accounts.LetsCheck members Claims.none n) ∧
        (sees n = true ↔ accounts.HoldsFor members Claims.none .query n)) ∧
      portal.store.execute q₁ = .ok (members.selectedSeeing mayCheck sees signIn) ∧
      (members.selectedSeeing mayCheck sees signIn).map (fun r => (r.id, r.data.compact)) =
        [("b1", "\x7b\"friends\":null\x7d"),
          ("u1", "\x7b\"friends\":[\x7b\"id\":\"u2\"\x7d]\x7d")] := by
  have hschema : ((Catalog.empty.next accounts).toOption.any fun s =>
      (!s.refuses Claims.none && (s.find? signIn.typeName).isSome) &&
        members.toList.all fun n => (s.find? n.typeName).any fun info =>
          info.kind = .object ∧ info.interfaces = n.interfaces) = true := by
    decide +kernel
  have hrecords : ((portal.perform (authorizePasswordCheck {} signIn)).1.toOption.bind fun q₁ =>
      (portal.store.execute q₁).toOption.map fun records =>
        records.map fun (r : Record) => (r.id, r.data.compact)) =
          some [("b1", "\x7b\"friends\":null\x7d"),
            ("u1", "\x7b\"friends\":[\x7b\"id\":\"u2\"\x7d]\x7d")] := by
    decide +kernel
  obtain ⟨s, hnext, hschema⟩ := (Option.any_eq_true _ _).1 hschema
  rw [toOption_eq_some_iff] at hnext
  obtain ⟨hrequest, hfits⟩ := (Bool.and_eq_true _ _).mp hschema
  obtain ⟨hopen, hroot⟩ := (Bool.and_eq_true _ _).mp hrequest
  obtain ⟨info, hinfo⟩ := Option.isSome_iff_exists.1 hroot
  obtain ⟨q₁, hauthorized, hrecords⟩ := Option.bind_eq_some_iff.1 hrecords
  rw [toOption_eq_some_iff] at hauthorized
  have hcurrent : portal.catalog.current = some s := by
    simp [portal, Catalog.load, hnext]
  obtain ⟨mayCheck, sees, hmeaning, _, hanswers⟩ := password_check_exact (w := portal) (r := {})
    hnext hcurrent (Graph.fits_of_all hfits) (faithful_of_nothing fun m hm => by cases hm)
    (by simpa using hopen) hinfo hauthorized
  have hanswer := hanswers rfl (portal_evaluable hnext)
  refine ⟨q₁, mayCheck, sees, hauthorized, hmeaning, hanswer, ?_⟩
  rw [hanswer] at hrecords
  exact Option.some.inj hrecords

end Warden

end GraphWarden
