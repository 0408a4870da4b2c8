import GraphWarden.Proofs.Rule.Passing
import GraphWarden.Proofs.Schema.Accepted
import GraphWarden.Proofs.Warden.Acting

/-!
# What a write reaches

A write that is authorized is answered with some of the nodes that it names.  Which ones
depends on the type that it names: through an interface each node is checked by the rule
of its own type (`yields_writableThrough`), through an object type it is checked by the
rule of that type, whatever type it is of (`yields_writable`).

The second kind of check finds no node of another type in a graph rule.  But a rule may hold
of a node that no graph rule covers, and where there is no rule nothing is checked at all.
So a write **may reach a node that the node's own rule denies**, and
`write_reaches_denied_iff` says exactly when: it names an object type other than the node's
own, whose rule, if it has one, holds although no graph rule does.  Through an interface, and
through the node's own type, no denied node is ever reached.
-/

namespace GraphWarden

namespace Schema

/-- Whether the rule of a type for an operation, if it has one, holds for what is stored
under an id. -/
def permits (s : Schema) (g : Graph) (claims : Claims) (op : Operation) (typeName id : String) :
    Bool :=
  (s.rule? typeName op).all fun rule => rule.holdsFor g claims typeName id

/-- Whether the rule of a node's own type denies an operation on it. -/
def Denies (s : Schema) (g : Graph) (claims : Claims) (op : Operation) (n : Node) : Prop :=
  ∃ rule, s.rule? n.typeName op = some rule ∧
    rule.holdsWith claims (GraphRule.covers g claims n) = false

/-- What a write through a type reaches. -/
def Reaches (s : Schema) (g : Graph) (claims : Claims) (op : Operation) (kind : TypeKind)
    (typeName id : String) : Prop :=
  match kind with
  | .interface => ∃ n, g.find? id = some n ∧ n.typeName ∈ s.implementers typeName ∧
      s.permits g claims op n.typeName id = true
  | _ => s.permits g claims op typeName id = true

variable {s : Schema} {g : Graph} {claims : Claims} {op : Operation} {typeName : String} {n : Node}

/-- The rule of a node's own type permits what it does not deny. -/
theorem permits_own_iff (hn : n ∈ g.toList) :
    s.permits g claims op n.typeName n.id = true ↔ ¬ s.Denies g claims op n := by
  have hisA : n.isA n.typeName = true := by simp [Node.isA]
  unfold permits Denies
  cases s.rule? n.typeName op with
  | none => simp
  | some rule => simp [Rule.holdsFor_of_isA hn hisA]

/-- The rule of another type is asked as if no graph rule covered the node. -/
theorem permits_other (hn : n ∈ g.toList) (hother : n.isA typeName = false) :
    s.permits g claims op typeName n.id =
      (s.rule? typeName op).all fun rule => rule.holdsWith claims fun _ => false := by
  unfold permits
  congr 1
  funext rule
  refine Rule.holdsWith_congr claims rule fun r _ => ?_
  simp [Rule.coversFor, Graph.mem_toList_iff.1 hn, hother]

end Schema

namespace Client

variable {c : Client} {s : Schema} {op : Operation}

/-- Through an object type its own rule decides, whatever is named. -/
theorem yields_writable (typeName : String) (ids : List String) :
    (c.writable s op typeName ids).Yields fun passed => ∀ id, id ∈ passed ↔ id ∈ ids ∧
      s.permits c.store.graph c.request.claims op typeName id = true := by
  unfold writable Schema.permits
  cases s.rule? typeName op with
  | none =>
      refine Job.yields_pure fun id => ?_
      simp [Names.mem_sorted]
  | some rule =>
      refine (Rule.yields_passing rule (Names.sorted ids)).mono fun passed hpassed id => ?_
      rw [hpassed id, Names.mem_sorted, Option.all_some]

/-- The store gives the types of the nodes that it stores. -/
theorem find?_typesOf {g : Graph} {ids : List String} {id typeName : String} :
    (g.typesOf ids).find? id = some typeName ↔
      id ∈ ids ∧ ∃ n, g.find? id = some n ∧ n.typeName = typeName := by
  unfold Graph.typesOf
  constructor
  · intro h
    obtain ⟨n, hn, heq⟩ := List.mem_map.1 (Keyed.mem_of_find?_ofList h)
    cases heq
    obtain ⟨hstored, hid⟩ := Graph.mem_among_iff.1 hn
    exact ⟨hid, n, Graph.mem_toList_iff.1 hstored, rfl⟩
  · rintro ⟨hid, n, hn, rfl⟩
    have hamong : n ∈ g.among ids :=
      Graph.mem_among_iff.2 ⟨Graph.mem_toList_of_find? hn, Graph.id_of_find? hn ▸ hid⟩
    have hmem : (id, n.typeName) ∈ (g.among ids).map fun n => (n.id, n.typeName) :=
      List.mem_map.2 ⟨n, hamong, by rw [Graph.id_of_find? hn]⟩
    obtain ⟨found, hfound⟩ := Option.isSome_iff_exists.1 (Keyed.isSome_find?_ofList hmem)
    obtain ⟨n', hn', heq⟩ := List.mem_map.1 (Keyed.mem_of_find?_ofList hfound)
    cases heq
    have hstored := Graph.mem_toList_iff.1 (Graph.mem_among_iff.1 hn').1
    rw [hn] at hstored
    rw [hfound, Option.some.inj hstored]

/-- Through an interface the rule of each node's own type decides.  The nodes are sorted by their
types first, those of types that do not implement the interface are left out, and each type is
checked by itself. -/
theorem yields_writableThrough (interface : String) (ids : List String) :
    (c.writableThrough s op interface ids).Yields fun passed => ∀ id, id ∈ passed ↔ id ∈ ids ∧
      s.Reaches c.store.graph c.request.claims op .interface interface id := by
  unfold writableThrough
  refine Job.Yields.bind Client.yields_call fun types htypes => ?_
  have htypes' : types = c.store.graph.typesOf ids :=
    (Except.ok.inj (Store.of_online htypes)).symm
  subst htypes'
  refine (Job.yields_gather fun t _ => yields_writable t _).bind fun passed hpassed => ?_
  refine Job.yields_pure fun id => ?_
  have hofType : ∀ t, id ∈ ofType (c.store.graph.typesOf ids) t ids ↔
      id ∈ ids ∧ ∃ n, c.store.graph.find? id = some n ∧ n.typeName = t := by
    intro t
    rw [ofType, List.mem_filter, decide_eq_true_iff, find?_typesOf, ← and_assoc, and_self]
  rw [Names.mem_sorted, List.mem_flatten, Schema.Reaches]
  constructor
  · rintro ⟨here, hhere, hid⟩
    obtain ⟨t, ht, hpasses⟩ := hpassed.exists_of_mem hhere
    obtain ⟨hmem, hpermits⟩ := (hpasses id).1 hid
    obtain ⟨hids, n, hn, rfl⟩ := (hofType t).1 hmem
    exact ⟨hids, n, hn, by simpa using (List.mem_filter.1 ht).2, hpermits⟩
  · rintro ⟨hids, n, hn, himplements, hpermits⟩
    have hvalue : n.typeName ∈ (c.store.graph.typesOf ids).values := by
      have hfind := find?_typesOf.2 ⟨hids, n, hn, rfl⟩
      exact List.mem_map_of_mem (Keyed.find?_eq_some_iff.1 hfind)
    have hconcrete : n.typeName ∈ (Names.sorted (c.store.graph.typesOf ids).values).filter
        (s.implementers interface).contains :=
      List.mem_filter.2 ⟨Names.mem_sorted.2 hvalue, by simpa using himplements⟩
    obtain ⟨here, hhere, hpasses⟩ := hpassed.exists_answer hconcrete
    exact ⟨here, hhere, (hpasses id).2 ⟨(hofType _).2 ⟨hids, n, hn, rfl⟩, hpermits⟩⟩

/-- What a write names is a type of the schema that is no union, and its kind decides how nodes are
checked. -/
theorem target_of_writeTarget {typeName : String} {kind : TypeKind}
    (h : s.writeTarget op typeName = .ok kind) :
    ∃ info, s.find? typeName = some info ∧ info.kind = kind ∧ kind ≠ .union := by
  unfold Schema.writeTarget at h
  split at h
  · simp at h
  · split at h
    · simp at h
    · next info hinfo =>
        split at h
        · simp at h
        · next hunion =>
            split at h
            · simp at h
            · cases h
              exact ⟨info, hinfo, rfl, hunion⟩

/-- Which nodes pass depends on the kind of the type that is named. -/
theorem yields_reached (kind : TypeKind) (typeName : String) (ids : List String) :
    (if kind = .interface then c.writableThrough s op typeName ids
      else c.writable s op typeName ids).Yields fun passed => ∀ id, id ∈ passed ↔ id ∈ ids ∧
        s.Reaches c.store.graph c.request.claims op kind typeName id := by
  cases kind with
  | interface => exact yields_writableThrough typeName ids
  | object => exact yields_writable typeName ids
  | union => exact yields_writable typeName ids

/-- What a write on nodes that are there reaches: ids that it names and that its check lets pass,
unless the request is refused. -/
theorem yields_authorize {typeName : String} {ids : List String} (hop : op ≠ .add) :
    (c.authorize s op typeName ids).Yields fun allowed => ∃ info, s.find? typeName = some info ∧
      info.kind ≠ .union ∧ ∀ id, id ∈ allowed ↔ id ∈ ids ∧ s.refuses c.request.claims = false ∧
        s.Reaches c.store.graph c.request.claims op info.kind typeName id := by
  unfold authorize
  refine (Job.yields_ofExcept _).bind fun kind hkind => ?_
  obtain ⟨info, hinfo, rfl, hunion⟩ := target_of_writeTarget hkind
  simp only
  split
  · next hrefused =>
      exact Job.yields_pure ⟨info, hinfo, hunion, fun id => by simp [hrefused]⟩
  · next hrefused =>
      have hopen : s.refuses c.request.claims = false := by simpa using hrefused
      have hreached : ((if info.kind = .interface then
          c.writableThrough s op typeName (Names.distinct ids)
          else c.writable s op typeName (Names.distinct ids)).bind fun passed =>
            Job.pure ((Names.distinct ids).filter passed.contains)).Yields fun allowed =>
          ∃ info, s.find? typeName = some info ∧ info.kind ≠ .union ∧ ∀ id, id ∈ allowed ↔
            id ∈ ids ∧ s.refuses c.request.claims = false ∧
              s.Reaches c.store.graph c.request.claims op info.kind typeName id := by
        refine (yields_reached info.kind typeName _).bind fun passed hpassed => ?_
        refine Job.yields_pure ⟨info, hinfo, hunion, fun id => ?_⟩
        rw [List.mem_filter, List.contains_eq_mem, decide_eq_true_iff, hpassed id,
          Names.mem_distinct]
        simp [hopen]
      split
      · next hinterface =>
          rw [if_pos hinterface] at hreached
          exact hreached
      · next hinterface =>
          rw [if_neg hinterface] at hreached
          exact hreached

end Client

namespace Warden

/-- A write that is authorized is authorized by the schema in force. -/
theorem authorize_of_perform {w : Warden} {s : Schema} {r : Request} {op : Operation}
    {typeName : String} {ids allowed : List String} (hs : w.catalog.current = some s)
    (h : (w.perform (authorizeWrite r op typeName ids)).1 = .ok allowed) :
    ((Client.authorize ⟨w.store, w.policy, r⟩ s op typeName ids).run w.line).1 = .ok allowed :=
  (perform_authorizeWrite hs r op typeName ids).symm.trans h

variable {w : Warden} {s : Schema} {r : Request} {op : Operation} {typeName : String}
  {ids allowed : List String} {n : Node}

/-- **When a write reaches a node that the node's own rule denies**: it names the node, is not
refused for being anonymous, and goes through an object type other than the node's own, which has
no rule, or one that holds although no graph rule does. -/
theorem write_reaches_denied_iff (hs : w.catalog.current = some s) (haccepted : s.Accepted)
    (hfits : w.store.graph.Fits s) (hop : op = .update ∨ op = .delete)
    (hn : n ∈ w.store.graph.toList) (hdenied : s.Denies w.store.graph r.claims op n)
    (h : (w.perform (authorizeWrite r op typeName ids)).1 = .ok allowed) :
    n.id ∈ allowed ↔ n.id ∈ ids ∧ s.refuses r.claims = false ∧
      (∃ info, s.find? typeName = some info ∧ info.kind = .object) ∧ n.typeName ≠ typeName ∧
      (s.rule? typeName op).all (fun rule => rule.holdsWith r.claims fun _ => false) = true := by
  have hadd : op ≠ .add := by rintro rfl; simp at hop
  obtain ⟨info, hinfo, hunion, hallowed⟩ :=
    (Client.yields_authorize hadd).of_run (authorize_of_perform hs h)
  rw [hallowed n.id]
  refine and_congr_right fun _ => and_congr_right fun _ => ?_
  have hfind := Graph.mem_toList_iff.1 hn
  cases hkind : info.kind with
  | union => exact absurd hkind hunion
  | interface =>
      constructor
      · rintro ⟨n', hn', _, hpermits⟩
        rw [hfind] at hn'
        cases hn'
        exact absurd hdenied ((Schema.permits_own_iff hn).1 hpermits)
      · rintro ⟨⟨info', hinfo', hobject⟩, _⟩
        rw [hinfo] at hinfo'
        cases hinfo'
        exact absurd (hkind.symm.trans hobject) (by simp)
  | object =>
      have hisA := Schema.isA_iff_of_object haccepted.sound hfits hn hinfo (by simp [hkind])
      show s.permits _ _ _ _ _ = true ↔ _
      by_cases hown : n.typeName = typeName
      · subst hown
        constructor
        · intro hpermits
          exact absurd hdenied ((Schema.permits_own_iff hn).1 hpermits)
        · rintro ⟨_, hother, _⟩
          exact absurd rfl hother
      · rw [Schema.permits_other hn (by simpa using mt hisA.1 hown)]
        constructor
        · intro hholds
          exact ⟨⟨info, hinfo, hkind⟩, hown, hholds⟩
        · rintro ⟨_, _, hholds⟩
          exact hholds

/-- A secret, which only administrators may delete; nobody guards notes. -/
def secret : Node :=
  ⟨"s1", "Secret", [], .empty⟩

def secrets : Graph := .ofList [secret]

def vault : Warden where
  catalog := (Catalog.empty.load ⟨[
    { name := "Note", kind := .object },
    TypeDefinition.withRule { name := "Secret", kind := .object } .delete
      (.rule "\x7b $ROLE: \x7b eq: \"ADMIN\" \x7d \x7d")], none⟩).2
  store := { graph := secrets }

theorem secrets_toList : secrets.toList = [secret] := by rfl

/-- The secret is denied to anonymous requests by the rule of its own type, and the vault's graph
fits its schema. -/
theorem vault_guards_secret : ∃ s, vault.catalog.current = some s ∧ s.Accepted ∧
    secrets.Fits s ∧ s.Denies secrets Claims.none .delete secret := by
  have hsome : vault.catalog.current.isSome = true := by decide +kernel
  obtain ⟨s, hs⟩ := Option.isSome_iff_exists.1 hsome
  have hdenied : (vault.catalog.current.bind fun s => s.rule? "Secret" .delete).any (fun rule =>
      !rule.holdsWith Claims.none (GraphRule.covers secrets Claims.none secret)) = true := by
    decide +kernel
  have hobject : (vault.catalog.current.bind fun s => s.find? "Secret").any (fun info =>
      info.kind = .object ∧ info.interfaces = []) = true := by decide +kernel
  rw [hs] at hdenied hobject
  obtain ⟨rule, hrule, hholds⟩ := (Option.any_eq_true _ _).1 hdenied
  obtain ⟨info, hinfo, hkind⟩ := (Option.any_eq_true _ _).1 hobject
  have hkind' : info.kind = .object ∧ info.interfaces = [] := by simpa using hkind
  refine ⟨s, hs, Catalog.accepted_of_load hs, ?_, rule, hrule, by simpa using hholds⟩
  intro n hn
  have hstored : n = secret := by simpa [secrets_toList] using hn
  subst hstored
  exact ⟨info, hinfo, hkind'.1, fun i => by simp [secret, hkind'.2]⟩

/-- All the same a request for deleting it as a note is answered with its id. -/
theorem vault_answers :
    (vault.perform (authorizeWrite {} .delete "Note" ["s1"])).1 = .ok ["s1"] :=
  toOption_eq_some_iff.1 (by decide +kernel)

/-- Whoever names the wrong type may delete the secret. -/
theorem vault_gives_secret_away :
    ∃ s, vault.catalog.current = some s ∧ s.Accepted ∧ vault.store.graph.Fits s ∧
      secret ∈ vault.store.graph.toList ∧
      s.Denies vault.store.graph Claims.none .delete secret ∧
      ∃ allowed, (vault.perform (authorizeWrite {} .delete "Note" ["s1"])).1 = .ok allowed ∧
        secret.id ∈ allowed := by
  obtain ⟨s, hs, haccepted, hfits, hdenied⟩ := vault_guards_secret
  have hstored : secret ∈ secrets.toList := by simp [secrets_toList]
  exact ⟨s, hs, haccepted, hfits, hstored, hdenied, ["s1"], vault_answers, by simp [secret]⟩

/-- That is what the general statement says of it: the type that is named is an object type,
another than that of the secret, and has no rule for deleting. -/
theorem vault_write_reaches_secret :
    ∃ (s : Schema) (allowed : List String),
      (vault.perform (authorizeWrite {} .delete "Note" ["s1"])).1 = .ok allowed ∧
      (secret.id ∈ allowed ↔ secret.id ∈ ["s1"] ∧ s.refuses Claims.none = false ∧
        (∃ info, s.find? "Note" = some info ∧ info.kind = .object) ∧ secret.typeName ≠ "Note" ∧
        (s.rule? "Note" .delete).all (fun rule => rule.holdsWith Claims.none fun _ => false) =
          true) := by
  obtain ⟨s, hs, haccepted, hfits, hdenied⟩ := vault_guards_secret
  have hstored : secret ∈ secrets.toList := by simp [secrets_toList]
  exact ⟨s, ["s1"], vault_answers, write_reaches_denied_iff (r := {}) hs haccepted hfits
    (Or.inr rfl) hstored hdenied vault_answers⟩

end Warden

end GraphWarden
