import GraphWarden.Proofs.Schema.Requeried
import GraphWarden.Proofs.Warden.PasswordCheck

/-!
# What a password check depends on

A query for checking a password goes by password rules at its root and by query rules below, so
that other query rules should make no difference to it, as long as they are those of types which
it selects at the root only and whose hierarchy declares a password rule.

**They make none to the query that is authorized, but they may make it fail**
(`password_checks_agree_iff`).  The query outcomes of the root's types are worked out first,
although nothing is made of them, and on a store that cannot evaluate negated filters one of
them may be missing.  The two schemas then disagree exactly when everything that governs the
check can be worked out, and the query outcomes of the root's types can under one of the schemas
only; on a store that evaluates negated filters they always agree.
-/

namespace GraphWarden

/-! ### Outcomes that can be worked out -/

namespace Schema

variable {s : Schema} {complement : Bool} {claims : Claims} {op : Operation} {q : Query}
  {types : List String} {typeName : String} {problem : AccessProblem}

/-- Whether it can be worked out what claims may see of some types. -/
def Resolves (s : Schema) (complement : Bool) (claims : Claims) (op : Operation)
    (types : List String) : Prop :=
  ∀ t ∈ types, ∃ out, s.outcome complement claims op t = .ok out

/-- Whether all outcomes can be worked out that are asked for when a password is to be
checked. -/
def ResolvesCheck (s : Schema) (complement : Bool) (claims : Claims) (q : Query) : Prop :=
  s.Resolves complement claims .query (s.governedTypes q) ∧
    s.Resolves complement claims .password (s.positionTypes q.typeName)

/-- What governs a password check can be worked out just when the password outcomes of the root's
types can, and the query outcomes of the types below. -/
theorem resolves_governedTypes_iff : s.Resolves complement claims op (s.governedTypes q) ↔
    s.Resolves complement claims op (s.positionTypes q.typeName) ∧
      s.Resolves complement claims op (s.typesBelow q.selections) := by
  unfold Resolves
  simp only [mem_governedTypes, or_imp, forall_and]

/-- It makes no difference in which order the outcomes are worked out, and how often. -/
theorem resolves_sorted_iff (types : List String) :
    s.Resolves complement claims op (Names.sorted types) ↔
      s.Resolves complement claims op types := by
  unfold Resolves
  simp only [Names.mem_sorted]

/-- Either all outcomes can be worked out, or the first that cannot be is the problem. -/
theorem Sound.outcomes_cases (hs : s.Sound) (complement : Bool) (claims : Claims)
    (op : Operation) (types : List String) :
    (s.Resolves complement claims op types ∧
      ∃ vs, s.outcomes complement claims op types = .ok vs) ∨
    (¬ s.Resolves complement claims op types ∧
      s.outcomes complement claims op types = .error .cannotNegate) := by
  induction types with
  | nil => exact Or.inl ⟨by simp [Resolves], [], rfl⟩
  | cons t ts ih =>
      unfold outcomes
      cases hout : s.outcome complement claims op t with
      | error problem =>
          obtain rfl := (hs.outcome_definite complement claims op t).error hout
          refine Or.inr ⟨fun hall => ?_, rfl⟩
          obtain ⟨out, hok⟩ := hall t List.mem_cons_self
          simp [hout] at hok
      | ok out =>
          rcases ih with ⟨hall, vs, hvs⟩ | ⟨hsome, hvs⟩
          · refine Or.inl ⟨?_, (t, out) :: vs, by rw [hvs]; rfl⟩
            exact List.forall_mem_cons.2 ⟨⟨out, hout⟩, hall⟩
          · refine Or.inr ⟨fun hall => hsome ?_, by rw [hvs]; rfl⟩
            exact (List.forall_mem_cons.1 hall).2

/-- Of a type that there is not everything may be seen. -/
theorem Sound.resolves_of_unknown (hs : s.Sound) (h : s.find? typeName = none) :
    s.Resolves complement claims .query (s.positionTypes typeName) := by
  have hnone : s.rule? typeName .query = none := by
    rw [Option.eq_none_iff_forall_not_mem]
    intro rule hrule
    obtain ⟨info, hinfo⟩ := hs.rules_known typeName .query rule hrule
    simp [h] at hinfo
  have hpositions : s.positionTypes typeName = [typeName] := by
    unfold positionTypes
    rw [h]
  intro t ht
  obtain rfl : t = typeName := by simpa [hpositions] using ht
  unfold outcome
  rw [governingRule?_query, hnone]
  cases s.refuses claims with
  | true => exact ⟨_, rfl⟩
  | false => exact ⟨_, rfl⟩

end Schema

/-! ### Outcomes under other query rules -/

namespace Schema

variable {definition definition' : SchemaDefinition} {catalog catalog' : Catalog}
  {s s' : Schema} {typeName : String}

/-- A schema that is put in force has the descriptor of its definition. -/
theorem descriptor_of_next (h : catalog.next definition = .ok s) :
    s.descriptor = definition.descriptor := by
  obtain ⟨compiled, hcompiled, rfl⟩ := exists_of_map_eq_ok h
  obtain ⟨_, _, _, hdescriptor, _⟩ := compile_eq_ok_iff.1 hcompiled
  exact hdescriptor

section Requeried

variable (hnext : catalog.next definition = .ok s) (hnext' : catalog'.next definition' = .ok s')
  (hsame : definition.Requeried definition')

include hnext hnext' hsame

/-- Definitions that differ in query rules compile to the same types. -/
theorem find?_requeried (name : String) : s'.find? name = s.find? name := by
  obtain ⟨_, _, hfrom⟩ := compiledFrom_of_next hnext
  obtain ⟨_, _, hfrom'⟩ := compiledFrom_of_next hnext'
  unfold find?
  rw [types_requeried hsame hfrom hfrom']

theorem positionTypes_requeried : s'.positionTypes = s.positionTypes :=
  positionTypes_congr (find?_requeried hnext hnext' hsame)

/-- Schemas of definitions that differ in query rules refuse the same claims. -/
theorem refuses_requeried (claims : Claims) : s'.refuses claims = s.refuses claims := by
  unfold refuses closedByDefault
  rw [descriptor_of_next hnext', descriptor_of_next hnext, hsame.descriptor]

/-- What may be seen of a type is the same when all its query rules are. -/
theorem outcome_query_requeried (hquery : definition.SameQueryRules definition' typeName)
    (complement : Bool) (claims : Claims) :
    s'.outcome complement claims .query typeName = s.outcome complement claims .query typeName := by
  obtain ⟨_, _, hfrom⟩ := compiledFrom_of_next hnext
  obtain ⟨_, _, hfrom'⟩ := compiledFrom_of_next hnext'
  unfold outcome
  rw [refuses_requeried hnext hnext' hsame, governingRule?_query, governingRule?_query,
    rule?_requeried hsame hfrom hfrom' hquery]

/-- On which nodes of a type a password may be checked is the same also when its hierarchy
declares a password rule. -/
theorem outcome_password_requeried
    (hgoverned : definition.SameQueryRules definition' typeName ∨
      definition.Declares typeName .password) (complement : Bool) (claims : Claims) :
    s'.outcome complement claims .password typeName =
      s.outcome complement claims .password typeName := by
  obtain ⟨_, _, hfrom⟩ := compiledFrom_of_next hnext
  obtain ⟨_, _, hfrom'⟩ := compiledFrom_of_next hnext'
  unfold outcome governingRule?
  rw [refuses_requeried hnext hnext' hsame, if_pos rfl, if_pos rfl,
    passwordRule?_requeried hsame hfrom hfrom' hgoverned]

end Requeried

end Schema

/-! ### Password checks -/

namespace Warden

variable {w w' : Warden} {s s' : Schema} {r : Request} {q : Query} {info : TypeInfo}
  {definition definition' : SchemaDefinition} {catalog catalog' : Catalog}

/-- A query on a type that there is not is told so. -/
theorem authorizePasswordCheck_of_unknown (hcurrent : w.catalog.current = some s)
    (hroot : s.find? q.typeName = none) :
    (w.perform (authorizePasswordCheck r q)).1 = .error (.request (.unknownType q.typeName)) := by
  unfold authorizePasswordCheck
  rw [perform_counted]
  unfold restrictPasswordCheck
  rw [perform_bind_ok (perform_schema hcurrent), perform_bind]
  simp [rootKind, hroot]

/-- A password check is authorized exactly when all query outcomes and the password outcomes of
the root's types can be worked out. -/
theorem authorizePasswordCheck_cases (hw : Ready s r.claims w) (hs : s.Sound)
    (hroot : s.find? q.typeName = some info) :
    (s.ResolvesCheck w.store.complement r.claims q ∧
      ∃ q₁, (w.perform (authorizePasswordCheck r q)).1 = .ok q₁) ∨
    (¬ s.ResolvesCheck w.store.complement r.claims q ∧
      (w.perform (authorizePasswordCheck r q)).1 = .error .cannotNegate) := by
  unfold Schema.ResolvesCheck
  rw [perform_authorizePasswordCheck hw hroot,
    ← Schema.resolves_sorted_iff (s.positionTypes q.typeName)]
  rcases hs.outcomes_cases w.store.complement r.claims .query (s.governedTypes q) with
    ⟨hquery, vs, hvs⟩ | ⟨hquery, hvs⟩
  · rcases hs.outcomes_cases w.store.complement r.claims .password
      (Names.sorted (s.positionTypes q.typeName)) with
      ⟨hpassword, root, hrootvs⟩ | ⟨hpassword, hrootvs⟩
    · exact Or.inl ⟨⟨hquery, hpassword⟩, _, by rw [hvs, hrootvs]; rfl⟩
    · exact Or.inr ⟨fun h => hpassword h.2, by rw [hvs, hrootvs]; rfl⟩
  · exact Or.inr ⟨fun h => hquery h.1, by rw [hvs]; rfl⟩

section Requeried

variable (hnext : catalog.next definition = .ok s) (hnext' : catalog'.next definition' = .ok s')
  (hsame : definition.Requeried definition')
  (hbelow : ∀ t ∈ s.typesBelow q.selections, definition.SameQueryRules definition' t)
  (hgoverned : ∀ t ∈ s.positionTypes q.typeName,
    definition.SameQueryRules definition' t ∨ definition.Declares t .password)

include hnext hnext' hsame hbelow hgoverned

/-- Under other query rules that do not govern the check the same query is authorized, where one
is. -/
theorem authorized_requeried (hw : Ready s r.claims w) (hw' : Ready s' r.claims w')
    (hstore : w'.store.complement = w.store.complement)
    (hroot : s.find? q.typeName = some info) {q₁ q₂ : Query}
    (hauthorized : (w.perform (authorizePasswordCheck r q)).1 = .ok q₁)
    (hauthorized' : (w'.perform (authorizePasswordCheck r q)).1 = .ok q₂) : q₂ = q₁ := by
  have hpositions := Schema.positionTypes_requeried hnext hnext' hsame
  have hroot' : s'.find? q.typeName = some info := by
    rw [Schema.find?_requeried hnext hnext' hsame, hroot]
  obtain ⟨vs, root, hvs, hrootvs, rfl⟩ := exists_of_authorizePasswordCheck hw hroot hauthorized
  obtain ⟨vs', root', hvs', hrootvs', rfl⟩ :=
    exists_of_authorizePasswordCheck hw' hroot' hauthorized'
  rw [hstore] at hvs' hrootvs'
  refine Visibilities.restrict_congr hpositions (fun t ht => ?_) fun t ht => ?_
  · obtain ⟨out, hout, houtcome⟩ := Schema.find?_outcomes hrootvs (Names.mem_sorted.2 ht)
    obtain ⟨out', hout', houtcome'⟩ :=
      Schema.find?_outcomes hrootvs' (t := t) (by rw [hpositions]; exact Names.mem_sorted.2 ht)
    rw [Schema.outcome_password_requeried hnext hnext' hsame (hgoverned t ht), houtcome]
      at houtcome'
    rw [hout, hout', Except.ok.inj houtcome']
  · obtain ⟨out, hout, houtcome⟩ :=
      Schema.find?_outcomes hvs (Schema.mem_governedTypes.2 (Or.inr ht))
    have ht' : t ∈ s'.governedTypes q :=
      Schema.mem_governedTypes.2 (Or.inr (by rw [Schema.typesBelow_congr hpositions]; exact ht))
    obtain ⟨out', hout', houtcome'⟩ := Schema.find?_outcomes hvs' ht'
    rw [Schema.outcome_query_requeried hnext hnext' hsame (hbelow t ht), houtcome] at houtcome'
    rw [hout, hout', Except.ok.inj houtcome']

/-- What governs the check can be worked out under both schemas or under neither. -/
theorem resolves_requeried (complement : Bool) (claims : Claims) :
    (s'.Resolves complement claims .query (s'.typesBelow q.selections) ↔
      s.Resolves complement claims .query (s.typesBelow q.selections)) ∧
    (s'.Resolves complement claims .password (s'.positionTypes q.typeName) ↔
      s.Resolves complement claims .password (s.positionTypes q.typeName)) := by
  have hpositions := Schema.positionTypes_requeried hnext hnext' hsame
  rw [hpositions, Schema.typesBelow_congr hpositions]
  constructor
  · refine forall₂_congr fun t ht => ?_
    rw [Schema.outcome_query_requeried hnext hnext' hsame (hbelow t ht)]
  · refine forall₂_congr fun t ht => ?_
    rw [Schema.outcome_password_requeried hnext hnext' hsame (hgoverned t ht)]

/-- The same is answered exactly when all outcomes can be worked out under both schemas or
under neither. -/
theorem same_answer_iff (hw : Ready s r.claims w) (hw' : Ready s' r.claims w')
    (hs : s.Sound) (hs' : s'.Sound) (hstore : w'.store.complement = w.store.complement)
    (hroot : s.find? q.typeName = some info) :
    (w'.perform (authorizePasswordCheck r q)).1 = (w.perform (authorizePasswordCheck r q)).1 ↔
      (s'.ResolvesCheck w.store.complement r.claims q ↔
        s.ResolvesCheck w.store.complement r.claims q) := by
  have hroot' : s'.find? q.typeName = some info := by
    rw [Schema.find?_requeried hnext hnext' hsame, hroot]
  have hcases' := authorizePasswordCheck_cases hw' hs' hroot'
  rw [hstore] at hcases'
  rcases authorizePasswordCheck_cases hw hs hroot with ⟨hall, q₁, hq₁⟩ | ⟨hsome, hq₁⟩
  · rcases hcases' with ⟨hall', q₂, hq₂⟩ | ⟨hsome', hq₂⟩
    · have hsame₁ : q₂ = q₁ := authorized_requeried hnext hnext' hsame hbelow hgoverned hw hw'
        hstore hroot hq₁ hq₂
      simp [hq₁, hq₂, hsame₁, hall, hall']
    · simp [hq₁, hq₂, hall, hsome']
  · rcases hcases' with ⟨hall', q₂, hq₂⟩ | ⟨hsome', hq₂⟩
    · simp [hq₁, hq₂, hsome, hall']
    · simp [hq₁, hq₂, hsome, hsome']

/-- The same is answered exactly when something that governs the check is missing under both
schemas, or the query outcomes of the root's types are there under both or under neither. -/
theorem same_answer_iff_resolves (hcurrent : w.catalog.current = some s)
    (hcurrent' : w'.catalog.current = some s') (hfaithful : w.Faithful r.claims)
    (hfaithful' : w'.Faithful r.claims) (hstore : w'.store.complement = w.store.complement) :
    (w'.perform (authorizePasswordCheck r q)).1 = (w.perform (authorizePasswordCheck r q)).1 ↔
      (s.Resolves w.store.complement r.claims .query (s.typesBelow q.selections) →
        s.Resolves w.store.complement r.claims .password (s.positionTypes q.typeName) →
        (s'.Resolves w.store.complement r.claims .query (s'.positionTypes q.typeName) ↔
          s.Resolves w.store.complement r.claims .query (s.positionTypes q.typeName))) := by
  have hs := (show s.Accepted from ⟨catalog, definition, hnext⟩).sound
  have hs' := (show s'.Accepted from ⟨catalog', definition', hnext'⟩).sound
  have hfind := Schema.find?_requeried hnext hnext' hsame q.typeName
  cases hroot : s.find? q.typeName with
  | none =>
      rw [hroot] at hfind
      rw [authorizePasswordCheck_of_unknown hcurrent hroot,
        authorizePasswordCheck_of_unknown hcurrent' hfind]
      simp [hs.resolves_of_unknown hroot, hs'.resolves_of_unknown hfind]
  | some info =>
      have hw : Ready s r.claims w := ⟨hcurrent, fun _ => hfaithful⟩
      have hw' : Ready s' r.claims w' := ⟨hcurrent', fun _ => hfaithful'⟩
      obtain ⟨hnested, hpassword⟩ := resolves_requeried hnext hnext' hsame hbelow hgoverned
        w.store.complement r.claims
      rw [same_answer_iff hnext hnext' hsame hbelow hgoverned hw hw' hs hs' hstore hroot]
      unfold Schema.ResolvesCheck
      rw [Schema.resolves_governedTypes_iff, Schema.resolves_governedTypes_iff, hnested,
        hpassword]
      tauto

/-- **A password check depends on what governs it, and on whether what does not govern it can be
worked out.**  Under other query rules of types that are selected at the root only, and whose
hierarchy declares a password rule, the same is answered, unless all that governs the check can
be worked out and the query outcomes of the root's types can under one of the schemas only.
That does not happen on a store that evaluates negated filters. -/
theorem password_checks_agree_iff (hcurrent : w.catalog.current = some s)
    (hcurrent' : w'.catalog.current = some s') (hfaithful : w.Faithful r.claims)
    (hfaithful' : w'.Faithful r.claims) (hstore : w'.store.complement = w.store.complement) :
    ((w'.perform (authorizePasswordCheck r q)).1 = (w.perform (authorizePasswordCheck r q)).1 ↔
      (s.Resolves w.store.complement r.claims .query (s.typesBelow q.selections) →
        s.Resolves w.store.complement r.claims .password (s.positionTypes q.typeName) →
        (s'.Resolves w.store.complement r.claims .query (s'.positionTypes q.typeName) ↔
          s.Resolves w.store.complement r.claims .query (s.positionTypes q.typeName)))) ∧
    (w.store.complement = true →
      (w'.perform (authorizePasswordCheck r q)).1 =
        (w.perform (authorizePasswordCheck r q)).1) := by
  have hagree := same_answer_iff_resolves hnext hnext' hsame hbelow hgoverned hcurrent hcurrent'
    hfaithful hfaithful' hstore
  refine ⟨hagree, fun hcomplement => hagree.2 fun _ _ => ?_⟩
  have hs := (show s.Accepted from ⟨catalog, definition, hnext⟩).sound
  have hs' := (show s'.Accepted from ⟨catalog', definition', hnext'⟩).sound
  rw [hcomplement]
  exact iff_of_true (fun t _ => hs'.outcome_isOk r.claims .query t)
    fun t _ => hs.outcome_isOk r.claims .query t

end Requeried

/-- Users are seen unless they are banned; the rest is as for `accounts`. -/
def accountsUnlessBanned : SchemaDefinition where
  types := [
    { name := "Account", kind := .interface },
    TypeDefinition.withRule
      (TypeDefinition.withRule { name := "User", kind := .object, interfaces := ["Account"] }
        .query (.not (.rule "query \x7b queryUser \x7b banned \x7d \x7d")))
      .password (.rule "query \x7b queryUser \x7b active \x7d \x7d"),
    TypeDefinition.withRule { name := "Bot", kind := .object, interfaces := ["Account"] } .query
      (.rule "query \x7b queryBot \x7b public \x7d \x7d")]

/-- The portal under a definition, with a store that may be able to evaluate negated filters. -/
def portalUnder (definition : SchemaDefinition) (complement : Bool) : Warden where
  catalog := (Catalog.empty.load definition).2
  store := { graph := members, complement }

/-- A user signs in, and is shown the bots that help. -/
def userSignIn : Query where
  typeName := "User"
  selections := [.edge "helpers" "Bot" [.scalar "id"]]

/-- The two definitions of accounts differ in a query rule only, which is that of the users. -/
theorem accounts_requeried : accounts.Requeried accountsUnlessBanned := by
  have hsame : ∀ d : TypeDefinition, d.Requeried d := fun d => ⟨rfl, rfl, rfl, rfl, fun _ _ => rfl⟩
  refine ⟨.cons (hsame _) (.cons ⟨rfl, rfl, rfl, rfl, ?_⟩ (.cons (hsame _) .nil)), rfl⟩
  intro op hop
  cases op <;> first | rfl | exact absurd rfl hop

/-- Only accounts stand above anything, and they have no rules; bots have the same. -/
theorem bots_sameQueryRules : accounts.SameQueryRules accountsUnlessBanned "Bot" := by
  have hlists : ∀ t i, accounts.Lists t i → i = "Account" := by
    rintro t i ⟨d, hd, _, hi⟩
    simp only [accounts, List.mem_cons, List.not_mem_nil, or_false] at hd
    rcases hd with rfl | rfl | rfl
    · simp at hi
    · simpa [TypeDefinition.withRule] using hi
    · simpa [TypeDefinition.withRule] using hi
  intro name hname
  rcases hname with rfl | himplements
  · simp [SchemaDefinition.declared?, accounts, accountsUnlessBanned, TypeDefinition.withRule]
  · obtain ⟨t, hlast⟩ : ∃ t, accounts.Lists t name := by
      cases himplements with
      | single h => exact ⟨_, h⟩
      | tail _ h => exact ⟨_, h⟩
    obtain rfl := hlists t name hlast
    simp [SchemaDefinition.declared?, accounts, accountsUnlessBanned, TypeDefinition.withRule]

/-- Users declare a password rule of their own under both definitions. -/
theorem users_declare_password :
    accounts.Declares "User" .password ∧ accountsUnlessBanned.Declares "User" .password := by
  constructor
  · exact ⟨"User", Or.inl rfl,
      by simp [SchemaDefinition.declared?, TypeDefinition.declared?, accounts,
        TypeDefinition.withRule, Slots.get?, Slots.put]⟩
  · exact ⟨"User", Or.inl rfl,
      by simp [SchemaDefinition.declared?, TypeDefinition.declared?, accountsUnlessBanned,
        TypeDefinition.withRule, Slots.get?, Slots.put]⟩

/-- Both definitions are accepted, and the sign-in selects users at its root and bots below. -/
theorem exists_portal_schemas :
    ∃ s s', Catalog.empty.next accounts = .ok s ∧
      Catalog.empty.next accountsUnlessBanned = .ok s' ∧
      s.positionTypes userSignIn.typeName = ["User"] ∧
      s.typesBelow userSignIn.selections = ["Bot"] := by
  have hschema : ((Catalog.empty.next accounts).toOption.any fun s =>
      s.positionTypes userSignIn.typeName = ["User"] ∧
        s.typesBelow userSignIn.selections = ["Bot"]) = true := by
    decide +kernel
  have hschema' : (Catalog.empty.next accountsUnlessBanned).toOption.isSome = true := by
    decide +kernel
  obtain ⟨s, hnext, hpositions⟩ := (Option.any_eq_true _ _).1 hschema
  obtain ⟨s', hnext'⟩ := Option.isSome_iff_exists.1 hschema'
  rw [toOption_eq_some_iff] at hnext hnext'
  simp only [decide_eq_true_eq] at hpositions
  exact ⟨s, s', hnext, hnext', hpositions⟩

/-- Only the query rule of the users differs, who are selected at the root and nowhere else and
have a password rule; but the sign-in that is authorized under one of the schemas fails under
the other, where the store would have to negate a filter. -/
theorem portal_fails_for_rule_of_queries :
    ∃ s s' q₁, (portalUnder accounts false).catalog.current = some s ∧
      (portalUnder accountsUnlessBanned false).catalog.current = some s' ∧
      s.Accepted ∧ s'.Accepted ∧ accounts.Requeried accountsUnlessBanned ∧
      (∀ t ∈ s.typesBelow userSignIn.selections,
        accounts.SameQueryRules accountsUnlessBanned t) ∧
      (∀ t ∈ s.positionTypes userSignIn.typeName, t ∉ s.typesBelow userSignIn.selections ∧
        accounts.Declares t .password ∧ accountsUnlessBanned.Declares t .password) ∧
      ((portalUnder accounts false).perform (authorizePasswordCheck {} userSignIn)).1 = .ok q₁ ∧
      ((portalUnder accountsUnlessBanned false).perform
        (authorizePasswordCheck {} userSignIn)).1 = .error .cannotNegate := by
  have hanswer : ((portalUnder accounts false).perform
      (authorizePasswordCheck {} userSignIn)).1.toOption.isSome = true := by
    decide +kernel
  have hfailure : (match ((portalUnder accountsUnlessBanned false).perform
      (authorizePasswordCheck {} userSignIn)).1 with
    | .error .cannotNegate => true
    | _ => false) = true := by
    decide +kernel
  obtain ⟨s, s', hnext, hnext', hroot, hbelow⟩ := exists_portal_schemas
  obtain ⟨q₁, hq₁⟩ := Option.isSome_iff_exists.1 hanswer
  rw [toOption_eq_some_iff] at hq₁
  refine ⟨s, s', q₁, by simp [portalUnder, Catalog.load, hnext],
    by simp [portalUnder, Catalog.load, hnext'], ⟨_, _, hnext⟩, ⟨_, _, hnext'⟩,
    accounts_requeried, fun t ht => ?_, fun t ht => ?_, hq₁, ?_⟩
  · obtain rfl : t = "Bot" := by simpa [hbelow] using ht
    exact bots_sameQueryRules
  · obtain rfl : t = "User" := by simpa [hroot] using ht
    exact ⟨by simp [hbelow], users_declare_password⟩
  · split at hfailure
    · next herror => exact herror
    · simp at hfailure

/-- On a store that evaluates negated filters both portals authorize the same sign-in. -/
theorem portals_check_alike :
    ((portalUnder accountsUnlessBanned true).perform (authorizePasswordCheck {} userSignIn)).1 =
      ((portalUnder accounts true).perform (authorizePasswordCheck {} userSignIn)).1 := by
  obtain ⟨s, s', hnext, hnext', hroot, hbelow⟩ := exists_portal_schemas
  have hcurrent : (portalUnder accounts true).catalog.current = some s := by
    simp [portalUnder, Catalog.load, hnext]
  have hcurrent' : (portalUnder accountsUnlessBanned true).catalog.current = some s' := by
    simp [portalUnder, Catalog.load, hnext']
  refine (password_checks_agree_iff hnext hnext' accounts_requeried (fun t ht => ?_)
    (fun t ht => ?_) hcurrent hcurrent' (faithful_of_nothing fun m hm => by cases hm)
    (faithful_of_nothing fun m hm => by cases hm) rfl).2 rfl
  · obtain rfl : t = "Bot" := by simpa [hbelow] using ht
    exact bots_sameQueryRules
  · obtain rfl : t = "User" := by simpa [hroot] using ht
    exact Or.inr users_declare_password.1

end Warden

end GraphWarden
