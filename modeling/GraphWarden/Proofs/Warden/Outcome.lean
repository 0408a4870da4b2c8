import GraphWarden.Proofs.Position.Answer
import GraphWarden.Proofs.Rule.Definite
import GraphWarden.Proofs.Warden.Memory

/-!
# What a request may see

Nothing but the schema in force, the claims of a request and the kind of store decides what
may be seen of a type (`Schema.outcome`).  A warden that is faithful to the claims gives just
that, or fails with just that problem, **whether or not an outcome was remembered**
(`perform_visibility`), and stays faithful to them.  To claims that are refused it need not
be faithful, because then it does not look at its memory; so a warden that is `Ready` for the
claims is all that is asked for.

What a warden makes of a query that it authorizes is thus a function of the outcomes of the
query's types (`perform_authorizeQuery`, `perform_authorizePasswordCheck`).
-/

namespace GraphWarden

namespace Schema

/-- What claims may see of a type, when nothing is remembered. -/
def outcome (s : Schema) (complement : Bool) (claims : Claims) (op : Operation)
    (typeName : String) : Except AccessProblem Visibility :=
  if s.refuses claims then .ok .denied
  else Rule.visibilityIfAny complement claims (s.governingRule? typeName op)

/-- What claims may see of several types, one after the other. -/
def outcomes (s : Schema) (complement : Bool) (claims : Claims) (op : Operation) :
    List String → Except AccessProblem (List (String × Visibility))
  | [] => .ok []
  | t :: ts => do
    let v ← s.outcome complement claims op t
    let vs ← outcomes s complement claims op ts
    .ok ((t, v) :: vs)

variable {s : Schema} {complement : Bool} {claims : Claims} {op : Operation}
  {types : List String} {vs : List (String × Visibility)}

/-- When the outcomes of some types can all be worked out, each is there with its type, in the
order of the types, and is what the rules of that type leave visible. -/
theorem outcomes_spec (h : s.outcomes complement claims op types = .ok vs) :
    vs.map Prod.fst = types ∧ ∀ v ∈ vs, s.outcome complement claims op v.1 = .ok v.2 := by
  induction types generalizing vs with
  | nil =>
      cases h
      simp
  | cons t ts ih =>
      unfold outcomes at h
      cases hout : s.outcome complement claims op t with
      | error problem => simp [hout, bind, Except.bind] at h
      | ok out =>
          cases hrest : s.outcomes complement claims op ts with
          | error problem => simp [hout, hrest, bind, Except.bind] at h
          | ok rest =>
              rw [hout, hrest] at h
              cases h
              obtain ⟨hfst, hall⟩ := ih hrest
              refine ⟨by simp [hfst], fun v hv => ?_⟩
              rcases List.mem_cons.1 hv with rfl | hv
              · exact hout
              · exact hall v hv

/-- The outcome of each type is found under its name. -/
theorem find?_outcomes (h : s.outcomes complement claims op types = .ok vs) {t : String}
    (ht : t ∈ types) :
    ∃ out, (Keyed.ofList vs).find? t = some out ∧ s.outcome complement claims op t = .ok out := by
  obtain ⟨hfst, hall⟩ := outcomes_spec h
  rw [← hfst] at ht
  obtain ⟨⟨t, out⟩, hmem, rfl⟩ := List.mem_map.1 ht
  obtain ⟨out, hout⟩ := Option.isSome_iff_exists.1 (Keyed.isSome_find?_ofList hmem)
  exact ⟨out, hout, hall (t, out) (Keyed.mem_of_find?_ofList hout)⟩

/-- Outcomes that can be worked out one by one can be worked out together. -/
theorem outcomes_isOk (h : ∀ t ∈ types, ∃ out, s.outcome complement claims op t = .ok out) :
    ∃ vs, s.outcomes complement claims op types = .ok vs := by
  induction types with
  | nil => exact ⟨[], rfl⟩
  | cons t ts ih =>
      obtain ⟨out, hout⟩ := h t List.mem_cons_self
      obtain ⟨vs, hvs⟩ := ih fun t' ht' => h t' (List.mem_cons_of_mem _ ht')
      exact ⟨(t, out) :: vs, by simp [outcomes, hout, hvs, bind, Except.bind]⟩

/-- The rule that governs an operation is one in which each single filter can be negated.  A
password check is governed by the password rule or else by the query rule, and both are such rules.
-/
theorem Sound.governingRule_negates (hs : s.Sound) {t : String} {rule : Rule}
    (hrule : s.governingRule? t op = some rule) : rule.Negates := by
  unfold governingRule? at hrule
  split at hrule
  · rcases Option.or_eq_some_iff.1 hrule with hrule | ⟨_, hrule⟩
    · exact hs.rules_negate t .password rule hrule
    · exact hs.rules_negate t .query rule hrule
  · exact hs.rules_negate t op rule hrule

/-- Every type has an outcome, unless a filter cannot be negated. -/
theorem Sound.outcome_definite (hs : s.Sound) (complement : Bool) (claims : Claims)
    (op : Operation) (typeName : String) :
    Rule.Definite complement (s.outcome complement claims op typeName) := by
  unfold outcome
  split
  · exact Rule.definite_ok _
  · cases hrule : s.governingRule? typeName op with
    | none => exact Rule.definite_ok _
    | some rule => exact Rule.Negates.definite rule (hs.governingRule_negates hrule)

/-- On a store that evaluates negated filters every type has an outcome. -/
theorem Sound.outcome_isOk (hs : s.Sound) (claims : Claims) (op : Operation) (typeName : String) :
    ∃ out, s.outcome true claims op typeName = .ok out :=
  (hs.outcome_definite true claims op typeName).isOk

/-- On such a store the outcomes of any types can be worked out, because no single one can fail. -/
theorem Sound.outcomes_isOk (hs : s.Sound) (claims : Claims) (op : Operation)
    (types : List String) : ∃ vs, s.outcomes true claims op types = .ok vs :=
  Schema.outcomes_isOk fun t _ => hs.outcome_isOk claims op t

/-- The outcomes of types, when the claims are not refused, are what the rules leave
visible. -/
theorem knows_of_outcomes (hopen : s.refuses claims = false)
    (h : s.outcomes complement claims op types = .ok vs) :
    Visibilities.Knows (Keyed.ofList vs) s claims op types := by
  intro t ht
  obtain ⟨out, hout, houtcome⟩ := find?_outcomes h ht
  unfold outcome at houtcome
  rw [hopen] at houtcome
  exact ⟨out, hout, Rule.visibilityIfAny_true houtcome⟩

end Schema

namespace Warden

variable {w : Warden} {s : Schema} {r : Request} {q : Query} {info : TypeInfo}

/-- The wardens differ at most in what they remember and what they counted. -/
def Alike (w w' : Warden) : Prop :=
  ∃ memo meter, w' = { w with memo, meter }

/-- A warden is like itself.  Its memory and its counts are those it has. -/
theorem alike_refl (w : Warden) : w.Alike w :=
  ⟨w.memo, w.meter, rfl⟩

/-- What happens in two acts changes at most memory and counts when each act does. -/
theorem Alike.trans {w' w'' : Warden} (h : w.Alike w') (h' : w'.Alike w'') : w.Alike w'' := by
  obtain ⟨_, _, rfl⟩ := h
  obtain ⟨memo, meter, rfl⟩ := h'
  exact ⟨memo, meter, rfl⟩

/-- Wardens that differ in memory and counts only have the same store, and so they answer from the
same graph and negate the same filters. -/
theorem Alike.store_eq {w' : Warden} (h : w.Alike w') : w'.store = w.store := by
  obtain ⟨_, _, rfl⟩ := h
  rfl

/-- The schema is in force, and what is remembered for the claims is right, unless they are
refused anyway. -/
structure Ready (s : Schema) (claims : Claims) (w : Warden) : Prop where
  current : w.catalog.current = some s
  faithful : s.refuses claims = false → w.Faithful claims

/-- An act that keeps a warden faithful, and changes but its memory and its counts, keeps it
ready. -/
theorem Ready.after {w' : Warden} {claims : Claims} (hw : Ready s claims w)
    (halike : w.Alike w') (hkept : Mindful s claims w → Mindful s claims w') :
    Ready s claims w' := by
  constructor
  · obtain ⟨_, _, rfl⟩ := halike
    exact hw.current
  · intro hopen
    exact (hkept ⟨hw.current, hw.faithful hopen⟩).faithful

/-- Looking up finds nothing but what was put in. -/
theorem perform_lookUp (w : Warden) (k : OutcomeKey) :
    ∃ found w', w.perform (lookUp k) = (.ok found, w') ∧ w.Alike w' ∧
      ∀ v, found = some v → ∃ m, w.memo = some m ∧ (k.bytes, v) ∈ m.entries := by
  unfold lookUp
  rw [perform_bind_ok perform_get]
  cases hmemo : w.memo with
  | none => exact ⟨none, w, rfl, alike_refl w, by simp⟩
  | some m =>
      cases hfound : (m.get k).1 with
      | none =>
          refine ⟨none, _, ?_, ⟨some (m.get k).2, w.meter.map Meter.countMiss, rfl⟩, by simp⟩
          simp only
          rw [perform_bind_ok (perform_modify _), hfound]
          rfl
      | some v =>
          refine ⟨some v, _, ?_, ⟨some (m.get k).2, w.meter.map Meter.countHit, rfl⟩, ?_⟩
          · simp only
            rw [perform_bind_ok (perform_modify _), hfound]
            rfl
          · intro v' hv'
            exact ⟨m, rfl, Option.some.inj hv' ▸ Memo.mem_of_get hfound⟩

/-- **What a request may see of a type is what its claims may see when nothing is
remembered.** -/
theorem perform_visibility (hw : Ready s r.claims w) (typeName : String) (op : Operation) :
    ∃ w', w.perform (visibility s r typeName op) =
      (s.outcome w.store.complement r.claims op typeName, w') ∧ w.Alike w' := by
  unfold visibility Schema.outcome
  cases hrefuses : s.refuses r.claims with
  | true => exact ⟨w, rfl, alike_refl w⟩
  | false =>
    have hfaithful := hw.faithful hrefuses
    simp only [Bool.false_eq_true, if_false]
    cases hrule : s.governingRule? typeName op with
    | none => exact ⟨w, rfl, alike_refl w⟩
    | some rule =>
        obtain ⟨found, w', hperform, halike, hfound⟩ :=
          perform_lookUp w ⟨s.generation, typeName, op, r.claims⟩
        simp only
        rw [perform_bind_ok hperform]
        cases found with
        | some v =>
            obtain ⟨m, hm, hmem⟩ := hfound v rfl
            have hv := hfaithful s m hw.current hm typeName op rule v hrule hmem
            exact ⟨w', by rw [Rule.visibilityIfAny, hv]; rfl, halike⟩
        | none =>
            simp only
            rw [perform_bind_ok perform_get, halike.store_eq, Rule.visibilityIfAny]
            cases rule.visibility w.store.complement r.claims with
            | error problem => exact ⟨w', rfl, halike⟩
            | ok v => exact ⟨_, rfl, halike.trans ⟨_, w'.meter, rfl⟩⟩

/-- What a request may see of several types. -/
theorem perform_visibilities (hw : Ready s r.claims w) (op : Operation) (types : List String) :
    ∃ w', w.perform (visibilities s r op types) =
      (s.outcomes w.store.complement r.claims op types, w') ∧ w.Alike w' ∧
      Ready s r.claims w' := by
  induction types generalizing w with
  | nil => exact ⟨w, rfl, alike_refl w, hw⟩
  | cons t ts ih =>
      obtain ⟨w', hperform, halike⟩ := perform_visibility hw t op
      have hw' : Ready s r.claims w' := by
        refine hw.after halike fun hmindful => ?_
        have hkept := keeps_visibility (OutcomeKey.apart_self r.claims) t op w hmindful
        rw [hperform] at hkept
        exact hkept
      unfold visibilities Schema.outcomes
      cases hout : s.outcome w.store.complement r.claims op t with
      | error problem =>
          rw [hout] at hperform
          exact ⟨w', by rw [perform_bind, hperform]; rfl, halike, hw'⟩
      | ok out =>
          rw [hout] at hperform
          obtain ⟨w'', hrest, halike', hw''⟩ := ih hw'
          rw [halike.store_eq] at hrest
          refine ⟨w'', ?_, halike.trans halike', hw''⟩
          rw [perform_bind_ok hperform, perform_bind, hrest]
          cases s.outcomes w.store.complement r.claims op ts with
          | error problem => rfl
          | ok vs => rfl

/-! ### Authorized queries -/

/-- Asking for the kind of a root that the schema knows gives its kind and changes nothing. -/
theorem perform_rootKind (hroot : s.find? q.typeName = some info) :
    w.perform (rootKind s q.typeName) = (.ok info.kind, w) := by
  simp [rootKind, hroot]

/-- A read query is authorized by what the claims may see of its types. -/
theorem perform_authorizeQuery (hw : Ready s r.claims w)
    (hroot : s.find? q.typeName = some info) :
    ∃ w', w.perform (authorizeQuery r q) =
      ((s.outcomes w.store.complement r.claims .query (s.governedTypes q)).map fun vs =>
        Visibilities.restrict (Keyed.ofList vs) (Keyed.ofList vs) s q, w') ∧
      w.Alike w' ∧ Ready s r.claims w' := by
  obtain ⟨w', hperform, halike, hw'⟩ := perform_visibilities hw .query (s.governedTypes q)
  have hrestrict : w.perform (restrict r q) =
      ((s.outcomes w.store.complement r.claims .query (s.governedTypes q)).map fun vs =>
        Visibilities.restrict (Keyed.ofList vs) (Keyed.ofList vs) s q, w') := by
    unfold restrict
    rw [perform_bind_ok (perform_schema hw.current), perform_bind_ok (perform_rootKind hroot),
      perform_bind, hperform]
    cases s.outcomes w.store.complement r.claims .query (s.governedTypes q) with
    | error problem => rfl
    | ok vs => rfl
  unfold authorizeQuery
  rw [perform_bind, perform_counted_cases, hrestrict]
  cases s.outcomes w.store.complement r.claims .query (s.governedTypes q) with
  | error problem =>
      exact ⟨_, rfl, halike.trans ⟨w'.memo, _, rfl⟩, ⟨hw'.current, hw'.faithful⟩⟩
  | ok vs => exact ⟨_, rfl, halike.trans ⟨w'.memo, _, rfl⟩, ⟨hw'.current, hw'.faithful⟩⟩

/-- A query for checking a password is authorized by password outcomes at its root and by
query outcomes below. -/
theorem perform_authorizePasswordCheck (hw : Ready s r.claims w)
    (hroot : s.find? q.typeName = some info) :
    (w.perform (authorizePasswordCheck r q)).1 =
      (s.outcomes w.store.complement r.claims .query (s.governedTypes q)).bind fun vs =>
        (s.outcomes w.store.complement r.claims .password
          (Names.sorted (s.positionTypes q.typeName))).map fun root =>
            Visibilities.restrict (Keyed.ofList vs) (Keyed.ofList root) s q := by
  obtain ⟨w', hperform, halike, hw'⟩ := perform_visibilities hw .query (s.governedTypes q)
  obtain ⟨w'', hpassword, _, _⟩ :=
    perform_visibilities hw' .password (Names.sorted (s.positionTypes q.typeName))
  rw [halike.store_eq] at hpassword
  unfold authorizePasswordCheck
  rw [perform_counted]
  unfold restrictPasswordCheck
  rw [perform_bind_ok (perform_schema hw.current), perform_bind_ok (perform_rootKind hroot),
    perform_bind, hperform]
  cases s.outcomes w.store.complement r.claims .query (s.governedTypes q) with
  | error problem => rfl
  | ok vs =>
      simp only
      rw [perform_bind, hpassword]
      cases s.outcomes w.store.complement r.claims .password
          (Names.sorted (s.positionTypes q.typeName)) with
      | error problem => rfl
      | ok root => rfl

end Warden

end GraphWarden
