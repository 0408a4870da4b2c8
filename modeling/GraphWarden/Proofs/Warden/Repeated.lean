import GraphWarden.Proofs.Position.Repeated
import GraphWarden.Proofs.Warden.Outcome

/-!
# Authorizing a query twice

A query that was authorized can be authorized again, and the outcome of every type is the
same as before.  The result is the same query as long as what the claims may see of its types
is settled (`authorize_again`).

Rules are put together without repeats when a schema is compiled.  But a rule may name several
variables, and when the claims give two of them the same value, two parts that were different
become one and the same.  Such a filter is not settled, and **just then there are queries that
come out differently the second time** (`authorized_twice_iff`): the first time the filter is
taken as it is, the second time it is put together with itself and loses its repeats.
-/

namespace GraphWarden

/-- What the claims may see of every type that stands for itself is settled. -/
def Schema.Settles (s : Schema) (complement : Bool) (claims : Claims) : Prop :=
  ∀ t f, s.positionTypes t = [t] → s.outcome complement claims .query t = .ok (.restricted f) →
    f.Settled

namespace Warden

variable {w w₁ : Warden} {s : Schema} {r : Request} {q q₁ : Query} {info : TypeInfo}

/-- **Authorizing a query again changes nothing**, when what the claims may see of its types
is settled. -/
theorem authorize_again (hw : Ready s r.claims w) (hroot : s.find? q.typeName = some info)
    (h : w.perform (authorizeQuery r q) = (.ok q₁, w₁))
    (hsettled : ∀ t ∈ s.governedTypes q, s.positionTypes t = [t] → ∀ f,
      s.outcome w.store.complement r.claims .query t = .ok (.restricted f) → f.Settled) :
    (w₁.perform (authorizeQuery r q₁)).1 = .ok q₁ := by
  obtain ⟨w', hfirst, halike, hw'⟩ := perform_authorizeQuery hw hroot
  rw [h] at hfirst
  obtain ⟨hresult, rfl⟩ := Prod.mk.inj hfirst
  obtain ⟨vs, hvs, rfl⟩ := exists_of_map_eq_ok hresult.symm
  let known : Visibilities := Keyed.ofList vs
  have hroot₁ : s.find? (known.restrict known s q).typeName = some info := hroot
  obtain ⟨w₂, hsecond, _, _⟩ := perform_authorizeQuery hw' hroot₁
  have htypes : s.governedTypes (known.restrict known s q) = s.governedTypes q :=
    Visibilities.governedTypes_restrict known
  have hsettle : known.Settle s (s.governedTypes q) := by
    intro t ht hself f hf
    obtain ⟨out, hout, houtcome⟩ := Schema.find?_outcomes hvs ht
    have hrestricted : out = .restricted f := Option.some.inj (hout.symm.trans hf)
    exact hsettled t ht hself f (hrestricted ▸ houtcome)
  rw [hsecond, halike.store_eq, htypes, hvs]
  exact congrArg Except.ok (Visibilities.restrict_again hsettle)

/-- A type of whose nodes some may be seen is a type of the schema. -/
theorem find?_of_restricted (hs : s.Sound) {complement : Bool} {t : String} {f : Filter}
    (h : s.outcome complement r.claims .query t = .ok (.restricted f)) :
    ∃ info, s.find? t = some info := by
  unfold Schema.outcome at h
  split at h
  · cases h
  · cases hrule : s.governingRule? t .query with
    | none =>
        rw [hrule] at h
        cases h
    | some rule =>
        rw [Schema.governingRule?_query] at hrule
        exact hs.rules_known t .query rule hrule

/-- To a query without selections on such a type the filter is added that says what may be
seen of the type. -/
theorem perform_authorize_plain (hw : Ready s r.claims w) {t : String} {f : Filter}
    (hroot : s.find? t = some info) (hself : s.positionTypes t = [t])
    (houtcome : s.outcome w.store.complement r.claims .query t = .ok (.restricted f))
    (existing : Option Filter) :
    ∃ w₁, w.perform (authorizeQuery r { typeName := t, filter := existing }) =
      (.ok { typeName := t, filter := some (Filter.intersect existing f) }, w₁) ∧
      w.Alike w₁ ∧ Ready s r.claims w₁ := by
  let q : Query := { typeName := t, filter := existing }
  obtain ⟨w₁, hperform, halike, hw₁⟩ := perform_authorizeQuery (q := q) hw hroot
  refine ⟨w₁, hperform.trans ?_, halike, hw₁⟩
  have htypes : s.governedTypes q = [t] := by
    simp [q, Schema.governedTypes, hself, Schema.typesBelow, Names.sorted, Names.insert]
  have hvs : s.outcomes w.store.complement r.claims .query [t] = .ok [(t, .restricted f)] := by
    simp [Schema.outcomes, houtcome, bind, Except.bind]
  have hfind : (Keyed.ofList [(t, Visibility.restricted f)]).find? t = some (.restricted f) := by
    simp [Keyed.ofList, Keyed.find?, Entries.ofList, Entries.put, Entries.find?]
  rw [htypes, hvs]
  simp [Except.map, q, Visibilities.restrict, Visibilities.restrictAll,
    Visibilities.restrictFilter, Visibilities.positionFilter, hself, hfind, Visibility.toFilter]

/-- **Authorizing a query twice is the same as once for all queries exactly if what the claims
may see of every type that stands for itself is settled.** -/
theorem authorized_twice_iff (hcurrent : w.catalog.current = some s) (haccepted : s.Accepted)
    (hfaithful : w.Faithful r.claims) :
    (∀ q q₁ w₁, (s.find? q.typeName).isSome = true →
      w.perform (authorizeQuery r q) = (.ok q₁, w₁) →
        ∃ q₂, (w₁.perform (authorizeQuery r q₁)).1 = .ok q₂ ∧ q₂.same q₁ = true) ↔
      s.Settles w.store.complement r.claims := by
  have hw : Ready s r.claims w := ⟨hcurrent, fun _ => hfaithful⟩
  constructor
  · intro hsame t f hself houtcome
    refine Decidable.byContradiction fun hunsettled => ?_
    obtain ⟨existing, hdiffers⟩ := Filter.intersect_again_ne hunsettled
    obtain ⟨info, hroot⟩ := find?_of_restricted haccepted.sound houtcome
    obtain ⟨w₁, hfirst, halike, hw₁⟩ := perform_authorize_plain hw hroot hself houtcome existing
    rw [← halike.store_eq] at houtcome
    obtain ⟨w₂, hsecond, _, _⟩ := perform_authorize_plain hw₁ hroot hself houtcome
      (some (Filter.intersect existing f))
    obtain ⟨q₂, hq₂, hsame⟩ := hsame _ _ w₁ (by simp [hroot]) hfirst
    rw [hsecond] at hq₂
    cases hq₂
    have hother : Filter.sameIfAny
        (some (Filter.intersect (some (Filter.intersect existing f)) f))
        (some (Filter.intersect existing f)) = false := hdiffers
    rw [Query.not_same_of_filter hother] at hsame
    exact absurd hsame (by simp)
  · intro hsettles q q₁ w₁ hroot hfirst
    obtain ⟨info, hroot⟩ := Option.isSome_iff_exists.1 hroot
    exact ⟨q₁, authorize_again hw hroot hfirst fun t _ hself f => hsettles t f hself,
      q₁.same_refl⟩

/-- A rule that asks for two owners of a note. -/
def sharedNotes : SchemaDefinition where
  types := [TypeDefinition.withRule { name := "Note", kind := .object } .query
    (.rule ("query($ME:ID,$YOU:ID)\x7bqueryNote(filter:\x7band:[" ++
      "\x7bowner:\x7beq:$ME\x7d\x7d,\x7bowner:\x7beq:$YOU\x7d\x7d]\x7d)\x7d"))]

/-- A warden of notes that are shared. -/
def register : Warden where
  catalog := (Catalog.empty.load sharedNotes).2
  store := { graph := .empty }
  memo := some { capacity := 4, lifetime := .endless }

/-- Somebody who claims the notes of two people. -/
def sharing (me you : String) : Request where
  claims := (Claims.none.claiming "ME" (.text me)).claiming "YOU" (.text you)

/-- When both people are the same, a query comes out differently the second time.  The first time
its filter has two equal parts, and the second time one. -/
theorem register_authorizes_otherwise :
    ∃ s q₁ w₁ q₂, register.catalog.current = some s ∧ s.Accepted ∧
      (s.find? "Note").isSome = true ∧
      register.perform (authorizeQuery (sharing "amy" "amy") { typeName := "Note" }) =
        (.ok q₁, w₁) ∧
      (w₁.perform (authorizeQuery (sharing "amy" "amy") q₁)).1 = .ok q₂ ∧
      q₂.same q₁ = false := by
  have hdiffers :
      (register.catalog.current.any fun s => (s.find? "Note").isSome &&
        match register.perform (authorizeQuery (sharing "amy" "amy") { typeName := "Note" }) with
        | (.ok q₁, w₁) =>
          match (w₁.perform (authorizeQuery (sharing "amy" "amy") q₁)).1 with
          | .ok q₂ => !q₂.same q₁
          | .error _ => false
        | (.error _, _) => false) = true := by
    decide +kernel
  obtain ⟨s, hs, hdiffers⟩ := (Option.any_eq_true _ _).1 hdiffers
  obtain ⟨hfind, hdiffers⟩ := (Bool.and_eq_true _ _).mp hdiffers
  have hload : (Catalog.empty.load sharedNotes).2.current = some s := by
    simpa only [register] using hs
  have haccepted : s.Accepted := Catalog.accepted_of_load hload
  split at hdiffers
  · next q₁ w₁ hfirst =>
    split at hdiffers
    · next q₂ hsecond =>
      exact ⟨s, q₁, w₁, q₂, hs, haccepted, hfind, hfirst, hsecond, by simpa using hdiffers⟩
    · simp at hdiffers
  · simp at hdiffers

/-- When the two people are different, every query comes out the same the second time. -/
theorem register_authorizes_once :
    ∃ s, register.catalog.current = some s ∧
      ∀ q q₁ w₁, (s.find? q.typeName).isSome = true →
        register.perform (authorizeQuery (sharing "amy" "ben") q) = (.ok q₁, w₁) →
          ∃ q₂, (w₁.perform (authorizeQuery (sharing "amy" "ben") q₁)).1 = .ok q₂ ∧
            q₂.same q₁ = true := by
  have hnotes : (register.catalog.current.any fun s =>
      decide (s.types.entries.map Prod.fst = ["Note"]) &&
        match s.outcome true (sharing "amy" "ben").claims .query "Note" with
        | .ok (.restricted f) => decide f.Settled
        | _ => true) = true := by
    decide +kernel
  obtain ⟨s, hs, hnotes⟩ := (Option.any_eq_true _ _).1 hnotes
  obtain ⟨hnames, hsettled⟩ := (Bool.and_eq_true _ _).mp hnotes
  have hload : (Catalog.empty.load sharedNotes).2.current = some s := by
    simpa only [register] using hs
  have haccepted : s.Accepted := Catalog.accepted_of_load hload
  refine ⟨s, hs, (authorized_twice_iff hs haccepted (faithful_of_nothing fun m hm => by
    rw [← Option.some.inj hm])).2 fun t f _ houtcome => ?_⟩
  obtain ⟨info, hfind⟩ := find?_of_restricted haccepted.sound houtcome
  have hmem : t ∈ s.types.entries.map Prod.fst :=
    List.mem_map_of_mem (Keyed.find?_eq_some_iff.1 hfind)
  rw [of_decide_eq_true hnames, List.mem_singleton] at hmem
  subst hmem
  have houtcome' : s.outcome true (sharing "amy" "ben").claims .query "Note" =
      .ok (.restricted f) := houtcome
  simpa [houtcome'] using hsettled

end Warden

end GraphWarden
