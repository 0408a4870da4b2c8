import Mathlib.Data.List.Forall2
import GraphWarden.Proofs.Position.Everywhere
import GraphWarden.Proofs.Warden.Outcome

/-!
# Edges to unknown types

A query on a type that the schema does not have is refused, but its edges may lead to such
types.  An unknown type has no rules, so that its outcome is that of a type without rules:
nothing for claims that are refused, and otherwise everything (`Schema.ungoverned`).

That is so for every warden, whatever it remembers (`gives_visibilities`), since only outcomes of
rules are remembered.  So **an edge to an unknown type is shut for claims that are refused, and
left as it was for all others** (`unknown_edges`): it carries nothing just when the query itself
asked for nothing there.
-/

namespace GraphWarden

/-- What may be seen of a type without rules. -/
def Schema.ungoverned (s : Schema) (claims : Claims) : Visibility :=
  if s.refuses claims then .denied else .unrestricted

/-- The selection is an edge to a type that the schema does not have. -/
def Selection.LeadsOutOf (x : Selection) (s : Schema) : Prop :=
  ∃ t, x.targetType = some t ∧ s.find? t = none

/-- A type that the schema does not have is governed by no query rule, since a sound schema has
rules of known types only. -/
theorem Schema.Sound.ungoverned_of_unknown {s : Schema} (hs : s.Sound) {t : String}
    (hunknown : s.find? t = none) : s.governingRule? t .query = none := by
  rw [Schema.governingRule?_query, ← Option.not_isSome_iff_eq_none, Option.isSome_iff_exists]
  rintro ⟨rule, hrule⟩
  obtain ⟨info, hinfo⟩ := hs.rules_known t .query rule hrule
  simp [hunknown] at hinfo

namespace Warden

variable {α β : Type} {w w' : Warden} {s : Schema} {r : Request} {q : Query} {info : TypeInfo}

/-! ### Acts that give something -/

/-- The act answers with something of which `P` holds, and changes at most what is remembered
and counted; or it fails because a filter cannot be negated. -/
def Gives (w : Warden) (act : Act α) (P : α → Prop) : Prop :=
  ∃ result w', w.perform act = (result, w') ∧ w.Alike w' ∧
    ((∃ x, result = .ok x ∧ P x) ∨ (w.store.complement = false ∧ result = .error .cannotNegate))

theorem gives_pure {P : α → Prop} {x : α} (h : P x) : w.Gives (pure x) P :=
  ⟨_, w, rfl, alike_refl w, Or.inl ⟨x, rfl, h⟩⟩

/-- An act that answers gives its answer when it changed memory and counts only. -/
theorem gives_of_ok {act : Act α} {P : α → Prop} {x : α} (h : w.perform act = (.ok x, w'))
    (halike : w.Alike w') (hx : P x) : w.Gives act P :=
  ⟨_, w', h, halike, Or.inl ⟨x, rfl, hx⟩⟩

/-- Looking at the warden first gives what comes after, with the warden as it is. -/
theorem gives_get {next : Warden → Act α} {P : α → Prop} (h : w.Gives (next w) P) :
    w.Gives (get >>= next) P := by
  unfold Gives
  rw [perform_bind_ok perform_get]
  exact h

/-- One act after another: what the second gives it may give from every warden that is like the
first one, because the first act may have changed memory and counts on the way. -/
theorem Gives.bind {act : Act α} {next : α → Act β} {P : α → Prop} {Q : β → Prop}
    (h : w.Gives act P) (hnext : ∀ x w', w.Alike w' → P x → w'.Gives (next x) Q) :
    w.Gives (act >>= next) Q := by
  obtain ⟨result, w', hperform, halike, ⟨x, rfl, hx⟩ | ⟨hlacks, rfl⟩⟩ := h
  · obtain ⟨result', w'', hperform', halike', hgives⟩ := hnext x w' halike hx
    refine ⟨result', w'', ?_, halike.trans halike', halike.store_eq ▸ hgives⟩
    rw [perform_bind_ok hperform, hperform']
  · exact ⟨_, w', by rw [perform_bind, hperform], halike, Or.inr ⟨hlacks, rfl⟩⟩

/-- Counting an act changes nothing about what it gives. -/
theorem Gives.counted {act : Act α} {P : α → Prop} (h : w.Gives act P) :
    w.Gives (counted act) P := by
  obtain ⟨result, w', hperform, halike, hgives⟩ := h
  cases result with
  | ok x => exact ⟨_, w', by rw [perform_counted_cases, hperform], halike, hgives⟩
  | error problem =>
      refine ⟨_, (w'.perform (count Meter.countError)).2, ?_, ?_, hgives⟩
      · rw [perform_counted_cases, hperform]
      · exact halike.trans ⟨w'.memo, w'.meter.map Meter.countError, rfl⟩

/-! ### What is given -/

/-- Of a type something may be seen, and without rules what they do not restrict. -/
theorem gives_visibility (hs : s.Sound) (typeName : String) (op : Operation) :
    w.Gives (visibility s r typeName op) fun v =>
      s.governingRule? typeName op = none → v = s.ungoverned r.claims := by
  unfold visibility Schema.ungoverned
  split
  · exact gives_pure fun _ => rfl
  · cases hrule : s.governingRule? typeName op with
    | none => exact gives_pure fun _ => rfl
    | some rule =>
        simp only [reduceCtorEq, false_implies]
        obtain ⟨found, w₁, hperform, halike, _⟩ :=
          perform_lookUp w ⟨s.generation, typeName, op, r.claims⟩
        refine (gives_of_ok (P := fun _ => True) hperform halike trivial).bind ?_
        intro found w₁ _ _
        cases found with
        | some v => exact gives_pure trivial
        | none =>
            refine gives_get ?_
            have hdefinite : Rule.Definite w₁.store.complement
                (rule.visibility w₁.store.complement r.claims) :=
              Rule.Negates.definite rule (hs.governingRule_negates hrule)
            rcases hdefinite with ⟨v, hv⟩ | ⟨hlacks, herror⟩
            · rw [hv]
              exact gives_of_ok rfl ⟨_, w₁.meter, rfl⟩ trivial
            · rw [herror]
              exact ⟨_, w₁, rfl, alike_refl w₁, Or.inr ⟨hlacks, rfl⟩⟩

/-- The outcomes of some types come with their types and in their order, and a type without a rule
gets the outcome of types without rules, **whatever the warden remembers**. -/
theorem gives_visibilities (hs : s.Sound) (op : Operation) (types : List String) : ∀ w : Warden,
    w.Gives (visibilities s r op types) fun vs => vs.map Prod.fst = types ∧
      ∀ v ∈ vs, s.governingRule? v.1 op = none → v.2 = s.ungoverned r.claims := by
  induction types with
  | nil =>
      intro w
      exact gives_pure (by simp)
  | cons t types ih =>
      intro w
      refine (gives_visibility hs t op).bind fun v w₁ _ hv => ?_
      refine (ih w₁).bind fun vs w₂ _ hvs => gives_pure ?_
      obtain ⟨hnames, hall⟩ := hvs
      exact ⟨by simp [hnames], List.forall_mem_cons.2 ⟨hv, hall⟩⟩

/-- The query was restricted, with what is known to be visible of each of its types without
rules. -/
def Restricts (s : Schema) (claims : Claims) (q q₁ : Query) : Prop :=
  ∃ vs : Visibilities, q₁ = vs.restrict vs s q ∧
    ∀ t ∈ s.governedTypes q, s.governingRule? t .query = none →
      vs.find? t = some (s.ungoverned claims)

/-- A query is restricted as `Restricts` says, edges to unknown types included. -/
theorem gives_restrict (hcurrent : w.catalog.current = some s) (hs : s.Sound)
    (hroot : s.find? q.typeName = some info) :
    w.Gives (restrict r q) (Restricts s r.claims q) := by
  have hschema : w.Gives schema fun s' => s = s' :=
    gives_of_ok (perform_schema hcurrent) (alike_refl w) rfl
  refine hschema.bind fun s' w₁ _ hs' => ?_
  subst hs'
  have hkind : w₁.Gives (rootKind s q.typeName) fun _ => True :=
    gives_of_ok (perform_rootKind hroot) (alike_refl w₁) trivial
  refine hkind.bind fun _ w₂ _ _ => (gives_visibilities hs .query _ w₂).bind ?_
  rintro vs w₃ _ ⟨hnames, hall⟩
  refine gives_pure ⟨Keyed.ofList vs, rfl, fun t ht hrule => ?_⟩
  rw [← hnames] at ht
  obtain ⟨v, hv, rfl⟩ := List.mem_map.1 ht
  obtain ⟨out, hout⟩ := Option.isSome_iff_exists.1 (Keyed.isSome_find?_ofList hv)
  have hknown : out = s.ungoverned r.claims :=
    hall (v.1, out) (Keyed.mem_of_find?_ofList hout) hrule
  rw [hout, hknown]

/-- A query that is authorized is restricted as `Restricts` says, since nothing else is done to it.
-/
theorem gives_authorizeQuery (hcurrent : w.catalog.current = some s) (hs : s.Sound)
    (hroot : s.find? q.typeName = some info) :
    w.Gives (authorizeQuery r q) (Restricts s r.claims q) := by
  refine (gives_restrict hcurrent hs hroot).counted.bind fun q₁ w₁ _ hq₁ => ?_
  exact gives_of_ok rfl ⟨w₁.memo, _, rfl⟩ hq₁

/-- Restricting leaves an edge where it leads to. -/
theorem leadsOutOf_restrictOne {vs : Visibilities} {x : Selection} :
    (vs.restrictOne s x).LeadsOutOf s ↔ x.LeadsOutOf s := by
  unfold Selection.LeadsOutOf
  rw [(Visibilities.same_restrictOne vs s x).2.2]

/-- What the outcomes of a query add at its edges to unknown types. -/
theorem filter_of_leadsOutOf (hs : s.Sound) {vs : Visibilities} {claims : Claims}
    (hknown : ∀ t ∈ s.governedTypes q, s.governingRule? t .query = none →
      vs.find? t = some (s.ungoverned claims))
    {x : Selection} (hx : x ∈ q.everywhere) (hout : x.LeadsOutOf s) :
    (vs.restrictOne s x).filter = if s.refuses claims then some .nothing else x.filter := by
  obtain ⟨t, ht, hunknown⟩ := hout
  have hgoverned : t ∈ s.governedTypes q := Schema.governs_of_mem_everywhere hx ht
    (by simp [Schema.positionTypes_of_unknown hunknown])
  have hfind := hknown t hgoverned (hs.ungoverned_of_unknown hunknown)
  obtain ⟨hopen, hshut⟩ := Visibilities.filter_of_unknown vs ht hunknown
  unfold Schema.ungoverned at hfind
  split
  · next hrefused => exact hshut (by rw [hfind, if_pos hrefused])
  · next hheard => exact hopen (by rw [hfind, if_neg hheard])

/-- **Edges to unknown types are left as they are.**  An authorized query has the selections of
the query in their places.  At each edge to a type that the schema does not have stands the
filter that the query brought along, unless the claims are refused; then nothing passes.  So all
these edges are shut exactly if the claims are refused, or the query asked for nothing there. -/
theorem unknown_edges (hcurrent : w.catalog.current = some s) (haccepted : s.Accepted)
    (hroot : (s.find? q.typeName).isSome = true) :
    (∃ q₁, (w.perform (authorizeQuery r q)).1 = .ok q₁ ∧
      List.Forall₂ (fun x x₁ : Selection =>
          x₁.name = x.name ∧ x₁.label = x.label ∧ x₁.targetType = x.targetType ∧
          (x.LeadsOutOf s →
            x₁.filter = if s.refuses r.claims then some .nothing else x.filter))
        q.everywhere q₁.everywhere ∧
      ((∀ x₁ ∈ q₁.everywhere, x₁.LeadsOutOf s → x₁.filter = some .nothing) ↔
        s.refuses r.claims = true ∨
          ∀ x ∈ q.everywhere, x.LeadsOutOf s → x.filter = some .nothing)) ∨
    (w.store.complement = false ∧
      (w.perform (authorizeQuery r q)).1 = .error .cannotNegate) := by
  obtain ⟨info, hroot⟩ := Option.isSome_iff_exists.1 hroot
  have hs := haccepted.sound
  obtain ⟨result, w₁, hperform, _, ⟨q₁, rfl, vs, rfl, hknown⟩ | hlacks⟩ :=
    gives_authorizeQuery (r := r) hcurrent hs hroot
  · left
    have hfilter : ∀ x ∈ q.everywhere, x.LeadsOutOf s → (vs.restrictOne s x).filter =
        if s.refuses r.claims then some .nothing else x.filter :=
      fun x hx hout => filter_of_leadsOutOf hs hknown hx hout
    refine ⟨_, congrArg Prod.fst hperform, ?_, ?_⟩
    · rw [Visibilities.everywhere_restrict, List.forall₂_map_right_iff, List.forall₂_same]
      intro x hx
      obtain ⟨hname, hlabel, htarget⟩ := Visibilities.same_restrictOne vs s x
      exact ⟨hname, hlabel, htarget, hfilter x hx⟩
    · rw [Visibilities.everywhere_restrict, List.forall_mem_map]
      simp only [leadsOutOf_restrictOne]
      constructor
      · intro hshut
        by_cases hrefused : s.refuses r.claims = true
        · exact Or.inl hrefused
        · right
          intro x hx hout
          have hkept := hfilter x hx hout
          rw [if_neg hrefused] at hkept
          exact hkept.symm.trans (hshut x hx hout)
      · rintro (hrefused | hasked) x hx hout
        · rw [hfilter x hx hout, if_pos hrefused]
        · rw [hfilter x hx hout, hasked x hx hout, ite_self]
  · exact Or.inr ⟨hlacks.1, (congrArg Prod.fst hperform).trans hlacks.2⟩

/-- Notes, and secrets that administrators may see. -/
def keptNotes : SchemaDefinition where
  types := [{ name := "Note", kind := .object },
    TypeDefinition.withRule { name := "Secret", kind := .object } .query
      (.rule "\x7b $ROLE: \x7b eq: \"ADMIN\" \x7d \x7d")]

/-- A warden of notes and secrets. -/
def attic : Warden where
  catalog := (Catalog.empty.load keptNotes).2
  store := { graph := .empty }

/-- What the notes keep in vaults, which are no type of the schema. -/
def keptInVaults (filter : Option Filter) : Query where
  typeName := "Note"
  selections := [⟨"kept", none, some "Vault", filter, [.scalar "code"]⟩]

/-- A query that asks for nothing in the vaults is authorized with all of them shut. -/
theorem attic_keeps_shut :
    ∃ s q₁, attic.catalog.current = some s ∧ s.Accepted ∧
      (attic.perform (authorizeQuery {} (keptInVaults (some .nothing)))).1 = .ok q₁ ∧
      ∀ x ∈ q₁.everywhere, x.LeadsOutOf s → x.filter = some .nothing := by
  have hnote : (attic.catalog.current.any fun s => (s.find? "Note").isSome) = true := by
    decide +kernel
  obtain ⟨s, hs, hnote⟩ := (Option.any_eq_true _ _).1 hnote
  have hload : (Catalog.empty.load keptNotes).2.current = some s := hs
  have haccepted : s.Accepted := Catalog.accepted_of_load hload
  have hasked : ∀ x ∈ (keptInVaults (some .nothing)).everywhere, x.LeadsOutOf s →
      x.filter = some .nothing := by
    rintro x hx ⟨t, ht, _⟩
    rcases List.mem_cons.1 hx with rfl | hx
    · rfl
    · rcases List.mem_cons.1 hx with rfl | hx
      · simp at ht
      · simp [Selection.everyOf] at hx
  rcases unknown_edges (w := attic) (r := {}) (q := keptInVaults (some .nothing)) hs haccepted
    hnote with ⟨q₁, hq₁, _, hshut⟩ | ⟨hlacks, _⟩
  · exact ⟨s, q₁, hs, haccepted, hq₁, hshut.2 (Or.inr hasked)⟩
  · exact absurd hlacks (by decide)

/-- A query that asks for everything in the vaults is authorized as it is. -/
theorem attic_leaves_vaults_open :
    ∃ s q₁ x, attic.catalog.current = some s ∧ s.Accepted ∧ (s.find? "Note").isSome = true ∧
      (attic.perform (authorizeQuery {} (keptInVaults none))).1 = .ok q₁ ∧
      x ∈ q₁.everywhere ∧ x.targetType = some "Vault" ∧ s.find? "Vault" = none ∧
      x.filter = none := by
  have hopen : (attic.catalog.current.any fun s =>
      (s.find? "Note").isSome && (s.find? "Vault").isNone) = true := by
    decide +kernel
  have hquery : ((attic.perform (authorizeQuery {} (keptInVaults none))).1.toOption.any fun q₁ =>
      q₁.everywhere.any fun x => x.targetType = some "Vault" && x.filter.isNone) = true := by
    decide +kernel
  obtain ⟨s, hs, hboth⟩ := (Option.any_eq_true _ _).1 hopen
  obtain ⟨hnote, hvault⟩ := (Bool.and_eq_true _ _).mp hboth
  obtain ⟨q₁, hq₁, hany⟩ := (Option.any_eq_true _ _).1 hquery
  obtain ⟨x, hx, hfree⟩ := List.any_eq_true.1 hany
  obtain ⟨htarget, hfilter⟩ := (Bool.and_eq_true _ _).mp hfree
  have hload : (Catalog.empty.load keptNotes).2.current = some s := hs
  exact ⟨s, q₁, x, hs, Catalog.accepted_of_load hload, hnote,
    toOption_eq_some_iff.1 hq₁, hx, of_decide_eq_true htarget, Option.isNone_iff_eq_none.1 hvault,
    Option.isNone_iff_eq_none.1 hfilter⟩

end Warden

end GraphWarden
