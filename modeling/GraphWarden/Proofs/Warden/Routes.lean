import GraphWarden.Proofs.Warden.Query

/-!
# Two ways to an answer

Whoever has a query authorized may run the query that comes back on the store; whoever has it
answered leaves that to the warden, which splits a query on an interface by the object types
below it, restricts and runs the parts, and puts their records together.

**Both ways lead to the same records** (`routes_agree`).  A query that cannot be authorized is
not answered either, and for the same reason; when records come back both ways they are the
same list; and on a store that works and can evaluate the filters they do come back.

What is known of the types decides which nodes may be seen on either way (`exists_sees`),
also when the claims are refused: then no node is.  Unions are left out, because a store knows
no union and finds nothing under its name.
-/

namespace GraphWarden

namespace Schema

variable {s : Schema} {complement : Bool} {claims : Claims} {q : Query}
  {vs : List (String × Visibility)}

/-- The outcomes of a query's types tell which nodes may be seen; and so they do to a store
that can evaluate the rules. -/
theorem exists_sees (g : Graph)
    (hvs : s.outcomes complement claims .query (s.governedTypes q) = .ok vs) :
    ∃ sees : Node → Bool,
      Visibilities.TellsTypesOf (Keyed.ofList vs) s g (Visibilities.plainly g) sees q ∧
      (s.Evaluable g claims q →
        Visibilities.TellsTypesOf (Keyed.ofList vs) s g (Filter.verdict g) sees q) := by
  cases hrefuses : s.refuses claims with
  | false =>
      have hknows := knows_of_outcomes hrefuses hvs
      exact ⟨s.sees g claims, hknows.tellsTypes, fun hevaluable =>
        hknows.tellsTypes_verdict hevaluable⟩
  | true =>
      have hdenied : ∀ v : Node → Filter → Option Bool,
          Visibilities.TellsTypesOf (Keyed.ofList vs) s g v (fun _ => false) q := by
        intro v t ht
        obtain ⟨out, hout, houtcome⟩ := find?_outcomes hvs ht
        unfold outcome at houtcome
        rw [hrefuses] at houtcome
        cases houtcome
        exact ⟨.denied, hout, fun _ _ _ => rfl⟩
      exact ⟨fun _ => false, hdenied _, fun _ => hdenied _⟩

end Schema

namespace Warden

variable {w : Warden} {s : Schema} {r : Request} {q : Query} {info : TypeInfo}

/-- **Running the query that was authorized gives the records that the warden answers with**,
on object types and interfaces, limits included. -/
theorem routes_agree (hcurrent : w.catalog.current = some s) (haccepted : s.Accepted)
    (hfits : w.store.graph.Fits s) (hfaithful : w.Faithful r.claims)
    (hroot : s.find? q.typeName = some info) (hkind : info.kind ≠ .union)
    (hfirst : q.first ≠ some 0) :
    (∀ problem, (w.perform (authorizeQuery r q)).1 = .error problem →
      (w.perform (query r q)).1 = .error problem) ∧
    ∀ q₁, (w.perform (authorizeQuery r q)).1 = .ok q₁ →
      (∀ records answer, w.store.execute q₁ = .ok records →
        (w.perform (query r q)).1 = .ok answer → answer = records) ∧
      (w.store.offline = false → w.line.faults = [] → r.isLive w.line.now = true →
        s.Evaluable w.store.graph r.claims q →
        ∃ records, w.store.execute q₁ = .ok records ∧
          (w.perform (query r q)).1 = .ok records) := by
  have hs := haccepted.sound
  have hw : Ready s r.claims w := ⟨hcurrent, fun _ => hfaithful⟩
  obtain ⟨w', hauthorize, _, _⟩ := perform_authorizeQuery hw hroot
  have hquery := perform_query hw hroot
  rw [hauthorize, hquery]
  cases hvs : s.outcomes w.store.complement r.claims .query (s.governedTypes q) with
  | error problem => exact ⟨fun _ h => (by cases h; rfl), fun q₁ h => by cases h⟩
  | ok vs =>
      refine ⟨fun problem h => (by cases h), fun q₁ hq₁ => ?_⟩
      cases hq₁
      obtain ⟨sees, htells, hverdict⟩ := Schema.exists_sees w.store.graph hvs
      let known : Visibilities := Keyed.ofList vs
      have hselected : w.store.graph.selected (known.restrict known s q) =
          s.answerSeeing w.store.graph sees q :=
        Visibilities.selected_restrict_whole hs hfits htells hroot hkind
      refine ⟨fun records answer hrecords hanswer => ?_,
        fun honline hfaults hlive hevaluable => ?_⟩
      · have hends := (Client.gives_read (c := ⟨w.store, w.policy, r⟩) (t := w.line.now) hs hfits
          htells hroot hfirst).run
        simp only [Except.bind] at hanswer
        rw [hanswer] at hends
        have hown : records = w.store.graph.selected (known.restrict known s q) :=
          Graph.execute_eq (Store.of_online hrecords)
        exact (hends : answer = _).trans (hselected.symm.trans hown.symm)
      · obtain ⟨answer, rfl, hanswer⟩ := (Client.prompt_read (c := ⟨w.store, w.policy, r⟩) hs hfits
          htells (hverdict hevaluable) hroot hfirst honline hlive hevaluable.root
          hevaluable.below).run hfaults
        obtain ⟨records, hrecords⟩ := Visibilities.execute_restrict_whole_isOk hs hfits
          (hverdict hevaluable) hevaluable.root hevaluable.below
        have hown : records = s.answerSeeing w.store.graph sees q :=
          (Graph.execute_eq hrecords).trans hselected
        refine ⟨records, (Store.online_eq honline).trans hrecords, ?_⟩
        rw [hown]
        exact hanswer

/-- Both ways lead to the public note and the task. -/
theorem board_routes_agree :
    ∃ s q₁ records, board.catalog.current = some s ∧
      (board.perform (authorizeQuery {} latest)).1 = .ok q₁ ∧
      board.store.execute q₁ = .ok records ∧
      (board.perform (query {} latest)).1 = .ok records ∧
      records.map Record.id = ["n1", "t1"] := by
  have hfacts : (board.catalog.current.any fun s =>
      (s.find? latest.typeName).any fun info => info.kind = .interface) = true := by
    decide +kernel
  have hids : ((board.perform (query {} latest)).1.map fun (records : List Record) =>
      records.map Record.id).toOption = some ["n1", "t1"] := by
    decide +kernel
  have hok : (board.perform (authorizeQuery {} latest)).1.isOk = true := by decide +kernel
  obtain ⟨s, hs, hfacts⟩ := (Option.any_eq_true _ _).1 hfacts
  obtain ⟨info, hinfo, hkind⟩ := (Option.any_eq_true _ _).1 hfacts
  have hload : (Catalog.empty.load entryTypes).2.current = some s := by
    simpa only [board] using hs
  have haccepted : s.Accepted := Catalog.accepted_of_load hload
  obtain ⟨q₁, hauthorized⟩ := exists_of_isOk hok
  have hagree := routes_agree (w := board) (r := {}) (q := latest) hs haccepted
    (board_fits hs) (faithful_of_nothing fun m hm => by rw [← Option.some.inj hm]) hinfo
    (by simp [of_decide_eq_true hkind]) (by decide)
  obtain ⟨records, hexecuted, hanswered⟩ :=
    (hagree.2 q₁ hauthorized).2 rfl rfl rfl (board_evaluable hs)
  rw [hanswered] at hids
  exact ⟨s, q₁, records, hs, hauthorized, hexecuted, hanswered, Option.some.inj hids⟩

end Warden

end GraphWarden
