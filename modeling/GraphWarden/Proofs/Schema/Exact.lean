import GraphWarden.Proofs.Schema.Acyclic

/-!
# Hierarchies, exactly

Peeling counts in natural numbers, where one less than zero is zero.  `Kinship.peel?` is peeling
with an eye on this: it gives up when a count is to fall below zero, and when the turns are used
up while something is queued.  **It never gives up** (`peel?_peeled`), because every type waits
for each listing that it is let go for, and every type is queued once.

`hierarchy_exact` says what a hierarchy is in terms of its definition: which lists of types are
accepted, which interfaces a type implements, and which object types implement an interface.
-/

namespace GraphWarden

namespace Kinship

variable {kin : Kinship} {p : Peeling} {done : List String}

namespace Peeling

/-- Let a type wait for one name fewer; none when it waits for none, so that its count would
fall below zero. -/
def release? (p : Peeling) (name : String) : Option Peeling :=
  if p.waiting.find? name = some 0 then none else some (p.release name)

/-- Types that are not let go more often than they wait are let go without a count falling below
zero. -/
theorem foldlM_release? (names : List String) : ∀ p : Peeling,
    (∀ t ∈ names, ∃ count, p.waiting.find? t = some count ∧ names.count t ≤ count) →
      names.foldlM release? p = some (names.foldl release p) := by
  induction names with
  | nil => exact fun p _ => rfl
  | cons name names ih =>
      intro p hwaiting
      obtain ⟨count, hcount, hle⟩ := hwaiting name List.mem_cons_self
      rw [List.count_cons_self] at hle
      have hhere : p.release? name = some (p.release name) := by
        have hpositive : count ≠ 0 := by omega
        simp [release?, hcount, hpositive]
      have hrest : ∀ t ∈ names, ∃ count, (p.release name).waiting.find? t = some count ∧
          names.count t ≤ count := by
        intro t ht
        obtain ⟨count', hcount', hle'⟩ := hwaiting t (List.mem_cons_of_mem _ ht)
        rw [find?_release, hcount']
        by_cases hname : name = t
        · subst hname
          rw [List.count_cons_self] at hle'
          exact ⟨count' - 1, by simp, by omega⟩
        · rw [List.count_cons_of_ne hname] at hle'
          exact ⟨count', by simp [hname], hle'⟩
      rw [List.foldlM_cons, hhere, List.foldl_cons]
      exact ih (p.release name) hrest

end Peeling

/-- Take the types that come next away, as `peel` does; none when a count would fall below zero,
or when the turns do not suffice. -/
def peel? (kin : Kinship) : (turns : Nat) → Peeling → (done : List String) →
    Option (List String)
  | 0, p, done => if p.queue.isEmpty then some done else none
  | turns + 1, p, done =>
    match p.queue with
    | [] => some done
    | name :: queue => do
      let p ← (kin.listers name).foldlM Peeling.release? { p with queue }
      peel? kin turns p (done ++ [name])

/-- Peeling that may give up goes like peeling that may not, while `Right` holds and turns are left
for all types that are not done. -/
theorem peel?_eq (turns : Nat) : ∀ {p : Peeling} {done : List String}, p.Right kin done →
    kin.size ≤ done.length + turns → kin.peel? turns p done = some (kin.peel turns p done) := by
  induction turns with
  | zero =>
      intro p done h hturns
      have hle := h.length_le
      rw [List.length_append] at hle
      have hqueue : p.queue = [] := List.eq_nil_of_length_eq_zero (by omega)
      simp [peel?, peel, hqueue]
  | succ turns ih =>
      intro p done h hturns
      cases hqueue : p.queue with
      | nil => simp [peel?, peel, hqueue]
      | cons name queue =>
          have hreleased := Peeling.foldlM_release? (kin.listers name) { p with queue }
            fun t ht => h.enough (h.not_mem_done hqueue) ht
          have hnext := ih (h.take hqueue) (by
            rw [List.length_append, List.length_singleton]
            omega)
          simp only [peel?, peel, hqueue, hreleased]
          exact hnext

/-- **No count falls below zero**, and there are turns for all types. -/
theorem peel?_peeled (kin : Kinship) : kin.peel? kin.size kin.unpeeled [] = some kin.peeled :=
  peel?_eq kin.size (Peeling.right_unpeeled kin) (by simp)

end Kinship

namespace Hierarchy

variable {definition : SchemaDefinition} {h : Hierarchy}

/-- A type implements interfaces, each once and in rising order. -/
theorem interfacesOf_rising (hh : ofDefinitions definition.types = .ok h) (t : String) :
    Names.Rising (h.interfacesOf t) := by
  unfold interfacesOf
  cases hfind : h.closure.find? t with
  | none => exact List.Pairwise.nil
  | some implemented => exact ((find?_closure_iff hh).1 hfind).2.1

/-- The implementers of a type are in order and without repeats. -/
theorem implementersOf_rising (h : Hierarchy) (interface : String) :
    Names.Rising (h.implementersOf interface) :=
  List.pairwise_map.2 (h.closure.rising.filter _)

/-- The object types of the definition among those that implement an interface are its
implementers. -/
theorem mem_implementersOf_iff (hh : ofDefinitions definition.types = .ok h)
    {interface t : String} : t ∈ h.implementersOf interface ↔
      definition.Has t .object ∧ interface ∈ h.interfacesOf t := by
  obtain ⟨hkin, _⟩ := order_of_ofDefinitions hh
  rw [h.mem_implementersOf_iff_kind, ← kind_iff hkin]
  rfl

/-- **A hierarchy is exact.**  A list of types is accepted exactly when its names are distinct,
what its types list are interfaces, and nothing implements itself.  On the way no count falls
below zero.  Once accepted, a type has the interfaces that are reached from it by one or more
steps from a type to what it lists, and an interface has the object types that have it; both are
listed in rising order, each once. -/
theorem hierarchy_exact (definition : SchemaDefinition) :
    ((∃ h, ofDefinitions definition.types = .ok h) ↔ definition.Hierarchical) ∧
    (∀ kin, Kinship.ofDefinitions definition.types = .ok kin →
      kin.peel? kin.size kin.unpeeled [] = some kin.peeled) ∧
    ∀ h, ofDefinitions definition.types = .ok h →
      (∀ t, Names.Rising (h.interfacesOf t) ∧
        ∀ i, i ∈ h.interfacesOf t ↔ definition.Implements t i) ∧
      ∀ i, Names.Rising (h.implementersOf i) ∧
        ∀ t, t ∈ h.implementersOf i ↔ definition.Has t .object ∧ i ∈ h.interfacesOf t := by
  refine ⟨exists_hierarchy_iff, fun kin _ => kin.peel?_peeled, fun h hh => ⟨?_, ?_⟩⟩
  · exact fun t => ⟨interfacesOf_rising hh t, fun i => mem_interfacesOf_iff hh⟩
  · exact fun i => ⟨h.implementersOf_rising i, fun t => mem_implementersOf_iff hh⟩

/-- A note is an item that can be kept, listed as an item twice; both are owned. -/
def keptNotes : SchemaDefinition where
  types := [
    { name := "Note", kind := .object, interfaces := ["Item", "Kept", "Item"] },
    { name := "Item", kind := .interface, interfaces := ["Owned"] },
    { name := "Kept", kind := .interface, interfaces := ["Owned"] },
    { name := "Owned", kind := .interface }]

/-- Both ways from a note lead to being owned, and being owned is listed once. -/
theorem keptNotes_hierarchy_exact :
    ∃ h, ofDefinitions keptNotes.types = .ok h ∧ keptNotes.Hierarchical ∧
      h.interfacesOf "Note" = ["Item", "Kept", "Owned"] ∧ keptNotes.Implements "Note" "Owned" ∧
      h.implementersOf "Owned" = ["Note"] ∧ ¬ keptNotes.Has "Item" .object := by
  have hlists : ((ofDefinitions keptNotes.types).toOption.map fun h =>
      (h.interfacesOf "Note", h.implementersOf "Owned", h.interfacesOf "Item")) =
        some (["Item", "Kept", "Owned"], ["Note"], ["Owned"]) := by
    decide +kernel
  obtain ⟨h, hh, hlists⟩ := Option.map_eq_some_iff.1 hlists
  rw [toOption_eq_some_iff] at hh
  obtain ⟨hnote, howned, hitem⟩ : _ ∧ _ ∧ _ := by simpa only [Prod.mk.injEq] using hlists
  obtain ⟨haccepted, _, hexact⟩ := hierarchy_exact keptNotes
  obtain ⟨hinterfaces, himplementers⟩ := hexact h hh
  refine ⟨h, hh, haccepted.1 ⟨h, hh⟩, hnote, ?_, howned, fun hobject => ?_⟩
  · rw [← (hinterfaces "Note").2, hnote]
    simp
  · have hlisted := ((himplementers "Owned").2 "Item").2 ⟨hobject, by simp [hitem]⟩
    simp [howned] at hlisted

end Hierarchy

end GraphWarden
