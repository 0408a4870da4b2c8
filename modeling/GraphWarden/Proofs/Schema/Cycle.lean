import Mathlib.Data.List.Chain
import GraphWarden.Proofs.Schema.Acyclic

/-!
# The cycle that is reported

Peeling tells that a hierarchy is not one, and another search shows why: a walk along the
interfaces that keeps the way from where it started and the types that it is done with.
`Kinship.Searches` says how such a walk goes on and how it ends, without a bound on its turns.

The turns that `findCycle?` gives it are enough (`searches_keys`), since a way without repeats
is not longer than there are types.  A walk that ends well has put all that it is done with in an
order in which interfaces come first (`Searches.ordered`), so nothing implements itself and
peeling does not get stuck.  A walk that ends with an answer ends with the part of its way that
goes round (`Searches.isCycle`).

Together: **what is refused as a cycle is refused with a cycle of the definition**
(`reported_cycle_is_real`).
-/

namespace GraphWarden

/-- A list of names goes round: it ends with the name that it begins with, the names before the
end come once each, and each name lists the next. -/
structure Names.IsCycle (lists : String → String → Prop) (names : List String) : Prop where
  long : 2 ≤ names.length
  closed : names.head? = names.getLast?
  once : names.dropLast.Nodup
  linked : names.IsChain lists

/-- A way that comes back to one of its names goes round from there. -/
theorem Names.isCycle_of_mem {lists : String → String → Prop} {path : List String} {name : String}
    (hmem : name ∈ path) (honce : path.Nodup) (hlinked : path.IsChain lists)
    (hback : ∀ last ∈ path.getLast?, lists last name) :
    Names.IsCycle lists (path.dropWhile (· != name) ++ [name]) := by
  obtain ⟨before, after, rfl, hnew⟩ := List.eq_append_cons_of_mem hmem
  have hround : (before ++ name :: after).dropWhile (· != name) = name :: after := by
    rw [List.dropWhile_append_of_pos]
    · simp
    · intro t ht
      have hne : t ≠ name := fun heq => hnew (heq ▸ ht)
      simpa using hne
  have hsuffix : name :: after <:+ before ++ name :: after := List.suffix_append _ _
  rw [hround]
  constructor
  · simp
  · rw [List.getLast?_concat]
    rfl
  · rw [List.dropLast_concat]
    exact honce.sublist hsuffix.sublist
  · refine List.isChain_append.2 ⟨hlinked.suffix hsuffix, List.isChain_singleton name, ?_⟩
    intro last hlast next hnext
    have hnext' : name = next := by simpa using hnext
    subst hnext'
    refine hback last ?_
    rw [List.getLast?_append, Option.mem_def.1 hlast]
    rfl

namespace Kinship

variable {kin : Kinship} {path done names : List String}

/-- How a walk goes over names that stand next to each other: it has come along `path` and is
done with the types in `done`.  A name of its way ends it with the part that goes round; a type
that it is done with it leaves out; from any other it goes on to what the type lists, and is done
with the type when it comes back. -/
inductive Searches (kin : Kinship) :
    (path done names : List String) → Except (List String) (List String) → Prop
  | ends {path done : List String} : Searches kin path done [] (.ok done)
  | closes {path done names : List String} {name : String} (hmem : name ∈ path) :
      Searches kin path done (name :: names) (.error (path.dropWhile (· != name) ++ [name]))
  | leaves {path done names : List String} {name : String} {result}
      (hpath : name ∉ path) (hdone : name ∈ done) (hrest : Searches kin path done names result) :
      Searches kin path done (name :: names) result
  | stops {path done names : List String} {name : String} {cycle : List String}
      (hpath : name ∉ path) (hdone : name ∉ done)
      (hbelow : Searches kin (path ++ [name]) done (kin.listed name) (.error cycle)) :
      Searches kin path done (name :: names) (.error cycle)
  | returns {path done names below : List String} {name : String} {result}
      (hpath : name ∉ path) (hdone : name ∉ done)
      (hbelow : Searches kin (path ++ [name]) done (kin.listed name) (.ok below))
      (hrest : Searches kin path (name :: below) names result) :
      Searches kin path done (name :: names) result

/-- A walk ends in one way only.  What it does at a type depends on whether the type is on its way,
done with, or new, and these exclude each other. -/
theorem Searches.unique {result other : Except (List String) (List String)}
    (h : kin.Searches path done names result) (h' : kin.Searches path done names other) :
    result = other := by
  induction h generalizing other with
  | ends =>
      cases h'
      rfl
  | closes hmem =>
      cases h' with
      | closes => rfl
      | leaves hpath => exact absurd hmem hpath
      | stops hpath => exact absurd hmem hpath
      | returns hpath => exact absurd hmem hpath
  | leaves hpath hdone _ ih =>
      cases h' with
      | closes hmem => exact absurd hmem hpath
      | leaves _ _ hrest => exact ih hrest
      | stops _ hnew => exact absurd hdone hnew
      | returns _ hnew => exact absurd hdone hnew
  | stops hpath hnew _ ih =>
      cases h' with
      | closes hmem => exact absurd hmem hpath
      | leaves _ hdone => exact absurd hdone hnew
      | stops _ _ hbelow => exact ih hbelow
      | returns _ _ hbelow => exact absurd (ih hbelow) (by simp)
  | returns hpath hnew _ _ ihbelow ihrest =>
      cases h' with
      | closes hmem => exact absurd hmem hpath
      | leaves _ hdone => exact absurd hdone hnew
      | stops _ _ hbelow => exact absurd (ihbelow hbelow) (by simp)
      | returns _ _ hbelow hrest =>
          cases ihbelow hbelow
          exact ihrest hrest

/-! ### The turns are enough -/

/-- One turn of the walk. -/
theorem walk_succ (kin : Kinship) (fuel : Nat) (path done : List String) (name : String) :
    kin.walk (fuel + 1) path done name =
      if name ∈ path then .error (path.dropWhile (· != name) ++ [name])
      else if name ∈ done then .ok done
      else ((kin.listed name).foldlM (kin.walk fuel (path ++ [name])) done).map (name :: ·) := by
  rw [walk]
  simp only [List.contains_iff_mem]
  rfl

/-- **With more turns than there are types left for the way** the walk goes to its end.  The way
never repeats a type, so each step down uses a turn and a type, and a way of all types has none to
go on to. -/
theorem searches_foldlM (hlisted : ∀ t, ∀ i ∈ kin.listed t, i ∈ kin.keys) (fuel : Nat) :
    ∀ {path : List String}, path.Nodup → path ⊆ kin.keys → kin.size < path.length + fuel →
      ∀ {names : List String}, names ⊆ kin.keys → ∀ done,
        kin.Searches path done names (names.foldlM (kin.walk fuel path) done) := by
  induction fuel with
  | zero =>
      intro path honce hknown hfuel
      exact absurd (length_le_size honce hknown) (by omega)
  | succ fuel ih =>
      intro path honce hknown hfuel names hnames
      induction names with
      | nil => exact fun done => .ends
      | cons name names ihnames =>
          intro done
          obtain ⟨hname, hnames'⟩ := List.cons_subset.1 hnames
          rw [List.foldlM_cons, walk_succ]
          by_cases hmem : name ∈ path
          · rw [if_pos hmem]
            exact .closes hmem
          rw [if_neg hmem]
          by_cases hdone : name ∈ done
          · rw [if_pos hdone]
            exact .leaves hmem hdone (ihnames hnames' done)
          rw [if_neg hdone]
          have hway : (path ++ [name]).Nodup := by simpa using honce.concat hmem
          have hlength : kin.size < (path ++ [name]).length + fuel := by
            rw [List.length_append, List.length_singleton]
            omega
          have hbelow := ih hway (by simp [hknown, hname]) hlength (hlisted name) done
          cases hend : (kin.listed name).foldlM (kin.walk fuel (path ++ [name])) done with
          | error cycle =>
              rw [hend] at hbelow
              exact .stops hmem hdone hbelow
          | ok below =>
              rw [hend] at hbelow
              exact .returns hmem hdone hbelow (ihnames hnames' (name :: below))

/-- The search goes from each type in turn, and to its end. -/
theorem searches_keys (hlisted : ∀ t, ∀ i ∈ kin.listed t, i ∈ kin.keys) :
    kin.Searches [] [] kin.keys (kin.keys.foldlM (kin.walk (kin.size + 1) []) []) :=
  searches_foldlM hlisted (kin.size + 1) List.nodup_nil (List.nil_subset _) (by simp)
    (List.Subset.refl _) []

/-! ### A walk that ends well -/

/-- **What a walk is done with stands in order**, the last first: it keeps what it was done
with, takes in all names that it goes over, and none of its way. -/
theorem Searches.ordered {final : List String} (h : kin.Searches path done names (.ok final))
    (hordered : kin.Ordered [] done.reverse) (hapart : ∀ t ∈ path, t ∉ done) :
    kin.Ordered [] final.reverse ∧ done ⊆ final ∧ names ⊆ final ∧ ∀ t ∈ path, t ∉ final := by
  generalize hresult : Except.ok final = result at h
  induction h generalizing final with
  | ends =>
      cases hresult
      exact ⟨hordered, List.Subset.refl _, List.nil_subset _, hapart⟩
  | closes => cases hresult
  | leaves hpath hdone _ ih =>
      obtain ⟨hfinal, hkept, hnames, hapart'⟩ := ih hordered hapart hresult
      exact ⟨hfinal, hkept, List.cons_subset.2 ⟨hkept hdone, hnames⟩, hapart'⟩
  | stops => cases hresult
  | @returns path done _ below name _ hpath hnew _ _ ihbelow ihrest =>
      have hway : ∀ t ∈ path ++ [name], t ∉ done := by
        intro t ht
        rcases List.mem_append.1 ht with ht | ht
        · exact hapart t ht
        · exact List.mem_singleton.1 ht ▸ hnew
      obtain ⟨hbelow, hkept, hlisted, hfree⟩ := ihbelow hordered hway rfl
      have hself : name ∉ below := hfree name (by simp)
      have hnext : kin.Ordered [] (name :: below).reverse := by
        rw [List.reverse_cons]
        refine hbelow.append ⟨by simpa using hself, ?_, trivial⟩
        intro i hi
        simpa using hlisted hi
      have hapart' : ∀ t ∈ path, t ∉ name :: below := by
        intro t ht hmem
        rcases List.mem_cons.1 hmem with rfl | hmem
        · exact hpath ht
        · exact hfree t (List.mem_append_left _ ht) hmem
      obtain ⟨hfinal, hkept', hnames, hapart''⟩ := ihrest hnext hapart' hresult
      obtain ⟨hname, hbelow'⟩ := List.cons_subset.1 hkept'
      exact ⟨hfinal, List.Subset.trans hkept hbelow', List.cons_subset.2 ⟨hname, hnames⟩, hapart''⟩

/-- Where the walks from all types end well nothing implements itself. -/
theorem Searches.acyclic {final : List String} (h : kin.Searches [] [] kin.keys (.ok final))
    (t : String) : ¬ kin.Implements t t := by
  obtain ⟨hordered, _, hall, _⟩ := h.ordered trivial (by simp)
  intro hself
  have ht : t ∈ final.reverse := List.mem_reverse.2 (hall (mem_keys_of_implements hself))
  exact hordered.ne_of_implements (by simp) t (by simpa using ht) t hself rfl

/-! ### A walk that ends with an answer -/

/-- **What a walk ends with goes round**, when each type of its way lists the next and the last
one the names that it goes over. -/
theorem Searches.isCycle {cycle : List String} (h : kin.Searches path done names (.error cycle))
    (honce : path.Nodup) (hlinked : path.IsChain fun t i => i ∈ kin.listed t)
    (hnames : ∀ last ∈ path.getLast?, names ⊆ kin.listed last) :
    Names.IsCycle (fun t i => i ∈ kin.listed t) cycle := by
  generalize hresult : Except.error cycle = result at h
  induction h with
  | ends => cases hresult
  | closes hmem =>
      cases hresult
      exact Names.isCycle_of_mem hmem honce hlinked fun last hlast =>
        hnames last hlast List.mem_cons_self
  | leaves _ _ _ ih =>
      exact ih honce hlinked (fun last hlast => (List.cons_subset.1 (hnames last hlast)).2) hresult
  | returns _ _ _ _ _ ih =>
      exact ih honce hlinked (fun last hlast => (List.cons_subset.1 (hnames last hlast)).2) hresult
  | stops hpath _ _ ih =>
      refine ih ?_ ?_ ?_ hresult
      · simpa using honce.concat hpath
      · refine List.isChain_append.2 ⟨hlinked, List.isChain_singleton _, ?_⟩
        intro last hlast next hnext
        obtain rfl : _ = next := by simpa using hnext
        exact hnames last hlast List.mem_cons_self
      · intro last hlast
        obtain rfl : _ = last := by simpa using hlast
        exact List.Subset.refl _

/-- **Where peeling gets stuck the search shows a cycle.** -/
theorem exists_cycle_of_stuck (hlisted : ∀ t, ∀ i ∈ kin.listed t, i ∈ kin.keys)
    (hstuck : kin.peeled.length ≠ kin.size) :
    ∃ cycle, kin.Searches [] [] kin.keys (.error cycle) ∧ kin.findCycle? = some cycle ∧
      Names.IsCycle (fun t i => i ∈ kin.listed t) cycle := by
  have hsearch := searches_keys hlisted
  cases hend : kin.keys.foldlM (kin.walk (kin.size + 1) []) [] with
  | ok final =>
      rw [hend] at hsearch
      exact absurd (length_peeled_iff.2 (mem_peeled_of_acyclic hlisted hsearch.acyclic)) hstuck
  | error cycle =>
      rw [hend] at hsearch
      refine ⟨cycle, hsearch, ?_, hsearch.isCycle List.nodup_nil List.isChain_nil (by simp)⟩
      simp only [findCycle?, hend]

end Kinship

/-! ### Refused definitions -/

namespace Hierarchy

variable {definition : SchemaDefinition}

/-- There are as many known types as definitions. -/
theorem size_of_ofDefinitions {kin : Kinship}
    (hkin : Kinship.ofDefinitions definition.types = .ok kin) :
    kin.size = definition.types.length := by
  have hsame : kin.keys.Perm (definition.types.map TypeDefinition.name) := by
    refine (List.perm_ext_iff_of_nodup (Keyed.keys_nodup kin) (Kinship.names_nodup hkin)).2 ?_
    intro t
    rw [Kinship.mem_keys_iff hkin, List.mem_map]
  have hlength := hsame.length_eq
  rw [Keyed.length_keys, List.length_map] at hlength
  exact hlength

/-- **A reported cycle is real.**  Of types with distinct names that list interfaces only, when
peeling takes fewer away than there are, the search from each type in turn ends, with a cycle of
the definition and with nothing else, and this is what the definition is refused with. -/
theorem reported_cycle_is_real (honce : (definition.types.map TypeDefinition.name).Nodup)
    (hinterfaces : ∀ t i, definition.Lists t i → definition.Has i .interface) :
    ∃ kin, Kinship.ofDefinitions definition.types = .ok kin ∧
      (kin.peeled.length < definition.types.length → ∃ cycle,
        (∀ result, kin.Searches [] [] kin.keys result ↔ result = .error cycle) ∧
          kin.findCycle? = some cycle ∧ Names.IsCycle definition.Lists cycle ∧
          ofDefinitions definition.types = .error (.inheritanceCycle cycle)) := by
  obtain ⟨kin, hkin⟩ := Kinship.exists_ofDefinitions_iff.2 honce
  refine ⟨kin, hkin, fun hfewer => ?_⟩
  have hnames : ∀ t, ∀ i ∈ kin.listed t, kin.NamesInterface i := by
    intro t i hi
    exact (kind_iff hkin).2 (hinterfaces t i ((listed_iff hkin).1 hi))
  have hlisted : ∀ t, ∀ i ∈ kin.listed t, i ∈ kin.keys := by
    intro t i hi
    obtain ⟨k, hk, _⟩ := Option.map_eq_some_iff.1 (hnames t i hi)
    exact Keyed.mem_keys_iff.2 (by simp [hk])
  have hstuck : kin.peeled.length ≠ kin.size := by
    rw [size_of_ofDefinitions hkin]
    exact Nat.ne_of_lt hfewer
  obtain ⟨cycle, hsearch, hfind, hcycle⟩ := Kinship.exists_cycle_of_stuck hlisted hstuck
  refine ⟨cycle, fun result => ⟨fun h => h.unique hsearch, fun h => h ▸ hsearch⟩, hfind, ?_, ?_⟩
  · have hsame : (fun t i => i ∈ kin.listed t) = definition.Lists := by
      funext t i
      exact propext (listed_iff hkin)
    exact hsame ▸ hcycle
  · have hproblem : kin.problem? = none := Kinship.problem?_eq_none_iff.2 hnames
    simp [ofDefinitions, hkin, hproblem, hstuck, hfind, bind, Except.bind]

/-- A note is an item, items are kept, and what is kept is owned by something that is kept: the
way to the cycle is not a part of it. -/
def loopedNotes : SchemaDefinition where
  types := [
    { name := "Note", kind := .object, interfaces := ["Item"] },
    { name := "Item", kind := .interface, interfaces := ["Kept"] },
    { name := "Kept", kind := .interface, interfaces := ["Named", "Owned"] },
    { name := "Owned", kind := .interface, interfaces := ["Kept"] },
    { name := "Named", kind := .interface }]

/-- The cycle that is reported of the looped notes leads from what is kept to what is owned and
back.  A note leads to it and is no part of it. -/
theorem loopedNotes_reported_cycle_is_real :
    (loopedNotes.types.map TypeDefinition.name).Nodup ∧
      (∀ t i, loopedNotes.Lists t i → loopedNotes.Has i .interface) ∧
      Names.IsCycle loopedNotes.Lists ["Kept", "Owned", "Kept"] ∧
      ofDefinitions loopedNotes.types =
        .error (.inheritanceCycle ["Kept", "Owned", "Kept"]) := by
  have honce : (loopedNotes.types.map TypeDefinition.name).Nodup := by decide
  have hinterfaces : ∀ t i, loopedNotes.Lists t i → loopedNotes.Has i .interface := by
    have hall : ∀ d ∈ loopedNotes.types, ∀ i ∈ d.interfaces,
        ∃ d' ∈ loopedNotes.types, d'.name = i ∧ d'.kind = .interface := by decide
    rintro t i ⟨d, hd, -, hi⟩
    exact hall d hd i hi
  have hwalk : ((Kinship.ofDefinitions loopedNotes.types).toOption.map fun kin =>
      (kin.peeled, kin.findCycle?)) = some (["Named"], some ["Kept", "Owned", "Kept"]) := by
    decide +kernel
  obtain ⟨kin, hkin, hreported⟩ := reported_cycle_is_real honce hinterfaces
  rw [hkin] at hwalk
  obtain ⟨hpeeled, hfind⟩ : kin.peeled = ["Named"] ∧
      kin.findCycle? = some ["Kept", "Owned", "Kept"] := by
    simpa [Except.toOption] using hwalk
  obtain ⟨cycle, -, hfind', hcycle, hrefused⟩ := hreported (by rw [hpeeled]; decide)
  rw [hfind, Option.some.injEq] at hfind'
  subst hfind'
  exact ⟨honce, hinterfaces, hcycle, hrefused⟩

end Hierarchy

end GraphWarden
