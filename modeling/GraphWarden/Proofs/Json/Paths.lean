import Mathlib.Data.List.Lex
import Mathlib.Data.String.Basic
import GraphWarden.Proofs.Json.Leaves

/-!
# Key paths

A key path leads from an object through objects to a datum that is not one (`Json.Leads`).  Where
an object names a key repeatedly, the last time counts, and so a datum and its normal form have
the same paths.

Another way to find the ends of all paths is to walk through a normalized datum and to list them
in the order in which they are met.  **The list has exactly the ends of the key paths**
(`Json.mem_ends_iff`), **and its paths rise**, compared key by key (`Json.ends_ascending`).
-/

namespace GraphWarden

/-- Where the keys rise, the last entry with a key is its first one. -/
theorem Entries.find?_reverse_of_rising {α : Type} {entries : Entries α} (h : Rising entries)
    (key : String) : find? key entries.reverse = find? key entries := by
  cases hlast : find? key entries.reverse with
  | some value =>
      have hmem : (key, value) ∈ entries := List.mem_reverse.1 (mem_of_find?_eq_some hlast)
      exact (find?_eq_some_of_mem h hmem).symm
  | none =>
      cases hfirst : find? key entries with
      | none => rfl
      | some value =>
          have hsome := isSome_find?_of_mem (List.mem_reverse.2 (mem_of_find?_eq_some hfirst))
          simp [hlast] at hsome

/-- Entries whose keys rise already are in order. -/
theorem Entries.ofList_eq_self {α : Type} {entries : Entries α} (h : Rising entries) :
    ofList entries = entries := by
  have hsame : Keyed.ofList entries = ⟨entries, h⟩ := by
    refine Keyed.ext_find? fun key => ?_
    rw [Keyed.find?, Keyed.find?, Keyed.ofList, find?_ofList, find?_reverse_of_rising h]
  exact congrArg Keyed.entries hsame

namespace Json

/-- Whether the datum is an object. -/
def isObject : Json → Bool
  | .object _ => true
  | _ => false

/-- Whether the datum is neither a list nor an object. -/
def isScalar : Json → Bool
  | .list _ | .object _ => false
  | _ => true

/-- A list without those of its items that are lists or objects; any other datum as it is. -/
def pruned : Json → Json
  | .list items => .list (items.filter isScalar)
  | j => j

/-- What an object holds under a key; where the key is written repeatedly, the last time
counts. -/
def child? (key : String) : Json → Option Json
  | .object entries => Entries.find? key entries.reverse
  | _ => none

/-- A key path leads from a datum through objects to a datum that is not an object. -/
inductive Leads : Json → List String → Json → Prop where
  | here {j : Json} : j.isObject = false → Leads j [] j
  | down {j inner last : Json} {key : String} {path : List String} :
      j.child? key = some inner → Leads inner path last → Leads j (key :: path) last

/-- A key path ends at something that is not an object. -/
theorem Leads.not_isObject {j last : Json} {path : List String} (h : j.Leads path last) :
    last.isObject = false := by
  induction h with
  | here hobject => exact hobject
  | down _ _ ih => exact ih

/-! ### Normalized data -/

/-- The items of a normalized list are normalized one by one. -/
theorem normalizedItems_eq_map (js : List Json) : normalizedItems js = js.map normalized := by
  induction js with
  | nil => rfl
  | cons j js ih => simp [normalizedItems, ih]

/-- The entries of an object are normalized one by one before they are put in order. -/
theorem normalizedEntries_eq_map (es : List (String × Json)) :
    normalizedEntries es = es.map fun e => (e.1, e.2.normalized) := by
  induction es with
  | nil => rfl
  | cons e es ih => simp [normalizedEntries, ih]

theorem isObject_normalized (j : Json) : j.normalized.isObject = j.isObject := by
  cases j <;> rfl

/-- Normalizing does not make a datum without parts of one with parts, nor the other way round. -/
theorem isScalar_normalized (j : Json) : j.normalized.isScalar = j.isScalar := by
  cases j <;> rfl

theorem normalized_of_isScalar {j : Json} (h : j.isScalar = true) : j.normalized = j := by
  cases j with
  | list items => cases h
  | object entries => cases h
  | null | flag _ | int _ | float _ | text _ => rfl

/-- Scalar items are the same in a normalized list. -/
theorem pruned_normalized {j : Json} (h : j.isObject = false) :
    j.normalized.pruned = j.pruned := by
  cases j with
  | object entries => cases h
  | null | flag _ | int _ | float _ | text _ => rfl
  | list items =>
      simp only [normalized, pruned, normalizedItems_eq_map, List.filter_map]
      have hscalar : isScalar ∘ normalized = isScalar := funext isScalar_normalized
      rw [hscalar]
      congr 1
      refine List.map_congr_left (g := id) ?_ |>.trans (List.map_id _)
      intro item hitem
      exact normalized_of_isScalar (List.mem_filter.1 hitem).2

/-- A look-up in normalized entries finds the normal form of what it would have found. -/
theorem find?_map_normalized (key : String) (es : List (String × Json)) :
    Entries.find? key (es.map fun e => (e.1, e.2.normalized)) =
      (Entries.find? key es).map normalized := by
  induction es with
  | nil => rfl
  | cons e es ih =>
      by_cases hkey : e.1 = key
      · simp [Entries.find?, hkey]
      · simp [Entries.find?, hkey, ih]

/-- What a normalized object holds under a key. -/
theorem find?_entries_normalized (key : String) (es : List (String × Json)) :
    Entries.find? key (Entries.ofList (normalizedEntries es)) =
      ((object es).child? key).map normalized := by
  rw [Entries.find?_ofList, normalizedEntries_eq_map, ← List.map_reverse, find?_map_normalized]
  rfl

/-- The entries of a normalized object are the children of the object, in normal form. -/
theorem mem_entries_normalized_iff {key : String} {j : Json} {es : List (String × Json)} :
    (key, j) ∈ Entries.ofList (normalizedEntries es) ↔
      ∃ inner, (object es).child? key = some inner ∧ inner.normalized = j := by
  rw [← Option.map_eq_some_iff, ← find?_entries_normalized]
  exact ⟨Entries.find?_eq_some_of_mem (Entries.ofList_rising _), Entries.mem_of_find?_eq_some⟩

/-! ### The ends of a datum -/

mutual

/-- The data that are not objects at the ends of the key paths, in walking order. -/
def ends : Json → List (List String × Json)
  | .object entries => endsOf entries
  | j => [([], j)]

/-- The ends below the entries of an object. -/
def endsOf : List (String × Json) → List (List String × Json)
  | [] => []
  | (key, j) :: es => (ends j).map (fun e => (key :: e.1, e.2)) ++ endsOf es

end

/-- A datum that is not an object is its own only end, at the path without keys. -/
theorem ends_of_not_isObject {j : Json} (h : j.isObject = false) : j.ends = [([], j)] := by
  cases j with
  | object entries => cases h
  | null | flag _ | int _ | float _ | text _ | list _ => rfl

/-- The ends below the entries of an object are those of what the entries hold, each with the key
in front of its path. -/
theorem mem_endsOf_iff {path : List String} {v : Json} {es : List (String × Json)} :
    (path, v) ∈ endsOf es ↔ ∃ e ∈ es, ∃ below, path = e.1 :: below ∧ (below, v) ∈ e.2.ends := by
  induction es with
  | nil => simp [endsOf]
  | cons e es ih =>
      rw [endsOf, List.mem_append, ih, List.exists_mem_cons_iff]
      refine or_congr ?_ Iff.rfl
      constructor
      · intro h
        obtain ⟨⟨below, v'⟩, hmem, heq⟩ := List.mem_map.1 h
        cases heq
        exact ⟨below, rfl, hmem⟩
      · rintro ⟨below, rfl, hmem⟩
        exact List.mem_map.2 ⟨(below, v), hmem, rfl⟩

/-- **The ends of a normalized datum are those of the key paths**: below each key the last entry
that was written counts, and what it leads to is normalized in turn. -/
theorem mem_ends_iff {path : List String} {j v : Json} :
    (path, v) ∈ j.normalized.ends ↔ ∃ last, j.Leads path last ∧ last.normalized = v := by
  -- By induction on the path: normalizing moves and drops entries, so the entries that are walked
  -- are not those that were written.
  induction path generalizing j with
  | nil =>
      constructor
      · intro h
        have hobject : j.isObject = false := by
          cases j with
          | object entries =>
              obtain ⟨_, _, _, heq, _⟩ := mem_endsOf_iff.1 h
              cases heq
          | null | flag _ | int _ | float _ | text _ | list _ => rfl
        rw [ends_of_not_isObject ((isObject_normalized j).trans hobject)] at h
        obtain ⟨_, rfl⟩ := Prod.mk.inj (List.mem_singleton.1 h)
        exact ⟨j, Leads.here hobject, rfl⟩
      · rintro ⟨last, hleads, rfl⟩
        cases hleads with
        | here hobject =>
            rw [ends_of_not_isObject ((isObject_normalized _).trans hobject)]
            exact List.mem_singleton.2 rfl
  | cons key path ih =>
      cases j with
      | object entries =>
          constructor
          · intro h
            obtain ⟨⟨key', j'⟩, he, below, heq, hmem⟩ := mem_endsOf_iff.1 h
            obtain ⟨rfl, rfl⟩ := List.cons.inj heq
            obtain ⟨inner, hchild, rfl⟩ := mem_entries_normalized_iff.1 he
            obtain ⟨last, hleads, hlast⟩ := ih.1 hmem
            exact ⟨last, Leads.down hchild hleads, hlast⟩
          · rintro ⟨last, hleads, hlast⟩
            cases hleads with
            | down hchild hinner =>
                have hentry := mem_entries_normalized_iff.2 ⟨_, hchild, rfl⟩
                exact mem_endsOf_iff.2 ⟨_, hentry, path, rfl, ih.2 ⟨last, hinner, hlast⟩⟩
      | null | flag _ | int _ | float _ | text _ | list _ =>
          constructor
          · intro h
            cases List.mem_singleton.1 h
          · rintro ⟨last, hleads, -⟩
            cases hleads with
            | down hchild _ => cases hchild

/-- The walk of a datum goes on in rising order. -/
def Ascending (walk : List (List String × Json)) : Prop :=
  walk.Pairwise fun a b => a.1 < b.1

/-- Entries in rising order whose data are walked in rising order are walked so themselves. -/
theorem ascending_endsOf {es : List (String × Json)} (hes : Entries.Rising es)
    (hbelow : ∀ e ∈ es, Ascending e.2.ends) : Ascending (endsOf es) := by
  induction es with
  | nil => exact List.Pairwise.nil
  | cons e es ih =>
      obtain ⟨hfirst, hrest⟩ := List.pairwise_cons.1 hes
      have hlater := ih hrest fun e he => hbelow e (List.mem_cons_of_mem _ he)
      refine List.pairwise_append.2 ⟨?_, hlater, ?_⟩
      · refine List.pairwise_map.2 ((hbelow e List.mem_cons_self).imp ?_)
        intro a b hlt
        exact List.cons_lt_cons_iff.2 (Or.inr ⟨rfl, hlt⟩)
      · rintro a ha ⟨path, v⟩ hb
        obtain ⟨a', _, rfl⟩ := List.mem_map.1 ha
        obtain ⟨e', he', below, rfl, _⟩ := mem_endsOf_iff.1 hb
        exact List.cons_lt_cons_iff.2 (Or.inl (hfirst e' he'))

mutual

/-- **A normalized datum is walked in rising order.** -/
theorem ends_ascending : (j : Json) → Ascending j.normalized.ends
  | .object entries =>
      ascending_endsOf (Entries.ofList_rising _) fun e he =>
        endsOf_ascending entries e (Entries.mem_of_mem_ofList he)
  | .null | .flag _ | .int _ | .float _ | .text _ | .list _ => List.pairwise_singleton _ _

/-- What the entries of a normalized object hold has its ends in rising order, entry by entry. -/
theorem endsOf_ascending : (es : List (String × Json)) →
    ∀ e ∈ normalizedEntries es, Ascending e.2.ends
  | [] => by simp [normalizedEntries]
  | (key, j) :: es => by
      intro e he
      rcases List.mem_cons.1 he with rfl | he
      · exact ends_ascending j
      · exact endsOf_ascending es e he

end

end Json

end GraphWarden
