import GraphWarden.Names

/-!
# Maps with string keys

Claims, types and stored nodes are looked up by name and listed in key order.
A map is the list of its entries, strictly rising in the keys; the type carries
that fact, so two maps that answer every look-up alike are equal (`Keyed.ext_find?`).

The operations on bare entry lists come first, because objects inside values
use them too.
-/

namespace GraphWarden

/-- Entries of a map, each a key with what it holds. -/
abbrev Entries (α : Type) := List (String × α)

namespace Entries

variable {α β : Type}

/-- What the first entry with this key holds. -/
def find? (key : String) : Entries α → Option α
  | [] => none
  | (k, v) :: rest => if k = key then some v else find? key rest

/-- Put an entry into a rising list; an entry with the same key makes way. -/
def put (key : String) (value : α) : Entries α → Entries α
  | [] => [(key, value)]
  | (k, v) :: rest =>
    if key < k then (key, value) :: (k, v) :: rest
    else if k < key then (k, v) :: put key value rest
    else (key, value) :: rest

/-- Drop the entry with this key. -/
def erase (key : String) (entries : Entries α) : Entries α :=
  entries.filter fun e => e.1 != key

/-- The entries in rising key order; of two entries with one key the later stays. -/
def ofList (pairs : Entries α) : Entries α :=
  pairs.foldl (fun entries e => put e.1 e.2 entries) []

/-- Strictly rising in the keys. -/
def Rising (entries : Entries α) : Prop :=
  entries.Pairwise fun a b => a.1 < b.1

/-- An entry that is there after another was put is that one, or was there before. -/
theorem mem_put {e : String × α} {key : String} {value : α} {entries : Entries α}
    (h : e ∈ put key value entries) : e = (key, value) ∨ e ∈ entries := by
  induction entries with
  | nil => simpa [put] using h
  | cons x rest ih =>
    obtain ⟨k, v⟩ := x
    unfold put at h
    split at h
    · simpa using h
    · split at h
      · rcases List.mem_cons.1 h with rfl | h
        · simp
        · rcases ih h with h | h
          · exact Or.inl h
          · exact Or.inr (List.mem_cons_of_mem _ h)
      · rcases List.mem_cons.1 h with h | h
        · exact Or.inl h
        · exact Or.inr (List.mem_cons_of_mem _ h)

/-- Putting an entry keeps the keys rising, wherever the entry belongs. -/
theorem put_rising {key : String} {value : α} {entries : Entries α} (h : Rising entries) :
    Rising (put key value entries) := by
  induction entries with
  | nil => simp [put, Rising]
  | cons x rest ih =>
    obtain ⟨k, v⟩ := x
    obtain ⟨hk, hrest⟩ := List.pairwise_cons.1 h
    unfold put
    split
    · next hlt =>
      refine List.pairwise_cons.2 ⟨?_, h⟩
      intro y hy
      rcases List.mem_cons.1 hy with rfl | hy
      · exact hlt
      · exact String.lt_trans hlt (hk y hy)
    · split
      · next hlt =>
        refine List.pairwise_cons.2 ⟨?_, ih hrest⟩
        intro y hy
        rcases mem_put hy with rfl | hy
        · exact hlt
        · exact hk y hy
      · next h1 h2 =>
        have hkey : key = k := Names.eq_of_not_lt h1 h2
        refine List.pairwise_cons.2 ⟨?_, hrest⟩
        intro y hy
        simpa [hkey] using hk y hy

/-- Entries that are put one after the other end up in rising order, in whichever order they come.
-/
theorem ofList_rising (pairs : Entries α) : Rising (ofList pairs) := by
  have : ∀ (pairs acc : Entries α), Rising acc →
      Rising (pairs.foldl (fun entries e => put e.1 e.2 entries) acc) := by
    intro pairs
    induction pairs with
    | nil => exact fun _ h => h
    | cons e pairs ih => exact fun acc h => ih _ (put_rising h)
  exact this pairs [] List.Pairwise.nil

theorem erase_rising {key : String} {entries : Entries α} (h : Rising entries) :
    Rising (erase key entries) :=
  List.Pairwise.filter _ h

/-- A look-up finds what was put last under the key, and what was there before under every other
key. -/
theorem find?_put (key name : String) (value : α) (entries : Entries α) :
    find? name (put key value entries) = if key = name then some value else find? name entries := by
  induction entries with
  | nil => simp [put, find?]
  | cons x rest ih =>
    obtain ⟨k, v⟩ := x
    unfold put
    split
    · simp [find?]
    · split
      · next hlt =>
        by_cases hk : k = name
        · have : key ≠ name := by
            rintro rfl
            exact String.lt_irrefl key (hk ▸ hlt)
          simp [find?, hk, this]
        · simp [find?, hk, ih]
      · next h1 h2 =>
        have hkey : key = k := Names.eq_of_not_lt h1 h2
        by_cases hk : k = name
        · simp [find?, hkey, hk]
        · simp [find?, hkey, hk]

/-- In two lists, one behind the other, the first one is searched first. -/
theorem find?_append (key : String) (xs ys : Entries α) :
    find? key (xs ++ ys) = (find? key xs).or (find? key ys) := by
  induction xs with
  | nil => rfl
  | cons x rest ih =>
    obtain ⟨k, v⟩ := x
    by_cases hk : k = key
    · simp [find?, hk]
    · simp [find?, hk, ih]

/-- The sorted list holds what the last entry with the key holds. -/
theorem find?_ofList (key : String) (pairs : Entries α) :
    find? key (ofList pairs) = find? key pairs.reverse := by
  have hfold : ∀ pairs acc : Entries α,
      find? key (pairs.foldl (fun entries e => put e.1 e.2 entries) acc) =
        (find? key pairs.reverse).or (find? key acc) := by
    intro pairs
    induction pairs with
    | nil => exact fun acc => rfl
    | cons e pairs ih =>
      intro acc
      rw [List.foldl_cons, ih, find?_put, List.reverse_cons, find?_append]
      by_cases hk : e.1 = key
      · simp [find?, hk]
      · simp [find?, hk]
  rw [ofList, hfold pairs []]
  simp [find?]

/-- Members of a rising list are found under their key. -/
theorem find?_eq_some_of_mem {e : String × α} {entries : Entries α} (h : Rising entries)
    (he : e ∈ entries) : find? e.1 entries = some e.2 := by
  induction entries with
  | nil => simp at he
  | cons x rest ih =>
    obtain ⟨hx, hrest⟩ := List.pairwise_cons.1 h
    rcases List.mem_cons.1 he with rfl | he
    · simp [find?]
    · have : x.1 ≠ e.1 := fun eq => String.lt_irrefl e.1 (eq ▸ hx e he)
      simp [find?, this, ih hrest he]

/-- Whatever is found stands in the list under the key. -/
theorem mem_of_find?_eq_some {key : String} {value : α} {entries : Entries α}
    (h : find? key entries = some value) : (key, value) ∈ entries := by
  induction entries with
  | nil => simp [find?] at h
  | cons x rest ih =>
    obtain ⟨k, v⟩ := x
    by_cases hk : k = key
    · simp [find?, hk] at h
      simp [hk, h]
    · simp [find?, hk] at h
      exact List.mem_cons_of_mem _ (ih h)

/-- What stands in a list is found, if not with this value. -/
theorem isSome_find?_of_mem {e : String × α} {entries : Entries α} (he : e ∈ entries) :
    (find? e.1 entries).isSome := by
  induction entries with
  | nil => simp at he
  | cons x rest ih =>
    obtain ⟨k, v⟩ := x
    by_cases hk : k = e.1
    · simp [find?, hk]
    · rcases List.mem_cons.1 he with rfl | he
      · exact absurd rfl hk
      · simpa [find?, hk] using ih he

end Entries

/-- A map from strings, listed in key order. -/
structure Keyed (α : Type) where
  /-- The entries in rising key order. -/
  entries : Entries α
  rising : Entries.Rising entries

namespace Keyed

variable {α β : Type}

/-- The map that holds nothing. -/
def empty : Keyed α :=
  ⟨[], List.Pairwise.nil⟩

instance : Inhabited (Keyed α) := ⟨empty⟩

/-- What is held under a key. -/
def find? (m : Keyed α) (key : String) : Option α :=
  Entries.find? key m.entries

/-- Whether something is held under a key. -/
def contains (m : Keyed α) (key : String) : Bool :=
  (m.find? key).isSome

/-- Hold a value under a key, in place of what was held there. -/
def put (m : Keyed α) (key : String) (value : α) : Keyed α :=
  ⟨Entries.put key value m.entries, Entries.put_rising m.rising⟩

/-- Hold nothing under a key. -/
def erase (m : Keyed α) (key : String) : Keyed α :=
  ⟨Entries.erase key m.entries, Entries.erase_rising m.rising⟩

/-- The map of a list of entries; of two entries with one key the later counts. -/
def ofList (pairs : Entries α) : Keyed α :=
  ⟨Entries.ofList pairs, Entries.ofList_rising pairs⟩

/-- The keys in rising order. -/
def keys (m : Keyed α) : List String :=
  m.entries.map Prod.fst

/-- What the keys hold, in key order. -/
def values (m : Keyed α) : List α :=
  m.entries.map Prod.snd

/-- How many keys hold something. -/
def size (m : Keyed α) : Nat :=
  m.entries.length

/-- Whether no key holds anything. -/
def isEmpty (m : Keyed α) : Bool :=
  m.entries.isEmpty

@[simp] theorem find?_empty (key : String) : (empty : Keyed α).find? key = none := rfl

@[simp] theorem length_keys (m : Keyed α) : m.keys.length = m.size :=
  List.length_map _

theorem find?_put (m : Keyed α) (key name : String) (value : α) :
    (m.put key value).find? name = if key = name then some value else m.find? name :=
  Entries.find?_put key name value m.entries

/-- A map holds under a key just what its entry with the key holds, of which there is one at most.
-/
theorem find?_eq_some_iff {m : Keyed α} {key : String} {value : α} :
    m.find? key = some value ↔ (key, value) ∈ m.entries :=
  ⟨Entries.mem_of_find?_eq_some, Entries.find?_eq_some_of_mem m.rising⟩

/-- Maps with the same answers to every look-up are equal.  They have the same entries, since what
is found under a key is its entry, and these stand in the order of their keys. -/
theorem ext_find? {m n : Keyed α} (h : ∀ key, m.find? key = n.find? key) : m = n := by
  obtain ⟨xs, hx⟩ := m
  obtain ⟨ys, hy⟩ := n
  have hmem : ∀ e, e ∈ xs ↔ e ∈ ys := by
    intro e
    have hkey : Entries.find? e.1 xs = Entries.find? e.1 ys := h e.1
    constructor
    · intro he
      exact Entries.mem_of_find?_eq_some (hkey.symm.trans (Entries.find?_eq_some_of_mem hx he))
    · intro he
      exact Entries.mem_of_find?_eq_some (hkey.trans (Entries.find?_eq_some_of_mem hy he))
  obtain rfl := Names.eq_of_rising String.lt_asymm hx hy hmem
  rfl

end Keyed

end GraphWarden
