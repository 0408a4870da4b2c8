import GraphWarden.Proofs.Store.Shown
import GraphWarden.Union

/-!
# Answers put together

The records of several answers are put together by id, and of two with one id the first
stays.  When the records are **coherent**, that is, when one id stands for one record,
it does not matter which comes first: what is put together is the set of records, in the
order of their ids (`find?_merged_iff`, `values_merged`).  Nothing is lost either when each
answer stops at the limit that the whole has (`upTo_values_merged`).

Records that the same selections make of stored nodes are coherent
(`coherent_shownRecord`).
-/

namespace GraphWarden

/-! ### Limits -/

section Limits

variable {α β : Type} {limit : Option Nat}

/-- A limit counts elements, and does not care what they are mapped to. -/
theorem upTo_map (f : α → β) (xs : List α) : upTo limit (xs.map f) = (upTo limit xs).map f := by
  cases limit with
  | none => rfl
  | some n => exact (List.map_take).symm

theorem upTo_rising {R : α → α → Prop} {xs : List α} (h : xs.Pairwise R) :
    (upTo limit xs).Pairwise R := by
  cases limit with
  | none => exact h
  | some n => exact h.sublist (List.take_sublist _ _)

/-- What is within the limit stays there when others are left out. -/
theorem mem_upTo_filter {p : α → Bool} {x : α} {xs : List α} (hx : x ∈ upTo limit xs)
    (hp : p x = true) : x ∈ upTo limit (xs.filter p) := by
  cases limit with
  | none => exact List.mem_filter.2 ⟨hx, hp⟩
  | some n =>
      unfold upTo at hx ⊢
      simp only at hx ⊢
      generalize max n 1 = k at hx
      induction xs generalizing k with
      | nil => simp at hx
      | cons y ys ih =>
          cases k with
          | zero => simp at hx
          | succ k =>
              rw [List.take_succ_cons] at hx
              by_cases hy : p y = true
              · rw [List.filter_cons_of_pos hy, List.take_succ_cons]
                rcases List.mem_cons.1 hx with rfl | hx
                · exact List.mem_cons_self
                · exact List.mem_cons_of_mem _ (ih k hx)
              · rw [List.filter_cons_of_neg hy]
                rcases List.mem_cons.1 hx with rfl | hx
                · exact absurd hp hy
                · exact List.take_subset_take_left _ (Nat.le_succ k) (ih k hx)

/-- Leaving out what is behind the limit changes nothing. -/
theorem upTo_filter {p : α → Bool} {xs : List α} (h : ∀ x ∈ upTo limit xs, p x = true) :
    upTo limit (xs.filter p) = upTo limit xs := by
  cases limit with
  | none => exact List.filter_eq_self.2 h
  | some n =>
      unfold upTo at h ⊢
      simp only at h ⊢
      generalize max n 1 = k at h
      induction xs generalizing k with
      | nil => rfl
      | cons y ys ih =>
          cases k with
          | zero => rfl
          | succ k =>
              rw [List.take_succ_cons] at h
              rw [List.filter_cons_of_pos (h y List.mem_cons_self), List.take_succ_cons,
                List.take_succ_cons, ih k fun x hx => h x (List.mem_cons_of_mem _ hx)]

end Limits

/-- One id stands for one record. -/
def Coherent (records : List Record) : Prop :=
  ∀ r ∈ records, ∀ r' ∈ records, r.id = r'.id → r = r'

theorem Coherent.subset {records records' : List Record} (h : Coherent records)
    (hsubset : ∀ r ∈ records', r ∈ records) : Coherent records' :=
  fun r hr r' hr' => h r (hsubset r hr) r' (hsubset r' hr')

/-- Of coherent records the one with a given id is found, and no other is. -/
theorem Coherent.find?_iff {records : List Record} (h : Coherent records) {id : String}
    {r : Record} : (records.find? fun r => r.id == id) = some r ↔ r ∈ records ∧ r.id = id := by
  constructor
  · intro hfind
    exact ⟨List.mem_of_find?_eq_some hfind, by simpa using List.find?_some hfind⟩
  · rintro ⟨hr, hid⟩
    cases hfind : records.find? fun r => r.id == id with
    | none => exact absurd hid (by simpa using List.find?_eq_none.1 hfind r hr)
    | some r' =>
        have hid' : r'.id = id := by simpa using List.find?_some hfind
        rw [h r hr r' (List.mem_of_find?_eq_some hfind) (hid.trans hid'.symm)]

/-- One id stands for one node, so it stands for one record of given selections. -/
theorem coherent_shownRecord {g : Graph} {sees : Node → Bool} {selections : List Selection}
    {records : List Record}
    (h : ∀ r ∈ records, ∃ n ∈ g.toList, r = g.shownRecord sees selections n) :
    Coherent records := by
  intro r hr r' hr' hid
  obtain ⟨n, hn, rfl⟩ := h r hr
  obtain ⟨n', hn', rfl⟩ := h r' hr'
  have hnodes : n.id = n'.id := hid
  have hfind := Graph.mem_toList_iff.1 hn
  rw [hnodes, Graph.mem_toList_iff.1 hn'] at hfind
  rw [Option.some.inj hfind]

namespace Client

/-- Merging keeps what is there and adds of each id the first record. -/
theorem find?_merge (records : List Record) (id : String) : ∀ m : Keyed Record,
    (merge m records).find? id = (m.find? id).or (records.find? fun r => r.id == id) := by
  induction records with
  | nil => exact fun m => by simp [merge]
  | cons r records ih =>
      intro m
      have hstep : merge m (r :: records) =
          merge (if m.contains r.id then m else m.put r.id r) records := rfl
      rw [hstep, ih, List.find?_cons]
      by_cases hid : r.id = id
      · subst hid
        cases hm : m.find? r.id with
        | none => simp [Keyed.contains, hm, Keyed.find?_put]
        | some _ => simp [Keyed.contains, hm]
      · have hrid : (r.id == id) = false := by simpa using hid
        rw [hrid]
        split
        · rfl
        · rw [Keyed.find?_put, if_neg hid]

/-- What is put together has under each id what was there before, or else the first record with it.
-/
theorem find?_merged (answers : List (List Record)) (id : String) : ∀ m : Keyed Record,
    (answers.foldl merge m).find? id =
      (m.find? id).or (answers.flatten.find? fun r => r.id == id) := by
  induction answers with
  | nil => simp
  | cons records answers ih =>
      intro m
      rw [List.foldl_cons, ih, find?_merge, List.flatten_cons, List.find?_append, Option.or_assoc]

/-- What is put together are the records of all answers. -/
theorem find?_merged_iff {answers : List (List Record)} (h : Coherent answers.flatten)
    {id : String} {r : Record} :
    (answers.foldl merge Keyed.empty).find? id = some r ↔ r ∈ answers.flatten ∧ r.id = id := by
  rw [find?_merged, Keyed.find?_empty, Option.none_or]
  exact h.find?_iff

/-- Answers with the same records make the same whole. -/
theorem merged_congr {answers answers' : List (List Record)} (h : Coherent answers.flatten)
    (hsame : ∀ r, r ∈ answers'.flatten ↔ r ∈ answers.flatten) :
    answers'.foldl merge Keyed.empty = answers.foldl merge Keyed.empty := by
  refine Keyed.ext_find? fun id => Option.ext fun r => ?_
  rw [find?_merged_iff (h.subset fun r hr => (hsame r).1 hr), find?_merged_iff h, hsame]

/-- The whole lists the records in the order of their ids. -/
theorem values_merged {answers : List (List Record)} {records : List Record}
    (hrising : records.Pairwise fun r r' => r.id < r'.id)
    (hsame : ∀ r, r ∈ records ↔ r ∈ answers.flatten) :
    (answers.foldl merge Keyed.empty).values = records := by
  let whole : Keyed Record :=
    ⟨records.map fun r => (r.id, r), List.pairwise_map.2 hrising⟩
  have hcoherent : Coherent records := by
    intro r hr r' hr' hid
    have hentries := whole.rising
    have hfind := Entries.find?_eq_some_of_mem hentries (List.mem_map_of_mem hr)
    have hfind' := Entries.find?_eq_some_of_mem hentries (List.mem_map_of_mem hr')
    simp only [hid] at hfind
    exact Option.some.inj (hfind.symm.trans hfind')
  have hwhole : answers.foldl merge Keyed.empty = whole := by
    refine Keyed.ext_find? fun id => Option.ext fun r => ?_
    rw [find?_merged_iff (hcoherent.subset fun r hr => (hsame r).2 hr), ← hsame,
      Keyed.find?_eq_some_iff]
    constructor
    · rintro ⟨hr, rfl⟩
      exact List.mem_map_of_mem hr
    · intro he
      obtain ⟨r', hr', heq⟩ := List.mem_map.1 he
      cases heq
      exact ⟨hr', rfl⟩
  rw [hwhole, Keyed.values, List.map_map]
  exact List.map_id records

/-- Answers that have the first records of a whole, and nothing that is not of the whole,
make the first records of the whole. -/
theorem upTo_values_merged {answers : List (List Record)} {whole : List Record}
    {limit : Option Nat} (hrising : whole.Pairwise fun r r' => r.id < r'.id)
    (hwhole : ∀ r ∈ answers.flatten, r ∈ whole)
    (hfirst : ∀ r ∈ upTo limit whole, r ∈ answers.flatten) :
    upTo limit (answers.foldl merge Keyed.empty).values = upTo limit whole := by
  classical
  let arrived : Record → Bool := fun r => decide (r ∈ answers.flatten)
  have hvalues : (answers.foldl merge Keyed.empty).values = whole.filter arrived := by
    refine values_merged (hrising.filter arrived) fun r => ?_
    rw [List.mem_filter, decide_eq_true_eq]
    exact ⟨fun h => h.2, fun h => ⟨hwhole r h, h⟩⟩
  rw [hvalues, upTo_filter fun r hr => decide_eq_true (hfirst r hr)]

end Client

end GraphWarden
