import Mathlib.Data.List.Forall2
import GraphWarden.Filter.Argument
import GraphWarden.Proofs.Store.Shown

/-!
# What is read of a filter argument

An argument is read key by key, and what is read of a key depends on the key alone
(`conditionsOf_cons_cases`): `has` asks for the fields that it lists (`presence_eq`), `id` for its
ids (`identity_eq`), a field for one comparison with each of its operators
(`comparisonsOf_forall₂`), and a key that joins for what is read of its objects
(`children_cases`, `childrenOf_cons_cases`).
-/

namespace GraphWarden.Filter

variable {fs : List Filter} {key field : String} {arg : Value}

/-! ### Names and operators -/

/-- The names that `has` or `id` is given: one, or those of a list. -/
def listed : Value → List String
  | .list items => items.filterMap Value.asText
  | arg => arg.asText.toList

/-- A list of fields that is read at all has nothing but texts in it, and asks for each of them. -/
theorem presences_eq : (vs : List Value) → (fs : List Filter) → presences vs = .ok fs →
    fs = (vs.filterMap Value.asText).map .has
  | [], fs, h => by
      cases h
      rfl
  | v :: vs, fs, h => by
      rw [presences] at h
      cases hname : v.asText with
      | none => simp [hname] at h
      | some name =>
          rw [hname] at h
          obtain ⟨others, hothers, rfl⟩ := exists_of_map_eq_ok h
          rw [presences_eq vs others hothers, List.filterMap_cons_some hname, List.map_cons]

/-- `has` asks for each field that it lists. -/
theorem presence_eq (h : presence arg = .ok fs) : fs = (listed arg).map .has := by
  unfold presence at h
  split at h
  · cases h
    rfl
  · cases h
    rfl
  · exact presences_eq _ fs h
  · cases h

/-- A list of ids that is read at all is a list of texts, and these are the ids. -/
theorem idTexts_eq : (vs : List Value) → (names : List String) → idTexts vs = .ok names →
    names = vs.filterMap Value.asText
  | [], names, h => by
      cases h
      rfl
  | v :: vs, names, h => by
      rw [idTexts] at h
      cases hname : v.asText with
      | none => simp [hname] at h
      | some name =>
          rw [hname] at h
          obtain ⟨others, hothers, rfl⟩ := exists_of_map_eq_ok h
          rw [idTexts_eq vs others hothers, List.filterMap_cons_some hname]

/-- `id` asks for the ids that it lists. -/
theorem identity_eq (h : identity arg = .ok fs) : fs = [.ids (listed arg)] := by
  unfold identity at h
  split at h
  · obtain ⟨names, hnames, rfl⟩ := exists_of_map_eq_ok h
    rw [idTexts_eq _ names hnames, listed]
  · cases h

/-- A field is compared with the operand of each of its operators. -/
theorem comparisonsOf_forall₂ : (es : List (String × Value)) → (fs : List Filter) →
    comparisonsOf field es = .ok fs →
      List.Forall₂ (fun e f => ∃ op, Comparison.ofName? e.1 = some op ∧
        f = .compare field op e.2) es fs
  | [], fs, h => by
      cases h
      exact .nil
  | (operator, operand) :: rest, fs, h => by
      rw [comparisonsOf] at h
      split at h
      · cases h
      · next op hop =>
          split at h
          · obtain ⟨others, hothers, rfl⟩ := exists_of_map_eq_ok h
            exact .cons ⟨op, hop, rfl⟩ (comparisonsOf_forall₂ rest others hothers)
          · cases h

/-- The operators of a field stand in an object, and there is at least one. -/
theorem comparisons_cases (h : comparisons field arg = .ok fs) :
    ∃ operators, arg = .object operators ∧ operators ≠ [] ∧
      List.Forall₂ (fun e f => ∃ op, Comparison.ofName? e.1 = some op ∧
        f = .compare field op e.2) operators fs := by
  unfold comparisons at h
  split at h
  · cases h
  · next operators hoperators =>
      exact ⟨operators, rfl, hoperators, comparisonsOf_forall₂ operators fs h⟩
  · cases h

/-! ### Joining keys -/

theorem group_eq_nil_iff {join : List Filter → Filter} : group join fs = [] ↔ fs = [] := by
  cases fs <;> simp [group]

theorem conjunction?_eq_none_iff : conjunction? fs = none ↔ fs = [] := by
  cases fs <;> simp [conjunction?]

/-- The list of a joining key is read one object after the other. -/
theorem childrenOf_cons_cases {v : Value} {vs : List Value} (h : childrenOf (v :: vs) = .ok fs) :
    ∃ entries parts others, v = .object entries ∧ conditionsOf entries = .ok parts ∧
      childrenOf vs = .ok others ∧ fs = (conjunction? parts).toList ++ others := by
  cases v with
  | object entries =>
      rw [childrenOf] at h
      obtain ⟨parts, hparts, h⟩ := exists_of_bind_eq_ok h
      obtain ⟨others, hothers, h⟩ := exists_of_bind_eq_ok h
      exact ⟨entries, parts, others, rfl, hparts, hothers, (Except.ok.inj h).symm⟩
  | list _ | «variable» _ | int _ | float _ | text _ | flag _ | null | enum _ =>
      simp [childrenOf] at h

/-- A joining key is given an object or a list. -/
theorem children_cases (h : children key arg = .ok fs) :
    (∃ items, arg = .list items ∧ childrenOf items = .ok fs) ∨
      ∃ entries parts, arg = .object entries ∧ conditionsOf entries = .ok parts ∧
        fs = (conjunction? parts).toList := by
  cases arg with
  | list items =>
      rw [children] at h
      exact .inl ⟨items, rfl, h⟩
  | object entries =>
      rw [children] at h
      obtain ⟨parts, hparts, rfl⟩ := exists_of_map_eq_ok h
      exact .inr ⟨entries, parts, rfl, hparts, rfl⟩
  | «variable» _ | int _ | float _ | text _ | flag _ | null | enum _ => simp [children] at h

/-- What a key of an object asks for, and what the keys behind it ask for.  There are six ways to
read a key, and which one applies depends on the key alone. -/
theorem conditionsOf_cons_cases {rest : List (String × Value)}
    (h : conditionsOf ((key, arg) :: rest) = .ok fs) :
    ∃ here others, fs = here ++ others ∧ conditionsOf rest = .ok others ∧
      ((Key.ofName key = .all ∧ ∃ parts, children key arg = .ok parts ∧
          here = group andAll parts) ∨
        (Key.ofName key = .any ∧ ∃ parts, children key arg = .ok parts ∧
          here = group orAll parts) ∨
        (Key.ofName key = .not ∧ ∃ entries parts, arg = .object entries ∧
          conditionsOf entries = .ok parts ∧ here = (conjunction? parts).toList.map .not) ∨
        (Key.ofName key = .has ∧ presence arg = .ok here) ∨
        (Key.ofName key = .id ∧ identity arg = .ok here) ∨
        (Key.ofName key = .field ∧ comparisons key arg = .ok here)) := by
  have hparts : ∀ {x : Except Flaw (List Filter)},
      (do let here ← x; let others ← conditionsOf rest; .ok (here ++ others)) = Except.ok fs →
      ∃ here others, fs = here ++ others ∧ conditionsOf rest = .ok others ∧ x = .ok here := by
    intro x hx
    obtain ⟨here, hhere, hx⟩ := exists_of_bind_eq_ok hx
    obtain ⟨others, hothers, hx⟩ := exists_of_bind_eq_ok hx
    exact ⟨here, others, (Except.ok.inj hx).symm, hothers, hhere⟩
  unfold conditionsOf at h
  cases hkey : Key.ofName key <;> simp only [hkey] at h
  case all =>
    obtain ⟨here, others, hfs, hothers, hhere⟩ := hparts h
    obtain ⟨parts, hchildren, rfl⟩ := exists_of_map_eq_ok hhere
    exact ⟨_, others, hfs, hothers, .inl ⟨rfl, parts, hchildren, rfl⟩⟩
  case any =>
    obtain ⟨here, others, hfs, hothers, hhere⟩ := hparts h
    obtain ⟨parts, hchildren, rfl⟩ := exists_of_map_eq_ok hhere
    exact ⟨_, others, hfs, hothers, .inr (.inl ⟨rfl, parts, hchildren, rfl⟩)⟩
  case not =>
    split at h
    · next entries =>
        obtain ⟨here, others, hfs, hothers, hhere⟩ := hparts h
        obtain ⟨parts, hinner, rfl⟩ := exists_of_map_eq_ok hhere
        exact ⟨_, others, hfs, hothers,
          .inr (.inr (.inl ⟨rfl, entries, parts, rfl, hinner, rfl⟩))⟩
    · simp [bind, Except.bind] at h
  case has =>
    obtain ⟨here, others, hfs, hothers, hhere⟩ := hparts h
    exact ⟨here, others, hfs, hothers, .inr (.inr (.inr (.inl ⟨rfl, hhere⟩)))⟩
  case id =>
    obtain ⟨here, others, hfs, hothers, hhere⟩ := hparts h
    exact ⟨here, others, hfs, hothers, .inr (.inr (.inr (.inr (.inl ⟨rfl, hhere⟩))))⟩
  case field =>
    obtain ⟨here, others, hfs, hothers, hhere⟩ := hparts h
    exact ⟨here, others, hfs, hothers, .inr (.inr (.inr (.inr (.inr ⟨rfl, hhere⟩))))⟩

end GraphWarden.Filter
