import GraphWarden.Filter.Basic
import GraphWarden.Claims

/-!
# Binding claims

The variables of a rule's filter stand for claims.  Binding puts the claimed
values in their places; it fails when a variable has no claim, and what it
yields has no variables left (`bind?_occurrences`).
-/

namespace GraphWarden

namespace Value

mutual

/-- The value with every variable replaced by its claim. -/
def bind? (claims : Claims) : Value → Option Value
  | .variable name => (claims.find? name).map Claim.toValue
  | .list items => (bindItems? claims items).map .list
  | .object entries => (bindEntries? claims entries).map .object
  | v => some v

def bindItems? (claims : Claims) : List Value → Option (List Value)
  | [] => some []
  | v :: vs => do
    let w ← bind? claims v
    let ws ← bindItems? claims vs
    some (w :: ws)

def bindEntries? (claims : Claims) : List (String × Value) → Option (List (String × Value))
  | [] => some []
  | (k, v) :: es => do
    let w ← bind? claims v
    let ws ← bindEntries? claims es
    some ((k, w) :: ws)

end

mutual

/-- No variable is left in a value that was bound, however deep it stood. -/
theorem bind?_occurrences (claims : Claims) : (v w : Value) → bind? claims v = some w →
    w.occurrences = []
  | .variable name, w, h => by
    obtain ⟨c, _, rfl⟩ := Option.map_eq_some_iff.1 h
    exact Claim.occurrences_toValue c
  | .list items, w, h => by
    obtain ⟨ws, hws, rfl⟩ := Option.map_eq_some_iff.1 h
    exact bindItems?_occurrences claims items ws hws
  | .object entries, w, h => by
    obtain ⟨ws, hws, rfl⟩ := Option.map_eq_some_iff.1 h
    exact bindEntries?_occurrences claims entries ws hws
  | .int _, w, h | .float _, w, h | .text _, w, h | .flag _, w, h | .null, w, h
  | .enum _, w, h => by
    simp only [bind?, Option.some.injEq] at h
    subst h
    simp [occurrences]

/-- No variable is left in bound items. -/
theorem bindItems?_occurrences (claims : Claims) : (vs ws : List Value) →
    bindItems? claims vs = some ws → occurrencesItems ws = []
  | [], ws, h => by
    simp only [bindItems?, Option.some.injEq] at h
    subst h
    simp [occurrencesItems]
  | v :: vs, ws, h => by
    obtain ⟨w, hw, h⟩ := Option.bind_eq_some_iff.1 h
    obtain ⟨rest, hrest, h⟩ := Option.bind_eq_some_iff.1 h
    cases h
    simp [occurrencesItems, bind?_occurrences claims v w hw,
      bindItems?_occurrences claims vs rest hrest]

/-- No variable is left in bound entries. -/
theorem bindEntries?_occurrences (claims : Claims) : (es ws : List (String × Value)) →
    bindEntries? claims es = some ws → occurrencesEntries ws = []
  | [], ws, h => by
    simp only [bindEntries?, Option.some.injEq] at h
    subst h
    simp [occurrencesEntries]
  | (k, v) :: es, ws, h => by
    obtain ⟨w, hw, h⟩ := Option.bind_eq_some_iff.1 h
    obtain ⟨rest, hrest, h⟩ := Option.bind_eq_some_iff.1 h
    cases h
    simp [occurrencesEntries, bind?_occurrences claims v w hw,
      bindEntries?_occurrences claims es rest hrest]

end

end Value

namespace Filter

mutual

/-- The filter with every variable replaced by its claim. -/
def bind? (claims : Claims) : Filter → Option Filter
  | .compare field op operand => (operand.bind? claims).map (.compare field op)
  | .edge field inner => (bind? claims inner).map (.edge field)
  | .not inner => (bind? claims inner).map .not
  | .all parts => (bindParts? claims parts).map .all
  | .any parts => (bindParts? claims parts).map .any
  | f => some f

def bindParts? (claims : Claims) : List Filter → Option (List Filter)
  | [] => some []
  | f :: fs => do
    let g ← bind? claims f
    let gs ← bindParts? claims fs
    some (g :: gs)

end

mutual

/-- No variable is left in a filter that was bound. -/
theorem bind?_occurrences (claims : Claims) : (f g : Filter) → bind? claims f = some g →
    g.occurrences = []
  | .compare _ _ operand, g, h => by
    obtain ⟨w, hw, rfl⟩ := Option.map_eq_some_iff.1 h
    exact Value.bind?_occurrences claims operand w hw
  | .edge _ inner, g, h => by
    obtain ⟨i, hi, rfl⟩ := Option.map_eq_some_iff.1 h
    simpa [occurrences] using bind?_occurrences claims inner i hi
  | .not inner, g, h => by
    obtain ⟨i, hi, rfl⟩ := Option.map_eq_some_iff.1 h
    simpa [occurrences] using bind?_occurrences claims inner i hi
  | .all parts, g, h => by
    obtain ⟨ps, hps, rfl⟩ := Option.map_eq_some_iff.1 h
    simpa [occurrences] using bindParts?_occurrences claims parts ps hps
  | .any parts, g, h => by
    obtain ⟨ps, hps, rfl⟩ := Option.map_eq_some_iff.1 h
    simpa [occurrences] using bindParts?_occurrences claims parts ps hps
  | .nothing, g, h | .has _, g, h | .ids _, g, h | .isType _, g, h => by
    simp only [bind?, Option.some.injEq] at h
    subst h
    simp [occurrences]

/-- No variable is left in bound parts. -/
theorem bindParts?_occurrences (claims : Claims) : (fs gs : List Filter) →
    bindParts? claims fs = some gs → occurrencesParts gs = []
  | [], gs, h => by
    simp only [bindParts?, Option.some.injEq] at h
    subst h
    simp [occurrencesParts]
  | f :: fs, gs, h => by
    obtain ⟨g, hg, h⟩ := Option.bind_eq_some_iff.1 h
    obtain ⟨rest, hrest, h⟩ := Option.bind_eq_some_iff.1 h
    cases h
    simp [occurrencesParts, bind?_occurrences claims f g hg,
      bindParts?_occurrences claims fs rest hrest]

end

end Filter

end GraphWarden
