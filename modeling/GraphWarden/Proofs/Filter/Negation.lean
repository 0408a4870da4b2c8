import GraphWarden.Filter.Bind
import GraphWarden.Proofs.Filter.Conditions
import GraphWarden.Proofs.Filter.Repeats

/-!
# Negations in filters

Whether a negation stands somewhere in a filter (`Filter.holdsNegation`) is settled when the filter
is written: putting filters together, dropping repeats and filling in claims neither adds one nor
takes one away (`holdsNegation_andAll`, `holdsNegation_orAll`, `holdsNegation_bind?`).

There is one way to lose it.  `nothing` among the parts of a conjunction makes the whole `nothing`,
whatever the other parts are, and so does a disjunction of nothing.  Neither can be written as an
argument: **such a filter is solid** (`solid_of_conditionsOf`), it holds no `nothing` and joins at
least one part wherever it joins.
-/

namespace GraphWarden.Filter

mutual

/-- A negation stands somewhere in the filter, at any depth. -/
def holdsNegation : Filter → Bool
  | .not _ => true
  | .edge _ inner => holdsNegation inner
  | .all parts | .any parts => partsHoldNegation parts
  | .nothing | .compare _ _ _ | .has _ | .ids _ | .isType _ => false

def partsHoldNegation : List Filter → Bool
  | [] => false
  | f :: fs => holdsNegation f || partsHoldNegation fs

end

mutual

/-- The filter holds no `nothing`, and what it joins is not empty. -/
def Solid : Filter → Prop
  | .nothing => False
  | .edge _ inner | .not inner => Solid inner
  | .all parts | .any parts => parts ≠ [] ∧ AllSolid parts
  | .compare _ _ _ | .has _ | .ids _ | .isType _ => True

def AllSolid : List Filter → Prop
  | [] => True
  | f :: fs => Solid f ∧ AllSolid fs

end

variable {f g : Filter} {fs gs kept : List Filter}

/-- A negation stands in a list of filters when it stands in one of them. -/
theorem partsHoldNegation_eq (fs : List Filter) :
    partsHoldNegation fs = fs.any holdsNegation := by
  induction fs with
  | nil => rfl
  | cons f fs ih => rw [partsHoldNegation, ih, List.any_cons]

theorem allSolid_iff : AllSolid fs ↔ ∀ f ∈ fs, f.Solid := by
  induction fs with
  | nil => simp [AllSolid]
  | cons f fs ih => simp [AllSolid, ih]

theorem Solid.isNothing (h : f.Solid) : f.isNothing = false := by
  cases f with
  | nothing => exact absurd h (by simp [Solid])
  | _ => rfl

/-- What a solid filter is a conjunction of is solid, there is some of it, and a negation stands in
it if one stands in the filter. -/
theorem Solid.conjuncts (h : f.Solid) :
    f.conjuncts ≠ [] ∧ (∀ part ∈ f.conjuncts, part.Solid) ∧
      f.conjuncts.any holdsNegation = f.holdsNegation := by
  cases f with
  | all parts =>
      rw [Solid, allSolid_iff] at h
      exact ⟨h.1, h.2, by rw [holdsNegation, partsHoldNegation_eq, Filter.conjuncts]⟩
  | _ => exact ⟨by simp [Filter.conjuncts], by simpa [Filter.conjuncts] using h,
      by simp [Filter.conjuncts]⟩

/-- What a solid filter is a disjunction of is solid. -/
theorem Solid.disjuncts (h : f.Solid) :
    f.disjuncts ≠ [] ∧ (∀ part ∈ f.disjuncts, part.Solid) ∧
      f.disjuncts.any holdsNegation = f.holdsNegation := by
  cases f with
  | any parts =>
      rw [Solid, allSolid_iff] at h
      exact ⟨h.1, h.2, by rw [holdsNegation, partsHoldNegation_eq, Filter.disjuncts]⟩
  | _ => exact ⟨by simp [Filter.disjuncts], by simpa [Filter.disjuncts] using h,
      by simp [Filter.disjuncts]⟩

mutual

/-- Filters of one structure hold negations alike. -/
theorem holdsNegation_of_same : (f g : Filter) → same f g = true →
    f.holdsNegation = g.holdsNegation
  | .nothing, g, h | .compare _ _ _, g, h | .has _, g, h | .ids _, g, h | .isType _, g, h => by
      cases g <;> simp [same] at h
      simp [holdsNegation]
  | .not _, g, h => by
      cases g <;> simp [same] at h
      simp [holdsNegation]
  | .edge _ x, g, h => by
      cases g <;> simp [same] at h
      simpa [holdsNegation] using holdsNegation_of_same x _ h.2
  | .all xs, g, h => by
      cases g <;> simp [same] at h
      simpa [holdsNegation] using partsHoldNegation_of_same xs _ h
  | .any xs, g, h => by
      cases g <;> simp [same] at h
      simpa [holdsNegation] using partsHoldNegation_of_same xs _ h

/-- Negations stand at the same places in lists of one structure. -/
theorem partsHoldNegation_of_same : (fs gs : List Filter) → sameParts fs gs = true →
    partsHoldNegation fs = partsHoldNegation gs
  | [], gs, h => by
      cases gs with
      | nil => rfl
      | cons g gs => simp [sameParts] at h
  | f :: fs, gs, h => by
      cases gs with
      | nil => simp [sameParts] at h
      | cons g gs =>
          simp only [sameParts, Bool.and_eq_true] at h
          rw [partsHoldNegation, partsHoldNegation, holdsNegation_of_same f g h.1,
            partsHoldNegation_of_same fs gs h.2]

end

/-! ### Putting filters together -/

/-- Dropping repeats drops no negation: what is repeated is kept. -/
theorem any_holdsNegation_unrepeated (fs : List Filter) :
    (unrepeated [] fs).any holdsNegation = fs.any holdsNegation := by
  rw [Bool.eq_iff_iff, List.any_eq_true, List.any_eq_true]
  constructor
  · rintro ⟨f, hf, hneg⟩
    have hmem : f ∈ fs := (mem_of_mem_unrepeated hf).resolve_left (by simp)
    exact ⟨f, hmem, hneg⟩
  · rintro ⟨f, hf, hneg⟩
    obtain ⟨g, hg, hsame⟩ := List.any_eq_true.1 (any_unrepeated [] hf)
    exact ⟨g, hg, (holdsNegation_of_same g f hsame).trans hneg⟩

/-- The parts that solid filters are taken apart into, without repeats. -/
theorem unrepeated_parts {parts : Filter → List Filter} (hne : fs ≠ [])
    (hparts : ∀ f ∈ fs, parts f ≠ [] ∧ (∀ part ∈ parts f, part.Solid) ∧
      (parts f).any holdsNegation = f.holdsNegation) :
    unrepeated [] (fs.flatMap parts) ≠ [] ∧
      (∀ part ∈ unrepeated [] (fs.flatMap parts), part.Solid) ∧
      (unrepeated [] (fs.flatMap parts)).any holdsNegation = fs.any holdsNegation := by
  refine ⟨?_, ?_, ?_⟩
  · intro hempty
    obtain ⟨f, hf⟩ := List.exists_mem_of_ne_nil fs hne
    obtain ⟨part, hpart⟩ := List.exists_mem_of_ne_nil _ (hparts f hf).1
    have hkept := any_unrepeated [] (List.mem_flatMap.2 ⟨f, hf, hpart⟩)
    simp [hempty] at hkept
  · intro part hpart
    have hmem := (mem_of_mem_unrepeated hpart).resolve_left (by simp)
    obtain ⟨f, hf, hin⟩ := List.mem_flatMap.1 hmem
    exact (hparts f hf).2.1 part hin
  · rw [any_holdsNegation_unrepeated, Bool.eq_iff_iff, List.any_eq_true, List.any_eq_true]
    constructor
    · rintro ⟨part, hpart, hneg⟩
      obtain ⟨f, hf, hin⟩ := List.mem_flatMap.1 hpart
      have hany : (parts f).any holdsNegation = true := List.any_eq_true.2 ⟨part, hin, hneg⟩
      exact ⟨f, hf, (hparts f hf).2.2 ▸ hany⟩
    · rintro ⟨f, hf, hneg⟩
      rw [← (hparts f hf).2.2] at hneg
      obtain ⟨part, hin, hpart⟩ := List.any_eq_true.1 hneg
      exact ⟨part, List.mem_flatMap.2 ⟨f, hf, hin⟩, hpart⟩

/-- **A conjunction of solid filters is solid and holds the negations of its parts.** -/
theorem andAll_of_solid (hne : fs ≠ []) (hsolid : ∀ f ∈ fs, f.Solid) :
    (andAll fs).Solid ∧ (andAll fs).holdsNegation = fs.any holdsNegation := by
  obtain ⟨hkept, hkeptSolid, hnegation⟩ :=
    unrepeated_parts hne fun f hf => (hsolid f hf).conjuncts
  have hopen : ¬ fs.any isNothing = true := by
    intro hnothing
    obtain ⟨f, hf, hf'⟩ := List.any_eq_true.1 hnothing
    simp [(hsolid f hf).isNothing] at hf'
  rw [andAll, if_neg hopen]
  split
  · next f hf =>
      rw [hf] at hkeptSolid hnegation
      exact ⟨hkeptSolid f List.mem_cons_self, by simpa using hnegation⟩
  · refine ⟨?_, ?_⟩
    · rw [Solid, allSolid_iff]
      exact ⟨hkept, hkeptSolid⟩
    · rw [holdsNegation, partsHoldNegation_eq, hnegation]

/-- **A disjunction of solid filters is solid and holds the negations of its parts.** -/
theorem orAll_of_solid (hne : fs ≠ []) (hsolid : ∀ f ∈ fs, f.Solid) :
    (orAll fs).Solid ∧ (orAll fs).holdsNegation = fs.any holdsNegation := by
  obtain ⟨hkept, hkeptSolid, hnegation⟩ :=
    unrepeated_parts hne fun f hf => (hsolid f hf).disjuncts
  have hopen : (fs.filter fun f => !f.isNothing) = fs := by
    rw [List.filter_eq_self]
    intro f hf
    simp [(hsolid f hf).isNothing]
  rw [orAll, hopen]
  split
  · next hnone => exact absurd hnone hkept
  · next f hf =>
      rw [hf] at hkeptSolid hnegation
      exact ⟨hkeptSolid f List.mem_cons_self, by simpa using hnegation⟩
  · refine ⟨?_, ?_⟩
    · rw [Solid, allSolid_iff]
      exact ⟨hkept, hkeptSolid⟩
    · rw [holdsNegation, partsHoldNegation_eq, hnegation]

/-- A conjunction that may be missing is solid where it is there, and has kept the negations. -/
theorem conjunction?_of_solid (hsolid : ∀ f ∈ fs, f.Solid) :
    (∀ f ∈ conjunction? fs, f.Solid) ∧
      (conjunction? fs).any holdsNegation = fs.any holdsNegation := by
  cases fs with
  | nil => simp [conjunction?]
  | cons f fs =>
      obtain ⟨hwhole, hnegation⟩ := andAll_of_solid (by simp) hsolid
      exact ⟨by simpa [conjunction?] using hwhole, by simpa [conjunction?] using hnegation⟩

mutual

/-- Filling in claims changes neither. -/
theorem bind?_of_solid {claims : Claims} : (f f' : Filter) → f.bind? claims = some f' →
    f.Solid → f'.Solid ∧ f'.holdsNegation = f.holdsNegation
  | .compare _ _ operand, f', h, _ => by
      obtain ⟨w, _, rfl⟩ := Option.map_eq_some_iff.1 h
      exact ⟨by simp [Solid], by simp [holdsNegation]⟩
  | .edge _ inner, f', h, hsolid => by
      obtain ⟨i, hi, rfl⟩ := Option.map_eq_some_iff.1 h
      simpa [Solid, holdsNegation] using bind?_of_solid inner i hi (by simpa [Solid] using hsolid)
  | .not inner, f', h, hsolid => by
      obtain ⟨i, hi, rfl⟩ := Option.map_eq_some_iff.1 h
      have hinner := bind?_of_solid inner i hi (by simpa [Solid] using hsolid)
      exact ⟨by simpa [Solid] using hinner.1, by simp [holdsNegation]⟩
  | .all parts, f', h, hsolid | .any parts, f', h, hsolid => by
      obtain ⟨ps, hps, rfl⟩ := Option.map_eq_some_iff.1 h
      rw [Solid] at hsolid
      have hparts := bindParts?_of_solid parts ps hps hsolid.2
      simpa [Solid, holdsNegation] using ⟨⟨hparts.1 hsolid.1, hparts.2.1⟩, hparts.2.2⟩
  | .has _, f', h, _ | .ids _, f', h, _ | .isType _, f', h, _ => by
      simp only [bind?, Option.some.injEq] at h
      subst h
      simp [Solid]
  | .nothing, _, _, hsolid => by simp [Solid] at hsolid

/-- Binding the parts of a filter loses none of them, and so no negation either; and what was solid
stays solid. -/
theorem bindParts?_of_solid {claims : Claims} : (fs gs : List Filter) →
    bindParts? claims fs = some gs → AllSolid fs →
    (fs ≠ [] → gs ≠ []) ∧ AllSolid gs ∧ partsHoldNegation gs = partsHoldNegation fs
  | [], gs, h, _ => by
      simp only [bindParts?, Option.some.injEq] at h
      subst h
      simp [AllSolid]
  | f :: fs, gs, h, hsolid => by
      obtain ⟨g, hg, h⟩ := Option.bind_eq_some_iff.1 h
      obtain ⟨rest, hrest, h⟩ := Option.bind_eq_some_iff.1 h
      cases h
      rw [AllSolid] at hsolid
      obtain ⟨hhead, hnegation⟩ := bind?_of_solid f g hg hsolid.1
      obtain ⟨_, htail, hnegations⟩ := bindParts?_of_solid fs rest hrest hsolid.2
      exact ⟨by simp, by simp [AllSolid, hhead, htail],
        by simp [partsHoldNegation, hnegation, hnegations]⟩

end

/-! ### What is written as an argument -/

theorem solid_of_presence {v : Value} {fs : List Filter} (h : presence v = .ok fs) :
    ∀ f ∈ fs, f.Solid := by
  rw [presence_eq h]
  simp [Solid]

theorem solid_of_identity {v : Value} {fs : List Filter} (h : identity v = .ok fs) :
    ∀ f ∈ fs, f.Solid := by
  rw [identity_eq h]
  simp [Solid]

/-- The comparisons of a field make solid filters, each of them for one key of the object. -/
theorem solid_of_comparisons {field : String} {v : Value} {fs : List Filter}
    (h : comparisons field v = .ok fs) : ∀ f ∈ fs, f.Solid := by
  obtain ⟨operators, -, -, hcompare⟩ := comparisons_cases h
  clear h
  induction hcompare with
  | nil => simp
  | cons hfirst _ ih =>
      obtain ⟨op, -, rfl⟩ := hfirst
      exact List.forall_mem_cons.2 ⟨trivial, ih⟩

/-- A group makes a filter only when it has children. -/
theorem solid_group {join : List Filter → Filter}
    (hjoin : ∀ fs, fs ≠ [] → (∀ f ∈ fs, f.Solid) → (join fs).Solid)
    (h : ∀ f ∈ fs, f.Solid) : ∀ f ∈ group join fs, f.Solid := by
  cases fs with
  | nil => simp [group]
  | cons f fs =>
      intro g hg
      obtain rfl := List.mem_singleton.1 (by simpa [group] using hg)
      exact hjoin _ (by simp) h

/-- Joining filters makes a solid filter, when each of them is solid. -/
theorem solid_conjunction (h : ∀ f ∈ fs, f.Solid) :
    ∀ f ∈ (conjunction? fs).toList, f.Solid := by
  intro f hf
  exact (conjunction?_of_solid h).1 f (by simpa using hf)

mutual

/-- What is nested under `and`, `or` or `not` is read recursively, and is solid as long as each
item is. -/
theorem solid_of_children {key : String} : (v : Value) → (fs : List Filter) →
    children key v = .ok fs → ∀ f ∈ fs, f.Solid
  | .list items, fs, h => by
      rw [children] at h
      exact solid_of_childrenOf items fs h
  | .object entries, fs, h => by
      rw [children] at h
      obtain ⟨parts, hparts, rfl⟩ := exists_of_map_eq_ok h
      exact solid_conjunction (solid_of_conditionsOf entries parts hparts)
  | .variable _, fs, h | .int _, fs, h | .float _, fs, h | .text _, fs, h | .flag _, fs, h
  | .null, fs, h | .enum _, fs, h => by
      simp [children] at h

/-- The items of a list, one after the other. -/
theorem solid_of_childrenOf : (vs : List Value) → (fs : List Filter) →
    childrenOf vs = .ok fs → ∀ f ∈ fs, f.Solid
  | [], fs, h => by
      rw [childrenOf] at h
      cases h
      simp
  | .object entries :: vs, fs, h => by
      rw [childrenOf] at h
      obtain ⟨parts, hparts, h⟩ := exists_of_bind_eq_ok h
      obtain ⟨others, hothers, h⟩ := exists_of_bind_eq_ok h
      cases h
      intro f hf
      rcases List.mem_append.1 hf with hf | hf
      · exact solid_conjunction (solid_of_conditionsOf entries parts hparts) f hf
      · exact solid_of_childrenOf vs others hothers f hf
  | .list _ :: vs, fs, h | .variable _ :: vs, fs, h | .int _ :: vs, fs, h
  | .float _ :: vs, fs, h | .text _ :: vs, fs, h | .flag _ :: vs, fs, h | .null :: vs, fs, h
  | .enum _ :: vs, fs, h => by
      simp [childrenOf] at h

/-- **What is written as an argument is solid.** -/
theorem solid_of_conditionsOf : (es : List (String × Value)) → (fs : List Filter) →
    conditionsOf es = .ok fs → ∀ f ∈ fs, f.Solid
  | [], fs, h => by
      rw [conditionsOf] at h
      cases h
      simp
  | (key, arg) :: rest, fs, h => by
      obtain ⟨here, others, rfl, hothers, hcases⟩ := conditionsOf_cons_cases h
      have hrest := solid_of_conditionsOf rest others hothers
      have hhere : ∀ f ∈ here, f.Solid := by
        rcases hcases with ⟨-, parts, hparts, rfl⟩ | ⟨-, parts, hparts, rfl⟩ |
          ⟨-, entries, parts, rfl, hparts, rfl⟩ | ⟨-, hhas⟩ | ⟨-, hid⟩ | ⟨-, hfield⟩
        · exact solid_group (fun fs hne h => (andAll_of_solid hne h).1)
            (solid_of_children arg parts hparts)
        · exact solid_group (fun fs hne h => (orAll_of_solid hne h).1)
            (solid_of_children arg parts hparts)
        · have hinner := solid_conjunction (solid_of_conditionsOf entries parts hparts)
          intro f hf
          obtain ⟨g, hg, rfl⟩ := List.mem_map.1 hf
          simpa [Solid] using hinner g hg
        · exact solid_of_presence hhas
        · exact solid_of_identity hid
        · exact solid_of_comparisons hfield
      intro f hf
      rcases List.mem_append.1 hf with hf | hf
      · exact hhere f hf
      · exact hrest f hf

end

/-- **What is written as a filter argument is solid**, so that no negation in it can get lost. -/
theorem solid_of_ofArgument {v : Value} {filter : Option Filter} (h : ofArgument v = .ok filter) :
    ∀ f ∈ filter, f.Solid := by
  unfold ofArgument at h
  split at h
  · obtain ⟨parts, hparts, rfl⟩ := exists_of_map_eq_ok h
    exact (conjunction?_of_solid (solid_of_conditionsOf _ parts hparts)).1
  · simp at h

end GraphWarden.Filter
