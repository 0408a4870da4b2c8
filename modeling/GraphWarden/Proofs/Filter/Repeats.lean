import GraphWarden.Filter.Combine

/-!
# Adding a filter again

`intersect` adds a filter to one that may be there already.  Adding the same filter once
more is to change nothing, and so it is when the filter is **settled**: no conjunction, or a
conjunction of two or more parts none of which repeats another (`intersect_again`).

Two laws of conjunctions are behind this.  What is put together with a settled filter among it
keeps its parts, so that more can be added to the result or to the list, which is the same
(`Settled.andAll_cons`): a conjunction of one part is not left, and what is left is not taken
apart any further.  And repeats at the end of the list count for nothing
(`andAll_append_of_subset`).  So other filters may even come in between (`Settled.added_again`).

The condition is exact (`intersect_twice_iff`).  Of every other filter there is one that it can be
added to, perhaps none at all, so that adding it again does make a difference
(`intersect_again_ne`).  A conjunction with one part, or with repeats, is taken apart the second
time and put together without them.
-/

namespace GraphWarden.Filter

variable {f g a : Filter} {fs gs kept parts : List Filter}

/-- No filter of the list has the structure of an earlier one. -/
def Distinct (fs : List Filter) : Prop :=
  fs.Pairwise fun f g => same f g = false

instance (fs : List Filter) : Decidable (Distinct fs) :=
  inferInstanceAs (Decidable (fs.Pairwise fun f g => same f g = false))

/-- No conjunction, or one of two or more parts without a repeat. -/
def Settled : Filter → Prop
  | .all parts => 2 ≤ parts.length ∧ Distinct parts
  | _ => True

instance : DecidablePred Settled
  | .all parts => inferInstanceAs (Decidable (2 ≤ parts.length ∧ Distinct parts))
  | .nothing | .compare _ _ _ | .has _ | .ids _ | .isType _ | .edge _ _ | .any _ | .not _ =>
    isTrue trivial

/-- A settled filter is no conjunction, or one of two or more different parts. -/
theorem Settled.cases (h : f.Settled) :
    (∀ parts, f ≠ .all parts) ∨ ∃ parts, f = .all parts ∧ 2 ≤ parts.length ∧ Distinct parts := by
  cases f with
  | all parts => exact Or.inr ⟨parts, rfl, h⟩
  | _ => exact Or.inl (by simp)

/-- A filter that is no conjunction is its own only part. -/
theorem conjuncts_of_ne_all (h : ∀ parts, f ≠ .all parts) : f.conjuncts = [f] := by
  cases f with
  | all parts => exact absurd rfl (h parts)
  | _ => rfl

/-- Equality of structure tells conjunctions from other filters. -/
theorem ne_all_of_same (hsame : same f g = true) (h : ∀ parts, g ≠ .all parts) :
    ∀ parts, f ≠ .all parts := by
  rintro parts rfl
  cases g with
  | all ys => exact absurd rfl (h ys)
  | _ => simp [same] at hsame

/-- Equality of structure tells the filter `nothing` from all others. -/
theorem isNothing_of_same (hsame : same f g = true) (h : g.isNothing = false) :
    f.isNothing = false := by
  cases f with
  | nothing => cases g <;> simp_all [same, isNothing]
  | _ => rfl

/-- The parts of a settled filter are different from one another. -/
theorem Settled.distinct_conjuncts (h : a.Settled) : Distinct a.conjuncts := by
  rcases h.cases with hne | ⟨parts, rfl, _, hdistinct⟩
  · rw [conjuncts_of_ne_all hne]
    exact List.pairwise_singleton _ _
  · exact hdistinct

/-! ### What is kept of a list -/

/-- Repeats may be dropped from a list piece by piece, as long as what was kept of the pieces
before is remembered. -/
theorem unrepeated_append (fs gs kept : List Filter) :
    unrepeated kept (fs ++ gs) = unrepeated (unrepeated kept fs) gs := by
  induction fs generalizing kept with
  | nil => rfl
  | cons f fs ih => rw [List.cons_append, unrepeated, unrepeated, ih]

/-- What is kept already stays in front. -/
theorem exists_unrepeated_eq (kept fs : List Filter) :
    ∃ new, unrepeated kept fs = kept ++ new := by
  induction fs generalizing kept with
  | nil => exact ⟨[], by simp [unrepeated]⟩
  | cons f fs ih =>
      rw [unrepeated]
      split
      · exact ih kept
      · obtain ⟨new, hnew⟩ := ih (kept ++ [f])
        exact ⟨f :: new, by simp [hnew]⟩

/-- Of filters that are kept already nothing new is kept. -/
theorem unrepeated_of_kept (h : ∀ f ∈ fs, (kept.any fun g => same g f) = true) :
    unrepeated kept fs = kept := by
  induction fs with
  | nil => rfl
  | cons f fs ih =>
      rw [unrepeated, if_pos (h f List.mem_cons_self)]
      exact ih fun f' hf' => h f' (List.mem_cons_of_mem _ hf')

/-- Nothing is dropped from a list without repeats. -/
theorem unrepeated_of_distinct (h : Distinct (kept ++ fs)) : unrepeated kept fs = kept ++ fs := by
  induction fs generalizing kept with
  | nil => simp [unrepeated]
  | cons f fs ih =>
      have hnew : ¬ (kept.any fun g => same g f) = true := by
        intro hrep
        obtain ⟨g, hg, hsame⟩ := List.any_eq_true.1 hrep
        have hother := (List.pairwise_append.1 h).2.2 g hg f List.mem_cons_self
        simp [hother] at hsame
      have hshift : kept ++ f :: fs = (kept ++ [f]) ++ fs := by simp
      rw [unrepeated, if_neg hnew, hshift]
      exact ih (hshift ▸ h)

/-- What is left has no repeats, if what was kept before had none. -/
theorem distinct_unrepeated (h : Distinct kept) : Distinct (unrepeated kept fs) := by
  induction fs generalizing kept with
  | nil => exact h
  | cons f fs ih =>
      rw [unrepeated]
      split
      · exact ih h
      · next hnew =>
          refine ih (List.pairwise_append.2 ⟨h, List.pairwise_singleton _ _, fun g hg f' hf' => ?_⟩)
          rw [List.mem_singleton.1 hf']
          have hother := mt List.any_eq_true.2 hnew
          simpa using fun hsame => hother ⟨g, hg, hsame⟩

/-- Every filter of the list is kept, as itself or as one of the same structure. -/
theorem any_unrepeated (kept : List Filter) (hf : f ∈ fs) :
    ((unrepeated kept fs).any fun g => same g f) = true := by
  induction fs generalizing kept with
  | nil => simp at hf
  | cons x xs ih =>
      rw [unrepeated]
      rcases List.mem_cons.1 hf with rfl | hf
      · obtain ⟨new, hnew⟩ :=
          exists_unrepeated_eq (if kept.any fun g => same g f then kept else kept ++ [f]) xs
        rw [hnew, List.any_append]
        split
        · next hrep => simp [hrep]
        · simp [same_refl]
      · exact ih _ hf

/-- What is left was there: in the list, or among what was kept before. -/
theorem mem_of_mem_unrepeated (h : f ∈ unrepeated kept fs) : f ∈ kept ∨ f ∈ fs := by
  induction fs generalizing kept with
  | nil => exact Or.inl h
  | cons x xs ih =>
      rw [unrepeated] at h
      rcases ih h with hkept | hxs
      · split at hkept
        · exact Or.inl hkept
        · rcases List.mem_append.1 hkept with hkept | hx
          · exact Or.inl hkept
          · exact Or.inr (by simp [List.mem_singleton.1 hx])
      · exact Or.inr (List.mem_cons_of_mem _ hxs)

/-! ### Conjunctions -/

theorem andAll_of_nothing (h : fs.any isNothing = true) : andAll fs = .nothing := by
  simp only [andAll, h, if_true]

/-- A conjunction depends on two things only: whether some filter is `nothing`, and which parts are
left when repeats are dropped. -/
theorem andAll_congr (hopen : fs.any isNothing = gs.any isNothing)
    (hkept : unrepeated [] (fs.flatMap conjuncts) = unrepeated [] (gs.flatMap conjuncts)) :
    andAll fs = andAll gs := by
  simp only [andAll, hopen, hkept]

/-- Repeats at the end of a list count for nothing. -/
theorem andAll_append_of_subset (h : gs ⊆ fs) : andAll (fs ++ gs) = andAll fs := by
  refine andAll_congr ?_ ?_
  · have hany : gs.any isNothing = true → fs.any isNothing = true := by
      rw [List.any_eq_true, List.any_eq_true]
      rintro ⟨f, hf, hnothing⟩
      exact ⟨f, h hf, hnothing⟩
    rw [List.any_append, Bool.or_eq_left_iff_imp]
    exact hany
  · rw [List.flatMap_append, unrepeated_append]
    refine unrepeated_of_kept fun part hpart => ?_
    obtain ⟨f, hf, hpart⟩ := List.mem_flatMap.1 hpart
    exact any_unrepeated [] (List.mem_flatMap.2 ⟨f, h hf, hpart⟩)

/-- When a single part is left, the conjunction is that part and no conjunction of one. -/
theorem andAll_eq_of_single (hopen : fs.any isNothing = false)
    (h : unrepeated [] (fs.flatMap conjuncts) = [f]) : andAll fs = f := by
  simp [andAll, hopen, h]

/-- When two parts or more are left, the conjunction has just these. -/
theorem andAll_eq_all (hopen : fs.any isNothing = false)
    (h : unrepeated [] (fs.flatMap conjuncts) = parts) (htwo : 2 ≤ parts.length) :
    andAll fs = .all parts := by
  unfold andAll
  rw [hopen, h]
  match parts, htwo with
  | f :: g :: rest, _ => rfl

/-- A conjunction with a first part that is none itself. -/
theorem andAll_cons_cases (hf : ∀ parts, f ≠ .all parts) (fs : List Filter) :
    andAll (f :: fs) = .nothing ∨ andAll (f :: fs) = f ∨
      ∃ parts, andAll (f :: fs) = .all parts ∧ 2 ≤ parts.length ∧ Distinct parts := by
  cases hopen : (f :: fs).any isNothing with
  | true => exact Or.inl (andAll_of_nothing hopen)
  | false =>
      obtain ⟨new, hnew⟩ := exists_unrepeated_eq [f] (fs.flatMap conjuncts)
      have hparts : unrepeated [] ((f :: fs).flatMap conjuncts) = f :: new := by
        rw [List.flatMap_cons, conjuncts_of_ne_all hf]
        exact hnew
      have hdistinct : Distinct (f :: new) := hparts ▸ distinct_unrepeated List.Pairwise.nil
      refine Or.inr ?_
      cases new with
      | nil => exact Or.inl (andAll_eq_of_single hopen hparts)
      | cons g rest =>
          have htwo : 2 ≤ (f :: g :: rest).length := by simp
          exact Or.inr ⟨_, andAll_eq_all hopen hparts htwo, htwo, hdistinct⟩

/-- A settled filter is the conjunction of itself alone. -/
theorem Settled.andAll_self (h : a.Settled) : andAll [a] = a := by
  cases hnothing : a.isNothing with
  | true => cases a <;> simp_all [isNothing, andAll]
  | false =>
      have hopen : [a].any isNothing = false := by simp [hnothing]
      have hparts : unrepeated [] ([a].flatMap conjuncts) = a.conjuncts := by
        rw [List.flatMap_singleton]
        exact unrepeated_of_distinct h.distinct_conjuncts
      rcases h.cases with hne | ⟨parts, rfl, htwo, _⟩
      · exact andAll_eq_of_single hopen (hparts.trans (conjuncts_of_ne_all hne))
      · exact andAll_eq_all hopen hparts htwo

/-- A settled filter all parts of which have one and the same structure is no conjunction. -/
theorem Settled.ne_all_of_single (h : a.Settled) (hsame : ∀ f ∈ a.conjuncts, same g f = true) :
    ∀ parts, a ≠ .all parts := by
  rcases h.cases with hne | ⟨parts, rfl, htwo, hdistinct⟩
  · exact hne
  · match parts, htwo, hdistinct with
    | x :: y :: rest, _, hdistinct =>
        have hx : same g x = true := hsame x List.mem_cons_self
        have hy : same g y = true := hsame y (List.mem_cons_of_mem _ List.mem_cons_self)
        have hxy : same x y = true := same_trans x g y (same_comm g x ▸ hx) hy
        have hother : same x y = false :=
          (List.pairwise_cons.1 hdistinct).1 y List.mem_cons_self
        simp [hother] at hxy

/-- A settled filter has a part. -/
theorem Settled.conjuncts_ne_nil (h : a.Settled) : a.conjuncts ≠ [] := by
  rcases h.cases with hne | ⟨parts, rfl, htwo, _⟩
  · simp [conjuncts_of_ne_all hne]
  · rintro rfl
    simp at htwo

/-- What is put together with a settled filter among it keeps its parts. -/
theorem Settled.kept_andAll (h : a.Settled) (ha : a ∈ fs) (hopen : fs.any isNothing = false) :
    (andAll fs).isNothing = false ∧
      unrepeated [] (andAll fs).conjuncts = unrepeated [] (fs.flatMap conjuncts) := by
  generalize hparts : unrepeated [] (fs.flatMap conjuncts) = parts
  have hkept : ∀ f ∈ a.conjuncts, (parts.any fun g => same g f) = true := by
    intro f hf
    rw [← hparts]
    exact any_unrepeated [] (List.mem_flatMap.2 ⟨a, ha, hf⟩)
  match parts with
  | [] =>
      obtain ⟨f, hf⟩ := List.exists_mem_of_ne_nil _ h.conjuncts_ne_nil
      simpa using hkept f hf
  | [x] =>
      -- One part stands for all parts of a settled filter: it has only one.
      have hne : ∀ parts, a ≠ .all parts := h.ne_all_of_single (by simpa using hkept)
      have hsame : same x a = true := by simpa [conjuncts_of_ne_all hne] using hkept
      have hnothing : a.isNothing = false := by simpa using List.any_eq_false.1 hopen a ha
      rw [andAll_eq_of_single hopen hparts, conjuncts_of_ne_all (ne_all_of_same hsame hne)]
      exact ⟨isNothing_of_same hsame hnothing, rfl⟩
  | x :: y :: rest =>
      have hdistinct : Distinct (x :: y :: rest) := hparts ▸ distinct_unrepeated List.Pairwise.nil
      rw [andAll_eq_all hopen hparts (by simp)]
      exact ⟨rfl, unrepeated_of_distinct hdistinct⟩

/-- More can be added to what a settled filter was put together with, or put together with it
from the start. -/
theorem Settled.andAll_cons (h : a.Settled) (ha : a ∈ fs) (gs : List Filter) :
    andAll (andAll fs :: gs) = andAll (fs ++ gs) := by
  cases hopen : fs.any isNothing with
  | true =>
      rw [andAll_of_nothing hopen, andAll_of_nothing (by simp [isNothing]),
        andAll_of_nothing (by rw [List.any_append, hopen, Bool.true_or])]
  | false =>
      obtain ⟨hnothing, hkept⟩ := h.kept_andAll ha hopen
      refine andAll_congr ?_ ?_
      · rw [List.any_cons, List.any_append, hnothing, hopen]
      · rw [List.flatMap_cons, List.flatMap_append, unrepeated_append, unrepeated_append, hkept]

/-- Filters one of which is settled, put together with that one once more. -/
theorem Settled.andAll_again (h : a.Settled) (ha : a ∈ fs) :
    andAll [andAll fs, a] = andAll fs := by
  rw [h.andAll_cons ha]
  exact andAll_append_of_subset (by simpa using ha)

/-- A settled filter is added by putting it together with what was there. -/
theorem Settled.intersect_eq (h : a.Settled) (existing : Option Filter) :
    intersect existing a = andAll (existing.toList ++ [a]) := by
  cases existing with
  | none => exact h.andAll_self.symm
  | some f => rfl

/-! ### Filters added one after the other -/

/-- A filter after others were added to it, one after the other. -/
def added (f : Filter) (others : List Filter) : Filter :=
  others.foldl (fun g b => intersect (some g) b) f

/-- From a settled filter on, what is added one after the other is put together at once. -/
theorem Settled.added_andAll (h : a.Settled) (ha : a ∈ fs) (others : List Filter) :
    added (andAll fs) others = andAll (fs ++ others) := by
  induction others generalizing fs with
  | nil => simp [added]
  | cons b others ih =>
      have hstep : intersect (some (andAll fs)) b = andAll (fs ++ [b]) := h.andAll_cons ha [b]
      calc added (andAll fs) (b :: others)
          = added (andAll (fs ++ [b])) others := by rw [added, List.foldl_cons, hstep, added]
        _ = andAll (fs ++ [b] ++ others) := ih (List.mem_append_left [b] ha)
        _ = andAll (fs ++ b :: others) := by rw [List.append_assoc, List.singleton_append]

/-- Adding a settled filter again changes nothing, whatever was added since. -/
theorem Settled.added_again (h : a.Settled) (existing : Option Filter) (others : List Filter) :
    intersect (some (added (intersect existing a) others)) a =
      added (intersect existing a) others := by
  have ha : a ∈ existing.toList ++ [a] := by simp
  rw [h.intersect_eq existing, h.added_andAll ha]
  exact h.andAll_again (List.mem_append_left others ha)

/-- **Adding a settled filter again changes nothing.** -/
theorem intersect_again (h : a.Settled) (existing : Option Filter) :
    intersect (some (intersect existing a)) a = intersect existing a :=
  h.added_again existing []

/-! ### Filters that are not settled -/

/-- In lists of one structure every filter of the one has its like in the other. -/
theorem exists_same_of_mem : ∀ {fs gs : List Filter}, sameParts fs gs = true → ∀ {g : Filter},
    g ∈ gs → ∃ f ∈ fs, same f g = true := by
  intro fs
  induction fs with
  | nil =>
      intro gs h g hg
      cases gs <;> simp_all [sameParts]
  | cons x xs ih =>
      intro gs h g hg
      cases gs with
      | nil => simp at hg
      | cons y ys =>
          simp only [sameParts, Bool.and_eq_true] at h
          rcases List.mem_cons.1 hg with rfl | hg
          · exact ⟨x, List.mem_cons_self, h.1⟩
          · obtain ⟨f, hf, hsame⟩ := ih h.2 hg
            exact ⟨f, List.mem_cons_of_mem _ hf, hsame⟩

/-- No filter has the structure of a conjunction that it is a part of. -/
theorem not_same_all_of_mem : (f : Filter) → ∀ {parts : List Filter}, f ∈ parts →
    same f (.all parts) = false
  | .all own, parts, hf => by
      cases hsame : sameParts own parts with
      | false => simp [same, hsame]
      | true =>
          -- A part of the same structure has itself a part of the same structure.
          obtain ⟨part, hpart, hsamePart⟩ := exists_same_of_mem hsame hf
          have hsmaller := List.sizeOf_lt_of_mem hpart
          have hother := not_same_all_of_mem part hpart
          simp [hother] at hsamePart
  | .nothing, _, _ | .compare _ _ _, _, _ | .has _, _, _ | .ids _, _, _ | .isType _, _, _
  | .edge _ _, _, _ | .any _, _, _ | .not _, _, _ => by simp [same]
termination_by f => sizeOf f

/-- Having no repeats is a matter of structure. -/
theorem Distinct.of_sameParts : ∀ {fs gs : List Filter}, Distinct fs → sameParts fs gs = true →
    Distinct gs := by
  intro fs
  induction fs with
  | nil =>
      intro gs _ h
      cases gs <;> simp_all [sameParts, Distinct]
  | cons x xs ih =>
      intro gs hdistinct h
      cases gs with
      | nil => simp [sameParts] at h
      | cons y ys =>
          simp only [sameParts, Bool.and_eq_true] at h
          obtain ⟨hx, hxs⟩ := List.pairwise_cons.1 hdistinct
          refine List.pairwise_cons.2 ⟨fun z hz => ?_, ih hxs h.2⟩
          obtain ⟨f, hf, hfz⟩ := exists_same_of_mem h.2 hz
          cases hyz : same y z with
          | false => rfl
          | true =>
              have hxf : same x f = true :=
                same_trans x z f (same_trans x y z h.1 hyz) (same_comm f z ▸ hfz)
              simp [hx f hf] at hxf

/-- A conjunction with repeats is a different one when it is put together with itself. -/
theorem not_same_andAll_pair (hne : parts ≠ []) (hrepeats : ¬ Distinct parts) :
    same (andAll [.all parts, .all parts]) (.all parts) = false := by
  have hpair : andAll ([.all parts] ++ [.all parts]) = andAll [.all parts] :=
    andAll_append_of_subset (List.Subset.refl _)
  have hkept : unrepeated [] ([Filter.all parts].flatMap conjuncts) = unrepeated [] parts := by
    rw [List.flatMap_singleton, conjuncts]
  rw [List.singleton_append] at hpair
  rw [hpair]
  match hnew : unrepeated [] parts with
  | [] =>
      obtain ⟨f, hf⟩ := List.exists_mem_of_ne_nil _ hne
      have hany := any_unrepeated [] hf
      simp [hnew] at hany
  | [x] =>
      have hx : x ∈ unrepeated [] parts := by simp [hnew]
      have hpart : x ∈ parts := (mem_of_mem_unrepeated hx).resolve_left (by simp)
      rw [andAll_eq_of_single rfl (hkept.trans hnew)]
      exact not_same_all_of_mem x hpart
  | x :: y :: rest =>
      have hdistinct : Distinct (x :: y :: rest) := hnew ▸ distinct_unrepeated List.Pairwise.nil
      rw [andAll_eq_all rfl (hkept.trans hnew) (by simp)]
      cases hsame : same (.all (x :: y :: rest)) (.all parts) with
      | false => rfl
      | true =>
          simp only [same] at hsame
          exact absurd (hdistinct.of_sameParts hsame) hrepeats

/-- **A filter that is not settled can make a difference when it is added again.** -/
theorem intersect_again_ne (h : ¬ a.Settled) : ∃ existing,
    same (intersect (some (intersect existing a)) a) (intersect existing a) = false := by
  cases a with
  | all parts =>
      match parts, h with
      | [], _ => exact ⟨some (.all [.all [.nothing]]), by decide⟩
      | [f], _ =>
          have hagain : intersect (some (.all [f])) (.all [f]) = f :=
            andAll_eq_of_single rfl (by simp [conjuncts, unrepeated, same_refl])
          refine ⟨none, ?_⟩
          show same (intersect (some (.all [f])) (.all [f])) (.all [f]) = false
          rw [hagain]
          exact not_same_all_of_mem f List.mem_cons_self
      | f :: g :: rest, h =>
          have hrepeats : ¬ Distinct (f :: g :: rest) := fun hdistinct => h ⟨by simp, hdistinct⟩
          exact ⟨none, not_same_andAll_pair (by simp) hrepeats⟩
  | _ => exact absurd trivial h

/-- Two parts of the same structure count as one. -/
example : intersect (some (.all [.has "owner", .has "owner"]))
    (.all [.has "owner", .has "owner"]) = .has "owner" := by rfl

/-- **Adding a filter twice is adding it once**, whatever it is added to, exactly when it is
settled.  A settled filter is even added once and for all: adding it again still changes nothing
after any others were added. -/
theorem intersect_twice_iff (a : Filter) :
    (a.Settled ↔ ∀ existing : Option Filter,
      same (intersect (some (intersect existing a)) a) (intersect existing a) = true) ∧
    (a.Settled → ∀ (existing : Option Filter) (others : List Filter),
      intersect (some (added (intersect existing a) others)) a =
        added (intersect existing a) others) := by
  refine ⟨⟨fun h existing => ?_, fun h => ?_⟩, Settled.added_again⟩
  · rw [intersect_again h existing]
    exact same_refl _
  · by_cases hsettled : a.Settled
    · exact hsettled
    · obtain ⟨existing, hdiffers⟩ := intersect_again_ne hsettled
      simp [h existing] at hdiffers

/-- The notices of one owner. -/
def notices : Filter :=
  .all [.equals "owner" (.text "amit"), .has "title"]

/-- A filter with a conjunction in a conjunction, a repeat and `nothing` below. -/
def tangle : Filter :=
  .all [.all [.has "title"], .has "title", .has "title", .not .nothing]

/-- Notices are added to a tangle and more is added to that; the notices once more then change
nothing.  The tangle itself is kept as it was written, repeat and all, since it was there first. -/
theorem notices_intersect_twice : notices.Settled ∧
    same (intersect (some (intersect (some tangle) notices)) notices)
      (intersect (some tangle) notices) = true ∧
    added (intersect (some tangle) notices) [.any [], .all [.has "draft", .has "title"]] =
      .all [.all [.has "title"], .has "title", .not .nothing, .equals "owner" (.text "amit"),
        .any [], .has "draft"] ∧
    intersect (some (added (intersect (some tangle) notices)
        [.any [], .all [.has "draft", .has "title"]])) notices =
      added (intersect (some tangle) notices) [.any [], .all [.has "draft", .has "title"]] := by
  have hsettled : notices.Settled := by decide
  have htwice := intersect_twice_iff notices
  exact ⟨hsettled, htwice.1.1 hsettled _, rfl, htwice.2 hsettled _ _⟩

end GraphWarden.Filter
