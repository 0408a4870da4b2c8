import GraphWarden.Filter.Combine

/-!
# Readings of filters

A filter can be read in several ways: as what a store answers for one node, which
may be a failure, or as plain truth.  What they have in common is that a
conjunction and a disjunction ask their parts **one after the other** and stop at
the first part that decides (`inTurn`), and that filters of one structure are read
alike.  That is a `Reading`.

Whatever simplification does to filters is right under every reading:

* `Reading.orAll` — a disjunction that was put together is read like its parts,
  one after the other;
* `Reading.andAll_eq` — so is a conjunction, unless `nothing` is among its parts, which is
  found without asking those in front of it; where these do not fail it makes no difference
  (`Reading.andAll`);
* `Reading.intersect` — adding a filter to one that may be there already.
-/

namespace GraphWarden.Filter

/-- What several parts say one after the other.  The first part that says `stop`
decides, and a part that fails leaves it open. -/
def inTurn (v : Filter → Option Bool) (stop : Bool) : List Filter → Option Bool
  | [] => some (!stop)
  | f :: fs => (v f).bind fun b => if b = stop then some stop else inTurn v stop fs

/-- A way to read filters. -/
structure Reading (v : Filter → Option Bool) : Prop where
  nothing : v .nothing = some false
  all : ∀ parts, v (.all parts) = inTurn v false parts
  any : ∀ parts, v (.any parts) = inTurn v true parts
  not : ∀ f, v (.not f) = (v f).map Bool.not
  congr : ∀ f g, same f g = true → v f = v g

section InTurn

variable {v : Filter → Option Bool} {stop : Bool}

/-- Parts are read in turn, and those behind are only read when none in front decides. -/
theorem inTurn_append (xs ys : List Filter) :
    inTurn v stop (xs ++ ys) =
      (inTurn v stop xs).bind fun b => if b = stop then some stop else inTurn v stop ys := by
  induction xs with
  | nil => cases stop <;> simp [inTurn]
  | cons x xs ih =>
      simp only [List.cons_append, inTurn, ih]
      cases v x with
      | none => rfl
      | some b =>
          by_cases hb : b = stop
          · simp [hb]
          · simp [hb]

/-- A single part that is read in turn is just read. -/
@[simp] theorem inTurn_singleton (f : Filter) : inTurn v stop [f] = v f := by
  cases hf : v f with
  | none => simp [inTurn, hf]
  | some b => cases b <;> cases stop <;> simp [inTurn, hf]

/-- When no part has decided, each of them said the opposite. -/
theorem eq_of_inTurn_eq {xs : List Filter} (h : inTurn v stop xs = some (!stop)) :
    ∀ f ∈ xs, v f = some (!stop) := by
  induction xs with
  | nil => simp
  | cons x xs ih =>
      obtain ⟨b, hb, hrest⟩ := Option.bind_eq_some_iff.1 h
      by_cases hstop : b = stop
      · simp [hstop] at hrest
      · have hx : b = !stop := Bool.eq_not.2 hstop
        intro f hf
        rcases List.mem_cons.1 hf with rfl | hf
        · rw [hb, hx]
        · exact ih (by simpa [hstop] using hrest) f hf

/-- What has decided is one of the parts. -/
theorem exists_of_inTurn_eq {xs : List Filter} (h : inTurn v stop xs = some stop) :
    ∃ f ∈ xs, v f = some stop := by
  induction xs with
  | nil => cases stop <;> simp [inTurn] at h
  | cons x xs ih =>
      obtain ⟨b, hb, hrest⟩ := Option.bind_eq_some_iff.1 h
      by_cases hstop : b = stop
      · exact ⟨x, List.mem_cons_self, hstop ▸ hb⟩
      · obtain ⟨f, hf, hdecides⟩ := ih (by simpa [hstop] using hrest)
        exact ⟨f, List.mem_cons_of_mem _ hf, hdecides⟩

/-- Parts that can be read one after the other are stopped at when one of them decides. -/
theorem eq_stop_iff_of_inTurn_eq {xs : List Filter} {b : Bool} (h : inTurn v stop xs = some b) :
    b = stop ↔ ∃ f ∈ xs, v f = some stop := by
  constructor
  · rintro rfl
    exact exists_of_inTurn_eq h
  · rintro ⟨f, hf, hdecides⟩
    by_cases hstop : b = stop
    · exact hstop
    · have hb : b = !stop := Bool.eq_not.2 hstop
      have hopposite := eq_of_inTurn_eq (hb ▸ h) f hf
      simp [hdecides] at hopposite

/-- Parts are true one after the other when each of them is true. -/
theorem inTurn_eq_true_iff {xs : List Filter} :
    inTurn v false xs = some true ↔ ∀ f ∈ xs, v f = some true := by
  refine ⟨eq_of_inTurn_eq, fun h => ?_⟩
  induction xs with
  | nil => rfl
  | cons x xs ih =>
      have hrest : inTurn v false xs = some true := ih fun f hf => h f (List.mem_cons_of_mem _ hf)
      simp [inTurn, h x List.mem_cons_self, hrest]

/-- Parts that do not fail can be read one after the other. -/
theorem inTurn_isSome {xs : List Filter} (h : ∀ f ∈ xs, (v f).isSome) :
    (inTurn v stop xs).isSome := by
  induction xs with
  | nil => rfl
  | cons x xs ih =>
      obtain ⟨b, hb⟩ := Option.isSome_iff_exists.1 (h x List.mem_cons_self)
      have hrest := ih fun f hf => h f (List.mem_cons_of_mem _ hf)
      by_cases hstop : b = stop
      · simp [inTurn, hb, hstop]
      · simpa [inTurn, hb, hstop] using hrest

/-- Taking filters apart into parts that say the same one after the other. -/
theorem inTurn_flatMap {parts : Filter → List Filter} (h : ∀ f, inTurn v stop (parts f) = v f)
    (xs : List Filter) : inTurn v stop (xs.flatMap parts) = inTurn v stop xs := by
  induction xs with
  | nil => rfl
  | cons x xs ih => rw [List.flatMap_cons, inTurn_append, h, ih, inTurn]

/-- A repeat says nothing new: what it repeats was asked before and did not decide. -/
theorem inTurn_unrepeated (hv : ∀ f g, same f g = true → v f = v g) (fs : List Filter) :
    ∀ kept, inTurn v stop (unrepeated kept fs) = inTurn v stop (kept ++ fs) := by
  induction fs with
  | nil => simp [unrepeated]
  | cons f fs ih =>
      intro kept
      rw [unrepeated, ih]
      by_cases hrep : kept.any fun g => same g f
      · rw [if_pos hrep, inTurn_append, inTurn_append]
        obtain ⟨g, hg, hgf⟩ := List.any_eq_true.1 hrep
        cases hkept : inTurn v stop kept with
        | none => rfl
        | some b =>
            by_cases hstop : b = stop
            · simp [hstop]
            · have hb : b = !stop := Bool.eq_not.2 hstop
              have hf : v f = some (!stop) := by
                rw [← hv g f hgf]
                exact eq_of_inTurn_eq (hb ▸ hkept) g hg
              simp [hstop, inTurn, hf]
      · rw [if_neg hrep, List.append_assoc, List.singleton_append]

end InTurn

namespace Reading

variable {v : Filter → Option Bool}

/-- The conjuncts of a filter, read in turn, read as the filter: those of a conjunction are its
parts, and any other filter is its own. -/
theorem conjuncts (hv : Reading v) (f : Filter) : inTurn v false (f.conjuncts) = v f := by
  cases f with
  | all parts => exact (hv.all parts).symm
  | _ => exact inTurn_singleton _

/-- The disjuncts of a filter, read in turn, read as the filter. -/
theorem disjuncts (hv : Reading v) (f : Filter) : inTurn v true (f.disjuncts) = v f := by
  cases f with
  | any parts => exact (hv.any parts).symm
  | _ => exact inTurn_singleton _

theorem eq_nothing_of_isNothing {f : Filter} (h : f.isNothing = true) : f = .nothing := by
  cases f <;> simp_all [isNothing]

/-- Filters one of which is `nothing` are not true together. -/
theorem eq_false_of_nothing (hv : Reading v) {fs : List Filter} {b : Bool}
    (hb : inTurn v false fs = some b) (h : fs.any isNothing = true) : b = false := by
  cases b with
  | false => rfl
  | true =>
      obtain ⟨f, hf, hnothing⟩ := List.any_eq_true.1 h
      have htrue : v f = some true := eq_of_inTurn_eq hb f hf
      rw [eq_nothing_of_isNothing hnothing, hv.nothing] at htrue
      simp at htrue

/-- **A conjunction is read like its parts**, one after the other, unless `nothing` is among
them. -/
theorem andAll_eq (hv : Reading v) (fs : List Filter) :
    v (Filter.andAll fs) = if fs.any isNothing then some false else inTurn v false fs := by
  have hparts : inTurn v false (unrepeated [] (fs.flatMap Filter.conjuncts)) =
      inTurn v false fs := by
    rw [inTurn_unrepeated hv.congr, List.nil_append, inTurn_flatMap hv.conjuncts]
  unfold Filter.andAll
  split
  · exact hv.nothing
  · split
    · next f hf => rw [← hparts, hf, inTurn_singleton]
    · rw [hv.all, hparts]

/-- Filters that can be read one after the other can be read as a conjunction. -/
theorem andAll (hv : Reading v) {fs : List Filter} {b : Bool} (hb : inTurn v false fs = some b) :
    v (Filter.andAll fs) = some b := by
  rw [hv.andAll_eq]
  split
  · next h => rw [hv.eq_false_of_nothing hb h]
  · exact hb

/-- A conjunction is true exactly when each of its parts is, although it may be read where one of
its parts fails. -/
theorem andAll_eq_true_iff (hv : Reading v) {fs : List Filter} :
    v (Filter.andAll fs) = some true ↔ ∀ f ∈ fs, v f = some true := by
  refine ⟨fun h => ?_, fun h => hv.andAll (inTurn_eq_true_iff.2 h)⟩
  rw [hv.andAll_eq] at h
  split at h
  · simp at h
  · exact inTurn_eq_true_iff.1 h

/-- A conjunction of parts none of which fails does not fail. -/
theorem andAll_isSome (hv : Reading v) {fs : List Filter} (h : ∀ f ∈ fs, (v f).isSome) :
    (v (Filter.andAll fs)).isSome := by
  have hparts : (inTurn v false fs).isSome := inTurn_isSome h
  obtain ⟨b, hb⟩ := Option.isSome_iff_exists.1 hparts
  rw [hv.andAll hb, Option.isSome_some]

/-- A conjunction that was put together says yes just when each of its parts does.  Without parts
there is no filter, and nothing stands in the way. -/
theorem conjunction?_eq_true_iff (hv : Reading v) {fs : List Filter} :
    (∀ f ∈ conjunction? fs, v f = some true) ↔ ∀ f ∈ fs, v f = some true := by
  cases fs with
  | nil => simp [conjunction?]
  | cons f fs => simp only [conjunction?, Option.mem_some_iff, forall_eq', hv.andAll_eq_true_iff]

/-- A conjunction that was put together can be read when each of its parts can. -/
theorem conjunction?_isSome (hv : Reading v) {fs : List Filter} (h : ∀ f ∈ fs, (v f).isSome) :
    ∀ f ∈ conjunction? fs, (v f).isSome := by
  cases fs with
  | nil => simp [conjunction?]
  | cons f fs =>
      simp only [conjunction?, Option.mem_some_iff, forall_eq']
      exact hv.andAll_isSome h

/-- `nothing` among the parts of a disjunction may be left out. -/
theorem inTurn_filter (hv : Reading v) (fs : List Filter) :
    inTurn v true (fs.filter fun f => !f.isNothing) = inTurn v true fs := by
  induction fs with
  | nil => rfl
  | cons f fs ih =>
      by_cases hf : f.isNothing = true
      · rw [List.filter_cons_of_neg (by simp [hf]), ih, eq_nothing_of_isNothing hf]
        simp [inTurn, hv.nothing]
      · rw [List.filter_cons_of_pos (by simp [hf]), inTurn, inTurn, ih]

/-- **A disjunction is read like its parts.** -/
theorem orAll (hv : Reading v) (fs : List Filter) :
    v (Filter.orAll fs) = inTurn v true fs := by
  have hparts : inTurn v true
      (unrepeated [] ((fs.filter fun f => !f.isNothing).flatMap Filter.disjuncts)) =
        inTurn v true fs := by
    rw [inTurn_unrepeated hv.congr, List.nil_append, inTurn_flatMap hv.disjuncts, hv.inTurn_filter]
  unfold Filter.orAll
  split
  · next h => rw [← hparts, h, hv.nothing, inTurn, Bool.not_true]
  · next f hf => rw [← hparts, hf, inTurn_singleton]
  · rw [hv.any, hparts]

/-- A disjunction of parts none of which fails is true exactly when one of them is. -/
theorem orAll_eq_true_iff (hv : Reading v) {fs : List Filter} (h : ∀ f ∈ fs, (v f).isSome) :
    v (Filter.orAll fs) = some true ↔ ∃ f ∈ fs, v f = some true := by
  have hparts : (inTurn v true fs).isSome := inTurn_isSome h
  obtain ⟨b, hb⟩ := Option.isSome_iff_exists.1 hparts
  rw [hv.orAll, hb, ← eq_stop_iff_of_inTurn_eq hb, Option.some_inj]

/-- What a filter that may be missing says; a missing one says yes. -/
def ofOption (v : Filter → Option Bool) (f : Option Filter) : Option Bool :=
  f.elim (some true) v

/-- Adding a filter asks what was there first, and the new one only if that holds. -/
theorem intersect (hv : Reading v) {existing : Option Filter} {auth : Filter} {b c : Bool}
    (hb : ofOption v existing = some b) (hc : b = true → v auth = some c) :
    v (Filter.intersect existing auth) = some (b && c) := by
  cases existing with
  | none =>
      have hb' : b = true := (Option.some.inj hb).symm
      simpa [Filter.intersect, hb'] using hc hb'
  | some f =>
      have hf : v f = some b := hb
      rw [Filter.intersect, hv.andAll]
      cases b with
      | false => simp [inTurn, hf]
      | true => cases c <;> simp [inTurn, hf, hc rfl]

end Reading

end GraphWarden.Filter
