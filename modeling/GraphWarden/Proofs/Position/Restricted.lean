import GraphWarden.Position
import GraphWarden.Proofs.Schema.Accepted

/-!
# What restricted queries show

At a position stand nodes of several types, and the filter that the rules add there is a
disjunction with a branch for each type.  It says of each node at the position just what
the rules leave visible of the node's own type, and this under every reading of filters
(`positionFilter_read`): the branches of the other types are closed to the node, and its
own branch is open.

* Read as plain truth this gives `shown_restrictAll`: **restricted selections show to
  everyone what the selections show to those who must not see everything.**
* Read as the verdict of a store it gives `answerable_restrictAll`: the filters that the
  rules add fail nowhere, when the single rules do not.
-/

namespace GraphWarden

variable {s : Schema} {g : Graph} {n : Node} {typeName : String}

/-! ### Positions -/

namespace Schema

/-- A node at a position is of one of the position's types.  At an interface the node's type is
among the implementers, because the node lists what its type implements; a union has no nodes that
are taken for one of it. -/
theorem mem_positionTypes_of_isA (hs : s.Sound) (hfits : g.Fits s) (hn : n ∈ g.toList)
    (hisA : n.isA typeName = true) : n.typeName ∈ s.positionTypes typeName := by
  obtain ⟨own, hown, hobject, hlists⟩ := hfits n hn
  unfold positionTypes
  cases ht : s.find? typeName with
  | none =>
      unfold Node.isA at hisA
      simp only [Bool.or_eq_true, decide_eq_true_eq, List.contains_eq_mem] at hisA
      rcases hisA with rfl | hmem
      · simp
      · obtain ⟨above, habove, _⟩ := hs.interfaces_known _ own hown typeName ((hlists _).1 hmem)
        rw [ht] at habove
        simp at habove
  | some info =>
      by_cases hkind : info.kind = .interface
      · have hother : n.typeName ≠ typeName := by
          rintro rfl
          rw [hown] at ht
          cases ht
          exact absurd (hobject.symm.trans hkind) (by simp)
        have hmem : typeName ∈ n.interfaces := by simpa [Node.isA, hother] using hisA
        have himplements : n.typeName ∈ info.implementers :=
          (hs.mem_implementers_iff typeName info ht hkind n.typeName).2
            ⟨own, hown, hobject, (hlists _).1 hmem⟩
        have hsome : info.implementers.isEmpty = false := by
          cases himplementers : info.implementers with
          | nil => simp [himplementers] at himplements
          | cons _ _ => rfl
        simpa [hkind, hsome] using himplements
      · have hname := (isA_iff_of_object hs hfits hn ht hkind).1 hisA
        subst hname
        rw [hown] at ht
        cases ht
        simp [hobject]

/-- At a known position, nodes are of the position's types by their own types.  The types at a
position are object types, or else the position itself, where no node stands that is of another
type. -/
theorem isA_iff_of_mem_positionTypes (hs : s.Sound) (hfits : g.Fits s) (hn : n ∈ g.toList)
    {info : TypeInfo} (hroot : s.find? typeName = some info) {t : String}
    (ht : t ∈ s.positionTypes typeName) : n.isA t = true ↔ n.typeName = t := by
  refine ⟨fun hisA => ?_, fun hname => by simp [Node.isA, hname]⟩
  have hplaced := mem_positionTypes_of_isA hs hfits hn hisA
  -- A type that covers object types is represented by them, any other by itself.
  have hself : t = typeName → s.positionTypes typeName = [typeName] → n.typeName = t := by
    rintro rfl hsingle
    rw [hsingle] at hplaced
    simpa using hplaced
  have hobject : ∀ info, s.find? t = some info → info.kind = .object → n.typeName = t :=
    fun info hinfo hkind => (isA_iff_of_object hs hfits hn hinfo (by simp [hkind])).1 hisA
  unfold positionTypes at ht hself
  rw [hroot] at ht hself
  cases hkind : info.kind with
  | object =>
      simp only [hkind, List.isEmpty_nil, if_true] at ht hself
      exact hself (by simpa using ht) trivial
  | interface =>
      simp only [hkind] at ht hself
      split at ht
      · next hnone => exact hself (by simpa using ht) (by simp [hnone])
      · obtain ⟨below, hbelow, hbelowkind, _⟩ :=
          (hs.mem_implementers_iff typeName info hroot hkind t).1 ht
        exact hobject below hbelow hbelowkind
  | union =>
      simp only [hkind] at ht hself
      split at ht
      · next hnone => exact hself (by simpa using ht) (by simp [hnone])
      · obtain ⟨member, hmember, hmemberkind⟩ := hs.members_known typeName info hroot hkind t ht
        exact hobject member hmember hmemberkind

/-- A position with other types than its own name is known. -/
theorem find?_of_positionTypes (h : s.positionTypes typeName ≠ [typeName]) :
    ∃ info, s.find? typeName = some info := by
  unfold positionTypes at h
  cases hroot : s.find? typeName with
  | none => simp [hroot] at h
  | some info => exact ⟨info, rfl⟩

end Schema

namespace Filter

/-- A reading that knows the type of a node. -/
structure ReadingOf (n : Node) (v : Filter → Option Bool) : Prop extends Reading v where
  isType : ∀ t, v (.isType t) = some (n.isA t)

/-- The verdict of a store is a reading that knows the type of the node it is about. -/
theorem verdict_readingOf (g : Graph) (n : Node) : ReadingOf n (verdict g n) where
  toReading := verdict_reading g n
  isType t := by simp [verdict, accepts, Except.toOption]

/-- What the node meets is a reading that knows the type of the node. -/
theorem meets_readingOf (g : Graph) (n : Node) : ReadingOf n fun f => some (f.meets g n) where
  toReading := meets_reading g n
  isType t := by simp [meets]

/-- Parts of a disjunction none of which fails are asked until one says yes. -/
theorem inTurn_true_eq {v : Filter → Option Bool} {fs : List Filter} {b : Bool}
    (hfs : ∀ f ∈ fs, ∃ c, v f = some c ∧ (c = true → b = true))
    (hb : b = true → ∃ f ∈ fs, v f = some true) : inTurn v true fs = some b := by
  have hsome : (inTurn v true fs).isSome := inTurn_isSome fun f hf => by
    obtain ⟨c, hc, _⟩ := hfs f hf
    rw [hc, Option.isSome_some]
  obtain ⟨b', hb'⟩ := Option.isSome_iff_exists.1 hsome
  have htrue : b' = true ↔ b = true := by
    rw [eq_stop_iff_of_inTurn_eq hb']
    refine ⟨?_, hb⟩
    rintro ⟨f, hf, hyes⟩
    obtain ⟨c, hc, hcb⟩ := hfs f hf
    exact hcb (Option.some.inj (hc.symm.trans hyes))
  rw [hb', Bool.eq_iff_iff.2 htrue]

end Filter

/-- An outcome is read like the filter that is made of it, where no filter stands for everything.
-/
theorem Visibility.ofOption_toFilter {v : Filter → Option Bool} (hv : Filter.Reading v)
    (out : Visibility) : Filter.Reading.ofOption v out.toFilter = out.read v := by
  cases out with
  | unrestricted => rfl
  | denied => exact hv.nothing
  | restricted f => rfl

namespace Visibilities

variable {vs : Visibilities} {v : Filter → Option Bool} {b : Bool}

/-- A branch is closed to nodes of other types. -/
theorem branch_read_other (hv : Filter.ReadingOf n v) {t : String} (hisA : n.isA t = false)
    {f : Filter} (hf : f ∈ vs.branch t) : v f = some false := by
  unfold branch at hf
  split at hf
  · rw [List.mem_singleton.1 hf, hv.isType, hisA]
  · rw [List.mem_singleton.1 hf, hv.andAll]
    simp [Filter.inTurn, hv.isType, hisA]
  · simp at hf
  · simp at hf

/-- To nodes of its own type a branch shows what is visible of them. -/
theorem branch_read_own (hv : Filter.ReadingOf n v) (hisA : n.isA typeName = true)
    {out : Visibility} (hout : vs.find? typeName = some out) (hb : out.read v = some b) :
    (∀ f ∈ vs.branch typeName, v f = some b) ∧ (b = true → vs.branch typeName ≠ []) := by
  unfold branch
  rw [hout]
  cases out with
  | unrestricted =>
      have hbtrue : b = true := (Option.some.inj hb).symm
      simp [hv.isType, hisA, hbtrue]
  | denied =>
      have hbfalse : b = false := (Option.some.inj hb).symm
      simp [hbfalse]
  | restricted f =>
      have hf : v f = some b := hb
      have hboth : v (Filter.andAll [.isType typeName, f]) = some b := by
        rw [hv.andAll]
        cases b <;> simp [Filter.inTurn, hv.isType, hisA, hf]
      simp [hboth]

/-- **The filter at a position says of a node what the rules leave visible of the node's
own type.** -/
theorem positionFilter_read (hs : s.Sound) (hfits : g.Fits s) (hn : n ∈ g.toList)
    (hv : Filter.ReadingOf n v) (hisA : n.isA typeName = true) {out : Visibility}
    (hout : vs.find? n.typeName = some out) (hb : out.read v = some b) :
    Filter.Reading.ofOption v (vs.positionFilter s typeName) = some b := by
  have hmem := Schema.mem_positionTypes_of_isA hs hfits hn hisA
  have hself : n.isA n.typeName = true := by simp [Node.isA]
  unfold positionFilter
  simp only
  split
  · next hsingle =>
      rw [hsingle] at hmem
      have hname : n.typeName = typeName := by simpa using hmem
      rw [← hname, hout]
      exact (Visibility.ofOption_toFilter hv.toReading out).trans hb
  · next hsplit =>
    split
    · next hall =>
        have hvisible := List.all_eq_true.1 hall _ hmem
        unfold allVisible at hvisible
        rw [hout, Option.any_some] at hvisible
        cases out with
        | unrestricted => exact hb
        | denied => simp [Visibility.isUnrestricted] at hvisible
        | restricted f => simp [Visibility.isUnrestricted] at hvisible
    · have hother : ∀ t ∈ s.positionTypes typeName, t ≠ n.typeName → n.isA t = false := by
        intro t ht hname
        obtain ⟨info, hroot⟩ := Schema.find?_of_positionTypes hsplit
        have hisA := Schema.isA_iff_of_mem_positionTypes hs hfits hn hroot ht
        simpa using mt hisA.1 (Ne.symm hname)
      obtain ⟨hown, hopen⟩ := branch_read_own hv hself hout hb
      show v _ = _
      rw [hv.orAll]
      refine Filter.inTurn_true_eq (fun f hf => ?_) fun hbtrue => ?_
      · obtain ⟨t, ht, hft⟩ := List.mem_flatMap.1 hf
        by_cases hname : t = n.typeName
        · subst hname
          exact ⟨b, hown f hft, id⟩
        · exact ⟨false, branch_read_other hv (hother t ht hname) hft, by simp⟩
      · obtain ⟨f, hf⟩ := List.exists_mem_of_ne_nil _ (hopen hbtrue)
        exact ⟨f, List.mem_flatMap.2 ⟨_, hmem, hf⟩, hbtrue ▸ hown f hf⟩

/-- Adding the rules' filter asks what was there first, and then the rules. -/
theorem restrictFilter_read (hs : s.Sound) (hfits : g.Fits s) (hn : n ∈ g.toList)
    (hv : Filter.ReadingOf n v) (hisA : n.isA typeName = true) {existing : Option Filter} {a : Bool}
    (ha : Filter.Reading.ofOption v existing = some a)
    (hout : a = true → ∃ out, vs.find? n.typeName = some out ∧ out.read v = some b) :
    Filter.Reading.ofOption v (vs.restrictFilter s typeName existing) = some (a && b) := by
  have hposition : a = true → Filter.Reading.ofOption v (vs.positionFilter s typeName) = some b := by
    intro h
    obtain ⟨out, hfind, hread⟩ := hout h
    exact positionFilter_read hs hfits hn hv hisA hfind hread
  unfold restrictFilter
  cases hfilter : vs.positionFilter s typeName with
  | none =>
      rw [hfilter] at hposition
      cases a with
      | false => exact ha
      | true =>
          have hb : b = true := (Option.some.inj (hposition rfl)).symm
          simpa [hb] using ha
  | some auth =>
      rw [hfilter] at hposition
      exact hv.intersect ha hposition

/-- What is known to be visible of a type tells of its nodes whether they may be seen. -/
def Tells (vs : Visibilities) (g : Graph) (v : Node → Filter → Option Bool) (sees : Node → Bool)
    (typeName : String) : Prop :=
  ∃ out, vs.find? typeName = some out ∧
    ∀ n ∈ g.toList, n.typeName = typeName → out.read (v n) = some (sees n)

/-! ### Selections -/

/-- Read as plain truth, a filter that may be missing is met by every node when it is. -/
theorem ofOption_meets (f : Option Filter) :
    Filter.Reading.ofOption (fun f => some (f.meets g n)) f =
      some (f.all fun f => f.meets g n) := by
  cases f <;> rfl

/-- A filter that may be missing can be read as a verdict just when it fails on no node that is
asked about. -/
theorem ofOption_verdict_isSome {f : Option Filter} :
    (∃ b, Filter.Reading.ofOption (Filter.verdict g n) f = some b) ↔ g.Decides f n := by
  unfold Graph.Decides
  cases f with
  | none => simp [Filter.Reading.ofOption, Filter.acceptsIfAny]
  | some f => simp [Filter.Reading.ofOption, Filter.acceptsIfAny, Filter.verdict,
      toOption_eq_some_iff]

variable {sees : Node → Bool}

/-- Of a node at an edge the restricted filter says what the filter says, and whether the
node may be seen. -/
theorem restrictFilter_meets (hs : s.Sound) (hfits : g.Fits s) (hn : n ∈ g.toList)
    (hisA : n.isA typeName = true) {existing : Option Filter}
    (htells : vs.Tells g (fun n f => some (f.meets g n)) sees n.typeName) :
    ((vs.restrictFilter s typeName existing).all fun f => f.meets g n) =
      ((existing.all fun f => f.meets g n) && sees n) := by
  obtain ⟨out, hout, hsees⟩ := htells
  have hread := restrictFilter_read hs hfits hn (Filter.meets_readingOf g n) hisA
    (ofOption_meets existing) fun _ => ⟨out, hout, hsees n hn rfl⟩
  rw [ofOption_meets] at hread
  exact Option.some.inj hread

mutual

/-- **Restricted selections show to everyone what the selections show to those who must
not see everything.** -/
theorem shown_restrictAll (hs : s.Sound) (hfits : g.Fits s) : (selections : List Selection) →
    (∀ t ∈ s.typesBelow selections, vs.Tells g (fun n f => some (f.meets g n)) sees t) →
    (n : Node) →
    g.shown (fun _ => true) (vs.restrictAll s selections) n = g.shown sees selections n
  | [], _, n => by rw [restrictAll, Graph.shown, Graph.shown]
  | x :: xs, htells, n => by
      rw [restrictAll, Graph.shown, Graph.shown,
        shownOne_restrictOne hs hfits x (fun t ht => htells t (by simp [Schema.typesBelow, ht])) n,
        shown_restrictAll hs hfits xs (fun t ht => htells t (by simp [Schema.typesBelow, ht])) n]

/-- One restricted selection shows of every node what the selection shows to those who see less. -/
theorem shownOne_restrictOne (hs : s.Sound) (hfits : g.Fits s) : (x : Selection) →
    (∀ t ∈ s.typesAt x, vs.Tells g (fun n f => some (f.meets g n)) sees t) → (n : Node) →
    g.shownOne (fun _ => true) (vs.restrictOne s x) n = g.shownOne sees x n
  | ⟨name, label, targetType, filter, selections⟩, htells, n => by
      have hbelow := shown_restrictAll hs hfits selections
        fun t ht => htells t (by simp [Schema.typesAt, ht])
      unfold restrictOne
      rw [Graph.shownOne, Graph.shownOne]
      simp only [hbelow]
      congr 1
      split
      · rfl
      · rfl
      · next targets _ =>
          congr 3
          refine List.filter_congr fun m hm => ?_
          cases targetType with
          | none => rfl
          | some t =>
              simp only [Option.all_some, Bool.and_true]
              cases hisA : m.isA t with
              | false => rfl
              | true =>
                  have hm' := (Graph.mem_among_iff.1 hm).1
                  have hmem := Schema.mem_positionTypes_of_isA hs hfits hm' hisA
                  rw [restrictFilter_meets hs hfits hm' hisA
                    (htells m.typeName (by simp [Schema.typesAt, hmem]))]
                  simp [Bool.and_comm]

end

mutual

/-- The filters of restricted selections can be evaluated, when those of the selections
can and what the rules leave visible can. -/
theorem answerable_restrictAll (hs : s.Sound) (hfits : g.Fits s) : (selections : List Selection) →
    (∀ t ∈ s.typesBelow selections, vs.Tells g (Filter.verdict g) sees t) →
    g.Answerable selections → g.Answerable (vs.restrictAll s selections)
  | [], _, _ => by rw [restrictAll, Graph.Answerable]; trivial
  | x :: xs, htells, h => by
      rw [Graph.Answerable] at h
      rw [restrictAll, Graph.Answerable]
      exact ⟨answerableAt_restrictOne hs hfits x
          (fun t ht => htells t (by simp [Schema.typesBelow, ht])) h.1,
        answerable_restrictAll hs hfits xs
          (fun t ht => htells t (by simp [Schema.typesBelow, ht])) h.2⟩

/-- One selection of which no filter fails is still such when it is restricted. -/
theorem answerableAt_restrictOne (hs : s.Sound) (hfits : g.Fits s) : (x : Selection) →
    (∀ t ∈ s.typesAt x, vs.Tells g (Filter.verdict g) sees t) →
    g.AnswerableAt x → g.AnswerableAt (vs.restrictOne s x)
  | ⟨name, label, targetType, filter, selections⟩, htells, h => by
      rw [Graph.AnswerableAt] at h
      unfold restrictOne
      rw [Graph.AnswerableAt]
      refine ⟨fun m hm hplace => ?_, answerable_restrictAll hs hfits selections
        (fun t ht => htells t (by simp [Schema.typesAt, ht])) h.2⟩
      cases targetType with
      | none => exact h.1 m hm hplace
      | some t =>
          have hisA : m.isA t = true := hplace
          have hmem := Schema.mem_positionTypes_of_isA hs hfits hm hisA
          obtain ⟨out, hout, hsees⟩ := htells m.typeName (by simp [Schema.typesAt, hmem])
          obtain ⟨a, ha⟩ := ofOption_verdict_isSome.2 (h.1 m hm hplace)
          exact ofOption_verdict_isSome.1 ⟨_, restrictFilter_read hs hfits hm
            (Filter.verdict_readingOf g m) hisA ha fun _ => ⟨out, hout, hsees m hm rfl⟩⟩

end

end Visibilities

end GraphWarden
