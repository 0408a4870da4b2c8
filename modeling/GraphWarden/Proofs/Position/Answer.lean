import GraphWarden.Proofs.Position.Restricted
import GraphWarden.Proofs.Store.Merged

/-!
# What a query is to be answered

`Schema.answer` says it with no word about restricted filters, queries that are split, or
records that are put together: of the stored nodes at each position of the query as it was
asked, those that its filter accepts and that the rule of their own type lets the claims
see.

**A restricted query selects what the query shows of the nodes that may be seen**
(`selected_restrict`).  Which these are is told by what is known of the types (`Tells`); the
root may go by other outcomes than what is below, and then other nodes may be seen there.
Where one map tells of all types of a query (`TellsTypesOf`), two ways lead to the answer.

* The query itself, restricted, is on an object type or on an interface
  (`selected_restrict_whole`).
* **The parts of a query that was split make the whole**, limit included, in whichever
  order they arrive (`merged_sent`); that nothing is lost when parts are cut off holds of all
  queries that report the same of a node (`upTo_merged_parts`).

What the rules of the types leave visible for an operation tells of the nodes that these
rules allow (`Knows.tells`).
-/

namespace GraphWarden

/-- Whether a query selects a node, in plain truth. -/
def Graph.selects (g : Graph) (q : Query) (n : Node) : Bool :=
  n.isA q.typeName && q.filter.all fun f => f.meets g n

/-- The records of a query in plain truth. -/
def Graph.selected (g : Graph) (q : Query) : List Record :=
  upTo q.first ((g.toList.filter fun n =>
    n.isA q.typeName && q.filter.all fun f => f.meets g n).map
      (g.shownRecord (fun _ => true) q.selections))

/-- The records of a query, in plain truth, of the nodes that may be seen: at the root by one
standard, below by another. -/
def Graph.selectedSeeing (g : Graph) (seesRoot sees : Node → Bool) (q : Query) : List Record :=
  upTo q.first ((g.toList.filter fun n => n.isA q.typeName &&
    (seesRoot n && q.filter.all fun f => f.meets g n)).map (g.shownRecord sees q.selections))

namespace Schema

/-- Whether the rule of a node's own type lets these claims see the node. -/
def sees (s : Schema) (g : Graph) (claims : Claims) (n : Node) : Bool :=
  (s.rule? n.typeName .query).all fun rule =>
    rule.holdsWith claims (GraphRule.covers g claims n)

/-- Whether the rule that governs an operation on a node's own type allows it on the node. -/
def allows (s : Schema) (g : Graph) (claims : Claims) (op : Operation) (n : Node) : Bool :=
  (s.governingRule? n.typeName op).all fun rule =>
    rule.holdsWith claims (GraphRule.covers g claims n)

/-- The records of a query, as it was asked, of the nodes that may be seen. -/
def answerSeeing (s : Schema) (g : Graph) (sees : Node → Bool) (q : Query) : List Record :=
  upTo q.first ((g.toList.filter fun n =>
    (s.positionTypes q.typeName).contains n.typeName &&
      (sees n && q.filter.all fun f => f.meets g n)).map
    (g.shownRecord sees q.selections))

/-- The records of a query, as it was asked, of the nodes that these claims may see. -/
def answer (s : Schema) (g : Graph) (claims : Claims) (q : Query) : List Record :=
  upTo q.first ((g.toList.filter fun n =>
    (s.positionTypes q.typeName).contains n.typeName &&
      (s.sees g claims n && q.filter.all fun f => f.meets g n)).map
    (g.shownRecord (s.sees g claims) q.selections))

/-- Whether the store can evaluate the filters of a query, as it was asked, on the nodes at
their positions, and the graph rules of these nodes. -/
structure Evaluable (s : Schema) (g : Graph) (claims : Claims) (q : Query) : Prop where
  root : ∀ n ∈ g.toList, n.typeName ∈ s.positionTypes q.typeName → g.Decides q.filter n
  below : g.Answerable q.selections
  rules : ∀ n ∈ g.toList, n.typeName ∈ s.governedTypes q → ∀ rule,
    s.rule? n.typeName .query = some rule → ∀ part ∈ rule.graphRules, part.Decided g claims n

variable {s : Schema} {g : Graph} {claims : Claims} {q : Query} {typeName : String}

theorem answer_eq_answerSeeing :
    s.answer g claims q = s.answerSeeing g (s.sees g claims) q := rfl

/-- The types that govern a query are those at its root and those below. -/
theorem mem_governedTypes {t : String} : t ∈ s.governedTypes q ↔
    t ∈ s.positionTypes q.typeName ∨ t ∈ s.typesBelow q.selections := by
  unfold governedTypes
  rw [Names.mem_sorted, List.mem_append]

/-- Records are listed in the order of their ids, each once. -/
theorem answer_rising (s : Schema) (g : Graph) (claims : Claims) (q : Query) :
    (s.answer g claims q).Pairwise fun r r' => r.id < r'.id := by
  refine upTo_rising (List.pairwise_map.2 ?_)
  exact g.toList_rising.filter _

theorem governingRule?_query : s.governingRule? typeName .query = s.rule? typeName .query := by
  simp [governingRule?]

/-- What claims may see is what query rules allow. -/
theorem sees_eq_allows : s.sees g claims = s.allows g claims .query := by
  funext n
  unfold sees allows
  rw [governingRule?_query]

end Schema

/-! ### Parts of a whole -/

/-- The records of the nodes that some part of a query selects, in the order of their ids. -/
def Graph.wholeOf (g : Graph) (selections : List Selection) (parts : List Query) : List Record :=
  (g.toList.filter fun n => parts.any fun part => g.selects part n).map
    (g.shownRecord (fun _ => true) selections)

/-- Whole records are listed by rising ids, so that no order of the parts shows in them. -/
theorem Graph.wholeOf_rising (g : Graph) (selections : List Selection) (parts : List Query) :
    (g.wholeOf selections parts).Pairwise fun r r' => r.id < r'.id :=
  List.pairwise_map.2 (g.toList_rising.filter _)

/-- **Parts that are cut off make the first records of the whole**, when they report the same of a
node. -/
theorem upTo_merged_parts {g : Graph} {selections : List Selection} {parts : List Query}
    (hparts : ∀ part ∈ parts, part.selections = selections) {limit : Option Nat}
    {answers : List (List Record)}
    (hanswers : answers.Perm (parts.map fun part => g.selected { part with first := limit })) :
    upTo limit (answers.foldl Client.merge Keyed.empty).values =
      upTo limit (g.wholeOf selections parts) := by
  refine Client.upTo_values_merged (g.wholeOf_rising selections parts) ?_ ?_
  · intro r hr
    obtain ⟨records, hrecords, hr⟩ := List.mem_flatten.1 hr
    obtain ⟨part, hpart, rfl⟩ := List.mem_map.1 (hanswers.mem_iff.1 hrecords)
    obtain ⟨n, hn, rfl⟩ := List.mem_map.1 (mem_of_mem_upTo hr)
    obtain ⟨hstored, hselects⟩ := List.mem_filter.1 hn
    rw [hparts part hpart]
    exact List.mem_map_of_mem
      (List.mem_filter.2 ⟨hstored, List.any_eq_true.2 ⟨part, hpart, hselects⟩⟩)
  · intro r hr
    rw [Graph.wholeOf, upTo_map] at hr
    obtain ⟨n, hn, rfl⟩ := List.mem_map.1 hr
    obtain ⟨part, hpart, hselects⟩ :=
      List.any_eq_true.1 (List.mem_filter.1 (mem_of_mem_upTo hn)).2
    have hselected : g.shownRecord (fun _ => true) selections n ∈
        g.selected { part with first := limit } := by
      -- what the other parts select is left out of the whole, and `n` stays within the limit
      have hown := mem_upTo_filter (p := g.selects part) hn hselects
      rw [List.filter_filter] at hown
      rw [Graph.selected, upTo_map, ← hparts part hpart]
      refine List.mem_map_of_mem (List.filter_congr (fun m _ => ?_) ▸ hown)
      show (g.selects part m && _) = g.selects part m
      cases hm : g.selects part m with
      | false => rfl
      | true =>
          rw [Bool.true_and]
          exact List.any_eq_true.2 ⟨part, hpart, hm⟩
    exact List.mem_flatten.2 ⟨_, hanswers.mem_iff.2 (List.mem_map_of_mem hpart), hselected⟩

/-! ### What is known of types -/

namespace Visibilities

/-- What is known of these types is what the rules for an operation leave visible. -/
def Knows (vs : Visibilities) (s : Schema) (claims : Claims) (op : Operation)
    (types : List String) : Prop :=
  ∀ t ∈ types, ∃ out, vs.find? t = some out ∧
    Rule.visibilityIfAny true claims (s.governingRule? t op) = .ok out

/-- Filters read as plain truth. -/
abbrev plainly (g : Graph) (n : Node) (f : Filter) : Option Bool := some (f.meets g n)

/-- What is known of the types of a query tells which nodes may be seen. -/
def TellsTypesOf (vs : Visibilities) (s : Schema) (g : Graph) (v : Node → Filter → Option Bool)
    (sees : Node → Bool) (q : Query) : Prop :=
  ∀ t ∈ s.governedTypes q, vs.Tells g v sees t

variable {vs : Visibilities} {s : Schema} {g : Graph} {claims : Claims} {op : Operation}
  {types : List String} {q : Query}

/-- What the rules leave visible tells which nodes they allow. -/
theorem Knows.tells (h : vs.Knows s claims op types) {t : String} (ht : t ∈ types) :
    vs.Tells g (plainly g) (s.allows g claims op) t := by
  obtain ⟨out, hout, hvisibility⟩ := h t ht
  refine ⟨out, hout, fun n _ hname => ?_⟩
  unfold Schema.allows
  rw [Visibility.read_meets, hname]
  cases hrule : s.governingRule? t op with
  | none =>
      rw [hrule] at hvisibility
      cases hvisibility
      rfl
  | some rule =>
      rw [hrule] at hvisibility
      exact congrArg some (Rule.meets_of_visibility hvisibility)

/-- And a store that can evaluate the rules can evaluate what they leave visible. -/
theorem Knows.tells_verdict (h : vs.Knows s claims op types) {t : String} (ht : t ∈ types)
    (hdecided : ∀ n ∈ g.toList, n.typeName = t → ∀ rule, s.governingRule? t op = some rule →
      ∀ part ∈ rule.graphRules, part.Decided g claims n) :
    vs.Tells g (Filter.verdict g) (s.allows g claims op) t := by
  obtain ⟨out, hout, hvisibility⟩ := h t ht
  refine ⟨out, hout, fun n hn hname => ?_⟩
  have hrules := hdecided n hn hname
  subst hname
  unfold Schema.allows
  cases hrule : s.governingRule? n.typeName op with
  | none =>
      rw [hrule] at hvisibility
      cases hvisibility
      rfl
  | some rule =>
      rw [hrule] at hvisibility
      exact Rule.verdict_of_visibility (hrules rule hrule) hvisibility

/-- What is known of all types that govern a query tells which nodes may be seen, in plain truth.
-/
theorem Knows.tellsTypes (h : vs.Knows s claims .query (s.governedTypes q)) :
    vs.TellsTypesOf s g (plainly g) (s.sees g claims) q := by
  intro t ht
  rw [Schema.sees_eq_allows]
  exact h.tells ht

/-- It also tells what the store will say of these nodes, provided that the store can evaluate all
rules and filters there. -/
theorem Knows.tellsTypes_verdict (h : vs.Knows s claims .query (s.governedTypes q))
    (hevaluable : s.Evaluable g claims q) :
    vs.TellsTypesOf s g (Filter.verdict g) (s.sees g claims) q := by
  intro t ht
  rw [Schema.sees_eq_allows]
  refine h.tells_verdict ht fun n hn hname rule hrule => ?_
  rw [Schema.governingRule?_query] at hrule
  subst hname
  exact hevaluable.rules n hn ht rule hrule

/-! ### Restricted queries -/

section Restricted

variable {root : Visibilities} {seesRoot sees : Node → Bool}

/-- A restricted query selects, of the nodes of its type, those that it accepted before and that
may be seen at the root. -/
theorem selects_restrict (hs : s.Sound) (hfits : g.Fits s) {n : Node} (hn : n ∈ g.toList)
    (hroot : n.isA q.typeName = true → root.Tells g (plainly g) seesRoot n.typeName) :
    g.selects (vs.restrict root s q) n =
      (n.isA q.typeName && (seesRoot n && q.filter.all fun f => f.meets g n)) := by
  unfold Graph.selects restrict
  cases hisA : n.isA q.typeName with
  | false => simp only [Bool.false_and]
  | true =>
      rw [restrictFilter_meets hs hfits hn hisA (hroot hisA), Bool.and_comm (q.filter.all _)]

/-- What a restricted query shows of a node is what the query shows of it when the nodes that must
not be seen are left out. -/
theorem shownRecord_restrict (hs : s.Sound) (hfits : g.Fits s)
    (hbelow : ∀ t ∈ s.typesBelow q.selections, vs.Tells g (plainly g) sees t) :
    g.shownRecord (fun _ => true) (vs.restrictAll s q.selections) =
      g.shownRecord sees q.selections := by
  funext n
  unfold Graph.shownRecord
  rw [shown_restrictAll hs hfits q.selections hbelow n]

/-- **A restricted query selects what the query, as it was asked, shows of the nodes that
may be seen.** -/
theorem selected_restrict (hs : s.Sound) (hfits : g.Fits s)
    (hroot : ∀ n ∈ g.toList, n.isA q.typeName = true →
      root.Tells g (plainly g) seesRoot n.typeName)
    (hbelow : ∀ t ∈ s.typesBelow q.selections, vs.Tells g (plainly g) sees t) :
    g.selected (vs.restrict root s q) = g.selectedSeeing seesRoot sees q := by
  have hnodes : ∀ n ∈ g.toList, g.selects (vs.restrict root s q) n =
      (n.isA q.typeName && (seesRoot n && q.filter.all fun f => f.meets g n)) :=
    fun n hn => selects_restrict hs hfits hn (hroot n hn)
  show upTo q.first ((g.toList.filter (g.selects (vs.restrict root s q))).map
    (g.shownRecord (fun _ => true) (vs.restrictAll s q.selections))) = _
  rw [shownRecord_restrict hs hfits hbelow, List.filter_congr hnodes, Graph.selectedSeeing]

/-- The store answers such a query, when it can evaluate the filters of the query and what
may be seen. -/
theorem execute_restrict_isOk (hs : s.Sound) (hfits : g.Fits s)
    (hroot : ∀ n ∈ g.toList, n.isA q.typeName = true →
      g.Decides q.filter n ∧ root.Tells g (Filter.verdict g) seesRoot n.typeName)
    (hbelow : ∀ t ∈ s.typesBelow q.selections, vs.Tells g (Filter.verdict g) sees t)
    (hanswerable : g.Answerable q.selections) :
    ∃ records, g.execute (vs.restrict root s q) = .ok records := by
  refine Graph.execute_isOk (fun n hn hisA => ?_)
    (answerable_restrictAll hs hfits q.selections hbelow hanswerable)
  obtain ⟨hdecides, out, hout, hsees⟩ := hroot n hn hisA
  obtain ⟨a, ha⟩ := ofOption_verdict_isSome.2 hdecides
  exact ofOption_verdict_isSome.1 ⟨_, restrictFilter_read hs hfits hn
    (Filter.verdict_readingOf g n) hisA ha fun _ => ⟨out, hout, hsees n hn rfl⟩⟩

end Restricted

section Whole

variable {v : Node → Filter → Option Bool} {sees : Node → Bool} {info : TypeInfo} {t : String}

/-- What tells of all types of a query tells of those below. -/
theorem TellsTypesOf.below (h : vs.TellsTypesOf s g v sees q) :
    ∀ t ∈ s.typesBelow q.selections, vs.Tells g v sees t :=
  fun t ht => h t (Schema.mem_governedTypes.2 (Or.inr ht))

/-- It tells of the type of every node at the root. -/
theorem TellsTypesOf.root (h : vs.TellsTypesOf s g v sees q) (hs : s.Sound) (hfits : g.Fits s)
    {n : Node} (hn : n ∈ g.toList) (hisA : n.isA q.typeName = true) :
    vs.Tells g v sees n.typeName :=
  h n.typeName (Schema.mem_governedTypes.2
    (Or.inl (Schema.mem_positionTypes_of_isA hs hfits hn hisA)))

/-- At the root of a query that is not on a union stand the nodes of the root's types. -/
theorem isA_eq_contains (hs : s.Sound) (hfits : g.Fits s) (hroot : s.find? q.typeName = some info)
    (hkind : info.kind ≠ .union) {n : Node} (hn : n ∈ g.toList) :
    n.isA q.typeName = (s.positionTypes q.typeName).contains n.typeName := by
  rw [Bool.eq_iff_iff, List.contains_iff_mem]
  refine ⟨Schema.mem_positionTypes_of_isA hs hfits hn, fun hplaced => ?_⟩
  unfold Schema.positionTypes at hplaced
  rw [hroot] at hplaced
  cases hcase : info.kind with
  | union => exact absurd hcase hkind
  | object =>
      simp only [hcase, List.isEmpty_nil, if_true, List.mem_singleton] at hplaced
      simp [Node.isA, hplaced]
  | interface =>
      simp only [hcase] at hplaced
      split at hplaced
      · simp [Node.isA, List.mem_singleton.1 hplaced]
      · obtain ⟨below, hbelow, _, hlists⟩ :=
          (hs.mem_implementers_iff q.typeName info hroot hcase n.typeName).1 hplaced
        obtain ⟨own, hown, _, hinterfaces⟩ := hfits n hn
        rw [hbelow] at hown
        cases hown
        simp [Node.isA, (hinterfaces q.typeName).2 hlists]

/-- **On an object type or an interface, the restricted query selects the answer itself.** -/
theorem selected_restrict_whole (hs : s.Sound) (hfits : g.Fits s)
    (htells : vs.TellsTypesOf s g (plainly g) sees q) (hroot : s.find? q.typeName = some info)
    (hkind : info.kind ≠ .union) :
    g.selected (vs.restrict vs s q) = s.answerSeeing g sees q := by
  rw [selected_restrict hs hfits (fun n hn => htells.root hs hfits hn) htells.below]
  unfold Graph.selectedSeeing Schema.answerSeeing
  rw [List.filter_congr fun n hn => by rw [isA_eq_contains hs hfits hroot hkind hn]]

/-- The store answers it, when it can evaluate the filters of the query. -/
theorem execute_restrict_whole_isOk (hs : s.Sound) (hfits : g.Fits s)
    (htells : vs.TellsTypesOf s g (Filter.verdict g) sees q)
    (hdecides : ∀ n ∈ g.toList, n.typeName ∈ s.positionTypes q.typeName → g.Decides q.filter n)
    (hanswerable : g.Answerable q.selections) :
    ∃ records, g.execute (vs.restrict vs s q) = .ok records := by
  have hplaced : ∀ n ∈ g.toList, n.isA q.typeName = true →
      g.Decides q.filter n ∧ vs.Tells g (Filter.verdict g) sees n.typeName := by
    intro n hn hisA
    refine ⟨hdecides n hn (Schema.mem_positionTypes_of_isA hs hfits hn hisA), ?_⟩
    exact htells.root hs hfits hn hisA
  exact execute_restrict_isOk hs hfits hplaced htells.below hanswerable

/-- A copy of the query for one of the root's types selects the nodes of that type that may be
seen. -/
theorem selects_restrict_copy (hs : s.Sound) (hfits : g.Fits s)
    (htells : vs.TellsTypesOf s g (plainly g) sees q) (hroot : s.find? q.typeName = some info)
    (ht : t ∈ s.positionTypes q.typeName) {n : Node} (hn : n ∈ g.toList) :
    g.selects (vs.restrict vs s { q with typeName := t }) n =
      (n.typeName == t && (sees n && q.filter.all fun f => f.meets g n)) := by
  have hplace := Schema.isA_iff_of_mem_positionTypes hs hfits hn hroot ht
  have hisA : n.isA t = (n.typeName == t) := by rw [Bool.eq_iff_iff, hplace, beq_iff_eq]
  rw [selects_restrict (q := { q with typeName := t }) hs hfits hn fun hisA =>
    htells _ (Schema.mem_governedTypes.2 (Or.inl (hplace.1 hisA ▸ ht)))]
  show (n.isA t && _) = _
  rw [hisA]

/-- The store answers such a copy, when it can evaluate the filters of the query. -/
theorem execute_restrict_copy_isOk (hs : s.Sound) (hfits : g.Fits s)
    (htells : vs.TellsTypesOf s g (Filter.verdict g) sees q)
    (hdecides : ∀ n ∈ g.toList, n.typeName ∈ s.positionTypes q.typeName → g.Decides q.filter n)
    (hanswerable : g.Answerable q.selections) (hroot : s.find? q.typeName = some info)
    (ht : t ∈ s.positionTypes q.typeName) :
    ∃ records, g.execute (vs.restrict vs s { q with typeName := t }) = .ok records := by
  have hcopy : ∀ n ∈ g.toList, n.isA t = true →
      g.Decides q.filter n ∧ vs.Tells g (Filter.verdict g) sees n.typeName := by
    intro n hn hisA
    have hname := (Schema.isA_iff_of_mem_positionTypes hs hfits hn hroot ht).1 hisA
    have hplaced : n.typeName ∈ s.positionTypes q.typeName := hname ▸ ht
    exact ⟨hdecides n hn hplaced, htells _ (Schema.mem_governedTypes.2 (Or.inl hplaced))⟩
  exact execute_restrict_isOk (q := { q with typeName := t }) hs hfits hcopy htells.below
    hanswerable

end Whole

/-! ### Queries that are split -/

/-- A query that no node can match selects no node. -/
theorem selects_of_isNothing {q : Query} (h : q.filter.any Filter.isNothing = true) (n : Node) :
    g.selects q n = false := by
  unfold Graph.selects
  cases hfilter : q.filter with
  | none => simp [hfilter] at h
  | some f =>
      rw [hfilter] at h
      cases f with
      | nothing => simp [Filter.meets]
      | _ => simp [Filter.isNothing] at h

/-- The queries that are run of a query that was split. -/
def sent (vs : Visibilities) (s : Schema) (q : Query) : List Query :=
  ((q.split s).map (vs.restrict vs s)).filter fun q => !q.filter.any Filter.isNothing

/-- They are restricted copies for types of the root. -/
theorem exists_of_mem_sent {part : Query} (h : part ∈ vs.sent s q) :
    ∃ t ∈ s.positionTypes q.typeName, part = vs.restrict vs s { q with typeName := t } := by
  obtain ⟨copy, hcopy, rfl⟩ := List.mem_map.1 (List.mem_filter.1 h).1
  obtain ⟨t, ht, rfl⟩ := List.mem_map.1 hcopy
  exact ⟨t, ht, rfl⟩

/-- Among them they select the nodes of the root's types that may be seen. -/
theorem any_sent_selects {sees : Node → Bool} {info : TypeInfo} (hs : s.Sound) (hfits : g.Fits s)
    (htells : vs.TellsTypesOf s g (plainly g) sees q) (hroot : s.find? q.typeName = some info)
    {n : Node} (hn : n ∈ g.toList) : ((vs.sent s q).any fun part => g.selects part n) =
      ((s.positionTypes q.typeName).contains n.typeName &&
        (sees n && q.filter.all fun f => f.meets g n)) := by
  rw [Bool.eq_iff_iff, List.any_eq_true, Bool.and_eq_true, List.contains_iff_mem]
  constructor
  · rintro ⟨part, hpart, hselects⟩
    obtain ⟨t, ht, rfl⟩ := exists_of_mem_sent hpart
    rw [selects_restrict_copy hs hfits htells hroot ht hn, Bool.and_eq_true, beq_iff_eq] at hselects
    obtain ⟨rfl, hsees⟩ := hselects
    exact ⟨ht, hsees⟩
  · rintro ⟨hplaced, hsees⟩
    have hselects : g.selects (vs.restrict vs s { q with typeName := n.typeName }) n = true := by
      rw [selects_restrict_copy hs hfits htells hroot hplaced hn, hsees, beq_self_eq_true,
        Bool.true_and]
    refine ⟨_, List.mem_filter.2 ⟨List.mem_map_of_mem (List.mem_map_of_mem hplaced), ?_⟩, hselects⟩
    rw [Bool.not_eq_true']
    refine Bool.eq_false_iff.2 fun hnothing => ?_
    rw [selects_of_isNothing hnothing] at hselects
    simp at hselects

/-- **The parts of a query that was split make the whole**, in whichever order they
arrive. -/
theorem merged_sent {sees : Node → Bool} {info : TypeInfo} (hs : s.Sound) (hfits : g.Fits s)
    (htells : vs.TellsTypesOf s g (plainly g) sees q) (hroot : s.find? q.typeName = some info)
    {answers : List (List Record)} (hanswers : answers.Perm ((vs.sent s q).map g.selected)) :
    upTo q.first (answers.foldl Client.merge Keyed.empty).values = s.answerSeeing g sees q := by
  have hsame : ∀ part ∈ vs.sent s q, part.selections = vs.restrictAll s q.selections ∧
      { part with first := q.first } = part := by
    intro part hpart
    obtain ⟨t, _, rfl⟩ := exists_of_mem_sent hpart
    exact ⟨rfl, rfl⟩
  rw [← List.map_congr_left fun part hpart => congrArg g.selected (hsame part hpart).2] at hanswers
  rw [upTo_merged_parts (fun part hpart => (hsame part hpart).1) hanswers, Graph.wholeOf,
    shownRecord_restrict hs hfits htells.below,
    List.filter_congr fun n hn => any_sent_selects hs hfits htells hroot hn]
  rfl

end Visibilities

end GraphWarden
